import FlutterEngine.WebUi.Semantics
import Mathlib.Data.Fin.Basic
import Mathlib.Data.Set.List

/-!
# Which children stay

The children that are not moved stand in the same order in the old list and in the new one:
`stationaryIds` is a sublist of both. The children that are detached are those that are missing
from the new list (`mem_removedIds`).
-/

namespace WebUi.Semantics

open List

variable {previous children : List ℤ} {id : ℤ} {i : ℕ}

lemma discrepancy_le_length (previous children : List ℤ) :
    discrepancy previous children ≤ previous.length := by
  fun_induction discrepancy previous children with
  | case1 x previous children ih =>
    rw [length_cons]
    omega
  | case2 | case3 => exact Nat.zero_le _

/-- The lists agree up to their first difference. -/
theorem take_discrepancy (previous children : List ℤ) :
    previous.take (discrepancy previous children) =
      children.take (discrepancy previous children) := by
  fun_induction discrepancy previous children with
  | case1 x previous children ih => rw [take_succ_cons, take_succ_cons, ih]
  | case2 => rfl
  | case3 => simp

lemma eq_of_discrepancy (hlength : previous.length = children.length)
    (hdiscrepancy : discrepancy previous children = children.length) : previous = children := by
  have htake := take_discrepancy previous children
  rw [hdiscrepancy, take_length, ← hlength, take_length] at htake
  exact htake

lemma map_getD_range {n : ℕ} (hn : n ≤ previous.length) :
    (List.range n).map (previous.getD · 0) = previous.take n := by
  refine ext_getElem (by simp [hn]) fun i hi hi' => ?_
  have hlt : i < previous.length := by simp at hi; omega
  simp [hlt]

/-- What the indices stand for: the children in the new order, except those that are new. -/
theorem map_intersectionIndicesOld (previous children : List ℤ) :
    (intersectionIndicesOld previous children).map (previous.getD · 0) =
      children.filter (· ∈ previous) := by
  have hrest : ∀ l : List ℤ, (l.filterMap fun id => previous.idxOf? id).map (previous.getD · 0) =
      l.filter (· ∈ previous) := by
    intro l
    induction l with
    | nil => rfl
    | cons id l ih =>
      cases hid : previous.idxOf? id with
      | none =>
        have hmem : id ∉ previous := idxOf?_eq_none_iff.mp hid
        rw [filterMap_cons, hid, filter_cons_of_neg (by simpa using hmem)]
        exact ih
      | some i =>
        obtain ⟨hlt, hget, -⟩ := idxOf?_eq_some_iff.mp hid
        have hmem : id ∈ previous := hget ▸ getElem_mem hlt
        rw [filterMap_cons, hid, filter_cons_of_pos (by simpa using hmem)]
        rw [map_cons, ih, getD_eq_getElem _ _ hlt, hget]
  have htake := take_discrepancy previous children
  rw [intersectionIndicesOld, map_append, map_getD_range (discrepancy_le_length _ _), hrest]
  -- before the first difference all children are old ones
  have hkept : (children.take (discrepancy previous children)).filter (· ∈ previous) =
      previous.take (discrepancy previous children) := by
    rw [← htake, filter_eq_self]
    exact fun id hid => decide_eq_true (mem_of_mem_take hid)
  rw [← hkept, ← filter_append, take_append_drop]

lemma lt_length_of_mem_intersectionIndicesOld
    (hi : i ∈ intersectionIndicesOld previous children) : i < previous.length := by
  rcases mem_append.mp hi with hrange | hrest
  · exact (mem_range.mp hrange).trans_le (discrepancy_le_length _ _)
  · obtain ⟨id, -, hid⟩ := mem_filterMap.mp hrest
    obtain ⟨hlt, -, -⟩ := idxOf?_eq_some_iff.mp hid
    exact hlt

/-- Increasing indices pick a sublist. -/
theorem map_getD_sublist {α : Type} {l : List α} {d : α} {indices : List ℕ}
    (hlt : ∀ i ∈ indices, i < l.length) (hindices : indices.Pairwise (· < ·)) :
    (indices.map (l.getD · d)).Sublist l := by
  lift indices to List (Fin l.length) using hlt
  rw [pairwise_map] at hindices
  have hmap : (indices.map Fin.val).map (l.getD · d) = indices.map (l[·]) := by
    rw [map_map]
    refine map_congr_left fun i _ => ?_
    exact getD_eq_getElem _ _ i.isLt
  rw [hmap]
  exact map_getElem_sublist hindices

/-- A sublist is what is left when all others are dropped. -/
theorem filter_mem_of_sublist {l l' : List ℤ} (h : l'.Sublist l) (hl : l.Nodup) :
    l.filter (· ∈ l') = l' := by
  have hself : l'.filter (· ∈ l') = l' := filter_eq_self.mpr fun id hid => decide_eq_true hid
  have hsub : l'.Sublist (l.filter (· ∈ l')) := by simpa only [hself] using h.filter (· ∈ l')
  -- both have the same elements, none of them twice
  have hperm : l'.Perm (l.filter (· ∈ l')) := by
    refine (perm_ext_iff_of_nodup (hl.sublist h) (hl.filter _)).mpr fun id => ?_
    simp only [mem_filter, decide_eq_true_eq]
    exact ⟨fun hid => ⟨h.subset hid, hid⟩, fun hid => hid.2⟩
  exact (hsub.eq_of_length hperm.length_eq).symm

/-- The children that stay are in the order of the new list. -/
theorem stationaryIds_sublist_children (previous children : List ℤ) :
    (stationaryIds previous children).Sublist children := by
  have hpick := map_getD_sublist (d := 0)
    (fun k hk => lt_length_of_mem_longestIncreasingSubsequence hk)
    ((pairwise_longestIncreasingSubsequence
      (intersectionIndicesOld previous children)).imp And.left)
  have hmap := hpick.map (previous.getD · 0)
  rw [map_map, map_intersectionIndicesOld] at hmap
  exact hmap.trans filter_sublist

/-- The children that stay are in the order of the old list. -/
theorem stationaryIds_sublist_previous (previous children : List ℤ) :
    (stationaryIds previous children).Sublist previous := by
  have hincreasing :=
    pairwise_longestIncreasingSubsequence (intersectionIndicesOld previous children)
  have hpick : (((longestIncreasingSubsequence (intersectionIndicesOld previous children)).map
      ((intersectionIndicesOld previous children).getD · 0)).map (previous.getD · 0)).Sublist
      previous := by
    refine map_getD_sublist ?_ (pairwise_map.mpr (hincreasing.imp And.right))
    intro i hi
    obtain ⟨k, hk, rfl⟩ := mem_map.mp hi
    have hlt := lt_length_of_mem_longestIncreasingSubsequence hk
    rw [getD_eq_getElem _ _ hlt]
    exact lt_length_of_mem_intersectionIndicesOld (getElem_mem hlt)
  rwa [map_map] at hpick

/-- The children that are detached. -/
theorem mem_removedIds (hprevious : previous.Nodup) :
    id ∈ removedIds previous children ↔ id ∈ previous ∧ id ∉ children := by
  -- an index belongs to the intersection if and only if the child at it is in the new list
  have hindex : ∀ {i}, previous[i]? = some id →
      (i ∈ intersectionIndicesOld previous children ↔ id ∈ children) := by
    intro i hi
    obtain ⟨hlt, hget⟩ := List.getElem?_eq_some_iff.mp hi
    have hmem : id ∈ previous := hget ▸ getElem_mem hlt
    have hmap : id ∈ (intersectionIndicesOld previous children).map (previous.getD · 0) ↔
        id ∈ children := by
      rw [map_intersectionIndicesOld, mem_filter]
      simp [hmem]
    rw [← hmap, mem_map]
    constructor
    · intro hold
      exact ⟨i, hold, by rw [getD_eq_getElem _ _ hlt, hget]⟩
    · rintro ⟨j, hj, hjd⟩
      have hjlt := lt_length_of_mem_intersectionIndicesOld hj
      rw [getD_eq_getElem _ _ hjlt, ← hget] at hjd
      rwa [← (hprevious.getElem_inj_iff).mp hjd]
  rw [removedIds, mem_filterMap]
  constructor
  · rintro ⟨⟨id', i⟩, hmem, hkept⟩
    dsimp only at hkept
    split at hkept
    · cases hkept
    · next hold =>
      cases hkept
      have hi : previous[i]? = some id := mem_zipIdx_iff_getElem?.mp hmem
      obtain ⟨hlt, hget⟩ := List.getElem?_eq_some_iff.mp hi
      refine ⟨hget ▸ getElem_mem hlt, fun hchild => hold ?_⟩
      exact contains_iff_mem.mpr ((hindex hi).mpr hchild)
  · rintro ⟨hmem, hchild⟩
    obtain ⟨i, hlt, hget⟩ := getElem_of_mem hmem
    have hi : previous[i]? = some id := List.getElem?_eq_some_iff.mpr ⟨hlt, hget⟩
    refine ⟨(id, i), mem_zipIdx_iff_getElem?.mpr hi, ?_⟩
    dsimp only
    rw [if_neg]
    intro hold
    exact hchild ((hindex hi).mp (contains_iff_mem.mp hold))

end WebUi.Semantics
