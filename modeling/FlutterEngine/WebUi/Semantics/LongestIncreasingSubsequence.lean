import Mathlib.Data.List.GetD
import Mathlib.Order.Nat

/-!
# The longest increasing subsequence

`longestIncreasingSubsequence` returns indices into a list. The loop keeps, for each length, the
last index of an increasing subsequence of this length (`mins`), and for each index the one before
it (`predecessors`). The subsequence is read off backwards.

What the callers depend on is that the indices are increasing and so are the entries they stand for
(`pairwise_longestIncreasingSubsequence`).
-/

namespace WebUi.Semantics

open List Nat

variable {list mins predecessors : List ℕ} {elem i k n lo hi longest rounds : ℕ}

/-- The variables of the loop. -/
structure Subsequences where
  predecessors : List ℕ
  mins : List ℕ
  longest : ℕ

/-- The binary search for the largest positive `j ≤ longest` such that `list[mins[j]] < elem`, with
a bound for the number of its rounds. What is returned is one greater. -/
def expansionIndex (list mins : List ℕ) (elem : ℕ) : ℕ → ℕ → ℕ → ℕ
  | 0, lo, _ => lo
  | rounds + 1, lo, hi =>
    if lo ≤ hi then
      let mid := (lo + hi) / 2
      if list.getD (mins.getD mid 0) 0 < elem then expansionIndex list mins elem rounds (mid + 1) hi
      else expansionIndex list mins elem rounds lo (mid - 1)
    else lo

namespace Subsequences

/-- The body of the loop. -/
def extend (list : List ℕ) (s : Subsequences) (i : ℕ) : Subsequences :=
  let index := expansionIndex list s.mins (list.getD i 0) (s.longest + 1) 1 s.longest
  { predecessors := s.predecessors ++ [s.mins.getD (index - 1) 0]
    mins := if s.mins.length ≤ index then s.mins ++ [i] else s.mins.set index i
    longest := if s.longest < index then index else s.longest }

end Subsequences

/-- Put the last `n` indices of a subsequence in front of a list, from the last one on. -/
def reconstruct (predecessors : List ℕ) : ℕ → ℕ → List ℕ → List ℕ
  | 0, _, seq => seq
  | n + 1, k, seq => reconstruct predecessors n (predecessors.getD k 0) (k :: seq)

/-- `longestIncreasingSubsequence` -/
def longestIncreasingSubsequence (list : List ℕ) : List ℕ :=
  let s := (range list.length).foldl (Subsequences.extend list) ⟨[], [0], 0⟩
  reconstruct s.predecessors s.longest (s.mins.getD s.longest 0) []

/-! ## The binary search -/

/-- Where the search stops: in front of an entry that is not smaller, behind one that is. -/
structure IsExpansionIndex (list mins : List ℕ) (elem longest index : ℕ) : Prop where
  pos : 1 ≤ index
  le : index ≤ longest + 1
  lt : index ≠ 1 → list.getD (mins.getD (index - 1) 0) 0 < elem
  not_lt : index ≠ longest + 1 → ¬list.getD (mins.getD index 0) 0 < elem

/-- Between `lo` and `hi` there is nothing known yet. There are enough rounds. -/
theorem isExpansionIndex_expansionIndex (hlo : 1 ≤ lo) (hhi : hi ≤ longest) (hle : lo ≤ hi + 1)
    (hlt : lo ≠ 1 → list.getD (mins.getD (lo - 1) 0) 0 < elem)
    (hnot : hi ≠ longest → ¬list.getD (mins.getD (hi + 1) 0) 0 < elem)
    (hrounds : hi + 1 - lo < rounds) :
    IsExpansionIndex list mins elem longest (expansionIndex list mins elem rounds lo hi) := by
  induction rounds generalizing lo hi with
  | zero => exact absurd hrounds (not_lt_zero _)
  | succ rounds ih =>
    rw [expansionIndex]
    by_cases hempty : lo ≤ hi
    · rw [if_pos hempty]
      dsimp only
      have hmid : lo ≤ (lo + hi) / 2 ∧ (lo + hi) / 2 ≤ hi := by omega
      generalize (lo + hi) / 2 = mid at hmid ⊢
      split
      · next hsmaller => exact ih (by omega) hhi (by omega) (fun _ => hsmaller) hnot (by omega)
      · next hsmaller =>
        refine ih hlo (by omega) (by omega) hlt (fun _ => ?_) (by omega)
        rwa [Nat.sub_add_cancel (hlo.trans hmid.1)]
    · rw [if_neg hempty]
      obtain rfl : lo = hi + 1 := by omega
      exact ⟨hlo, by omega, hlt, fun hne => hnot fun heq => hne (by rw [heq])⟩

/-! ## The subsequences -/

/-- The order of the indices, and that of the entries. -/
def Increasing (list : List ℕ) (k k' : ℕ) : Prop := k < k' ∧ list.getD k 0 < list.getD k' 0

lemma Increasing.trans {k' k'' : ℕ} (h : Increasing list k k') (h' : Increasing list k' k'') :
    Increasing list k k'' :=
  ⟨h.1.trans h'.1, h.2.trans h'.2⟩

/-- The predecessors of `k` form an increasing subsequence of length `n`, together with `k`. -/
inductive Ends (list predecessors : List ℕ) : ℕ → ℕ → Prop
  | first {k : ℕ} : k < predecessors.length → Ends list predecessors 1 k
  | next {n k : ℕ} : k < predecessors.length →
      Increasing list (predecessors.getD k 0) k →
      Ends list predecessors (n + 1) (predecessors.getD k 0) → Ends list predecessors (n + 2) k

section Longer

variable (h : Ends list predecessors n k)

include h

lemma Ends.lt_length : k < predecessors.length := by
  cases h with
  | first hlt | next hlt => exact hlt

lemma Ends.append (p : ℕ) : Ends list (predecessors ++ [p]) n k := by
  have happend : ∀ {k}, k < predecessors.length → k < (predecessors ++ [p]).length ∧
        (predecessors ++ [p]).getD k 0 = predecessors.getD k 0 := by
    intro k hk
    exact ⟨by rw [length_append]; omega, getD_append _ _ _ _ hk⟩
  induction h with
  | first hlt => exact .first (happend hlt).1
  | next hlt hincreasing _ ih =>
    refine .next (happend hlt).1 ?_ ?_
    · rwa [(happend hlt).2]
    · rwa [(happend hlt).2]

/-- What has been read off already stays increasing. -/
theorem Ends.pairwise_reconstruct {seq : List ℕ} (hseq : (k :: seq).Pairwise (Increasing list)) :
    (reconstruct predecessors n k seq).Pairwise (Increasing list) := by
  induction h generalizing seq with
  | first => exact hseq
  | @next n k _ hincreasing _ ih =>
    refine ih (pairwise_cons.mpr ⟨?_, hseq⟩)
    intro k' hk'
    rcases mem_cons.mp hk' with rfl | hmem
    · exact hincreasing
    · exact hincreasing.trans ((pairwise_cons.mp hseq).1 k' hmem)

lemma Ends.lt_of_mem_reconstruct {seq : List ℕ} (hseq : ∀ k ∈ seq, k < predecessors.length) :
    ∀ k' ∈ reconstruct predecessors n k seq, k' < predecessors.length := by
  induction h generalizing seq with
  | first hlt => exact forall_mem_cons.mpr ⟨hlt, hseq⟩
  | next hlt _ _ ih => exact ih (forall_mem_cons.mpr ⟨hlt, hseq⟩)

end Longer

namespace Subsequences

/-- After `i` rounds there is a subsequence for each length. -/
structure Valid (list : List ℕ) (i : ℕ) (s : Subsequences) : Prop where
  length_predecessors : s.predecessors.length = i
  length_mins : s.mins.length = s.longest + 1
  ends : ∀ j, 1 ≤ j → j ≤ s.longest → Ends list s.predecessors j (s.mins.getD j 0)

variable {s : Subsequences}

/-- The subsequence of the length before is extended. -/
theorem Valid.ends_extend (h : s.Valid list i) {index : ℕ}
    (hindex : IsExpansionIndex list s.mins (list.getD i 0) s.longest index) :
    Ends list (s.predecessors ++ [s.mins.getD (index - 1) 0]) index i := by
  have hlt : i < (s.predecessors ++ [s.mins.getD (index - 1) 0]).length := by
    rw [length_append, h.length_predecessors]
    exact lt_succ_self i
  have hlast : (s.predecessors ++ [s.mins.getD (index - 1) 0]).getD i 0 =
      s.mins.getD (index - 1) 0 := by
    rw [getD_append_right _ _ _ _ h.length_predecessors.le, h.length_predecessors,
      Nat.sub_self, getD_cons_zero]
  match index, hindex with
  | 0, hindex => exact absurd hindex.pos (not_succ_le_zero 0)
  | 1, _ => exact .first hlt
  | j + 2, hindex =>
    have hends := h.ends (j + 1) (le_add_left 1 j) (le_of_succ_le_succ hindex.le)
    refine .next hlt ?_ ?_
    · rw [hlast]
      refine ⟨?_, hindex.lt (by omega)⟩
      rw [← h.length_predecessors]
      exact hends.lt_length
    · rw [hlast]
      exact hends.append _

lemma Valid.extend (h : s.Valid list i) : (s.extend list i).Valid list (i + 1) := by
  have hindex : IsExpansionIndex list s.mins (list.getD i 0) s.longest
      (expansionIndex list s.mins (list.getD i 0) (s.longest + 1) 1 s.longest) :=
    isExpansionIndex_expansionIndex (le_refl 1) (le_refl _) (by omega)
      (fun hne => absurd rfl hne) (fun hne => absurd rfl hne) (by omega)
  rw [Subsequences.extend]
  generalize expansionIndex list s.mins (list.getD i 0) (s.longest + 1) 1 s.longest = index
    at hindex ⊢
  have hends := h.ends_extend hindex
  have hold : ∀ j, 1 ≤ j → j ≤ s.longest →
      Ends list (s.predecessors ++ [s.mins.getD (index - 1) 0]) j (s.mins.getD j 0) :=
    fun j hpos hle => (h.ends j hpos hle).append _
  have hlength : (s.predecessors ++ [s.mins.getD (index - 1) 0]).length = i + 1 := by
    rw [length_append, h.length_predecessors, length_singleton]
  have hmins := h.length_mins
  -- either a longer subsequence has been found, or one that ends with a smaller entry
  by_cases hlonger : s.longest < index
  · obtain rfl : index = s.longest + 1 := le_antisymm hindex.le hlonger
    refine ⟨hlength, ?_, ?_⟩
    · dsimp only
      rw [if_pos hmins.le, if_pos hlonger, length_append, hmins, length_singleton]
    · dsimp only
      rw [if_pos hmins.le, if_pos hlonger]
      intro j hpos hle
      rcases hle.lt_or_eq with hlt | rfl
      · rw [getD_append _ _ _ _ (hmins ▸ hlt)]
        exact hold j hpos (Nat.le_of_lt_succ hlt)
      · rw [getD_append_right _ _ _ _ hmins.le, hmins, Nat.sub_self, getD_cons_zero]
        exact hends
  · have hlt : index < s.mins.length := by omega
    refine ⟨hlength, ?_, ?_⟩
    · dsimp only
      rw [if_neg (not_le.mpr hlt), if_neg hlonger, length_set, hmins]
    · dsimp only
      rw [if_neg (not_le.mpr hlt), if_neg hlonger]
      intro j hpos hle
      by_cases hj : index = j
      · have hself : (s.mins.set index i).getD j 0 = i := by simp [← hj, hlt]
        rw [hself, ← hj]
        exact hends
      · have hne : (s.mins.set index i).getD j 0 = s.mins.getD j 0 := by simp [hj]
        rw [hne]
        exact hold j hpos hle

/-- Each index extends what is valid for those before it. -/
theorem valid_foldl (list : List ℕ) (n : ℕ) :
    ((range n).foldl (Subsequences.extend list) ⟨[], [0], 0⟩).Valid list n := by
  induction n with
  | zero => exact ⟨rfl, rfl, fun j hpos hle => absurd (hpos.trans hle) (not_succ_le_zero 0)⟩
  | succ n ih =>
    rw [range_succ, foldl_append]
    exact ih.extend

end Subsequences

open Subsequences

/-- The indices that are returned are increasing, and so are the entries. -/
theorem pairwise_longestIncreasingSubsequence (list : List ℕ) :
    (longestIncreasingSubsequence list).Pairwise (Increasing list) := by
  have hvalid := valid_foldl list list.length
  rw [longestIncreasingSubsequence]
  generalize (range list.length).foldl (extend list) ⟨[], [0], 0⟩ = s at hvalid ⊢
  rcases Nat.eq_zero_or_pos s.longest with hzero | hpos
  · rw [hzero]
    exact List.Pairwise.nil
  · exact (hvalid.ends s.longest hpos le_rfl).pairwise_reconstruct (pairwise_singleton _ _)

lemma lt_length_of_mem_longestIncreasingSubsequence
    (hk : k ∈ longestIncreasingSubsequence list) : k < list.length := by
  have hvalid := valid_foldl list list.length
  rw [longestIncreasingSubsequence] at hk
  generalize (range list.length).foldl (extend list) ⟨[], [0], 0⟩ = s at hvalid hk
  rcases Nat.eq_zero_or_pos s.longest with hzero | hpos
  · rw [hzero] at hk
    exact absurd hk not_mem_nil
  · rw [← hvalid.length_predecessors]
    exact (hvalid.ends s.longest hpos le_rfl).lt_of_mem_reconstruct
      (fun _ hmem => absurd hmem not_mem_nil) k hk

example : longestIncreasingSubsequence [3, 0, 4, 1, 2, 5] = [1, 3, 4, 5] := by decide +kernel

end WebUi.Semantics
