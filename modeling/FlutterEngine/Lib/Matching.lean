import Mathlib.Logic.Function.Basic

/-!
# Matchings stored at both ends

Nodes `ι` are paired up as owner and owned. Each live node stores whom it owns and whom it is
owned by, with a sentinel `k` for nobody. `Matching k L` says that the two fields mirror each
other, and `LinkStep.matching` that linking, unlinking, adding and removing nodes keep it so.
-/

namespace Lib

open Function

variable {ι : Type*}

/-- For each live node, the node it owns and the node it is owned by. -/
abbrev Links (ι : Type*) := ι → Option (ι × ι)

/-- Owning and being owned are inverse partial maps between live nodes, and no node does both. -/
structure Matching (k : ι) (L : Links ι) : Prop where
  inverse : ∀ a b oa sa ob sb, L a = some (oa, sa) → L b = some (ob, sb) → (oa = b ↔ sb = a)
  exclusive : ∀ a oa sa, L a = some (oa, sa) → oa = k ∨ sa = k
  owned_live : ∀ a oa sa, L a = some (oa, sa) → oa ≠ k → (L oa).isSome
  owner_live : ∀ a oa sa, L a = some (oa, sa) → sa ≠ k → (L sa).isSome

lemma matching_none (k : ι) : Matching k fun _ => none := ⟨nofun, nofun, nofun, nofun⟩

namespace Matching

variable {k a b sa : ι} {L L' : Links ι}

/-- A live node is not the sentinel. -/
theorem ne_sentinel (hk : L k = none) {x : ι} {l : ι × ι} (hx : L x = some l) : x ≠ k := by
  rintro rfl
  simp [hk] at hx

section

variable (hL : Matching k L)
include hL

/-- A node that owns another is owned by nobody, and the other one mirrors it. -/
theorem owned_links (hk : L k = none) (ha : L a = some (b, sa)) (hb : b ≠ k) :
    sa = k ∧ L b = some (k, a) ∧ a ≠ b := by
  obtain ⟨⟨ob, sb⟩, hLb⟩ := Option.isSome_iff_exists.mp (hL.owned_live a b sa ha hb)
  obtain rfl : sb = a := (hL.inverse a b b sa ob sb ha hLb).mp rfl
  obtain rfl : ob = k := (hL.exclusive b ob sb hLb).resolve_right (ne_sentinel hk ha)
  have hsa : sa = ob := (hL.exclusive sb b sa ha).resolve_left hb
  refine ⟨hsa, hLb, ?_⟩
  rintro rfl
  simp_all

/-- A node that is owned by another owns nobody, and the other one mirrors it. -/
theorem owner_links (hk : L k = none) {oa : ι} (ha : L a = some (oa, b)) (hb : b ≠ k) :
    oa = k ∧ L b = some (a, k) ∧ a ≠ b := by
  obtain ⟨⟨ob, sb⟩, hLb⟩ := Option.isSome_iff_exists.mp (hL.owner_live a oa b ha hb)
  obtain rfl : ob = a := (hL.inverse b a ob sb oa b hLb ha).mpr rfl
  obtain ⟨rfl, hLa, hne⟩ := hL.owned_links hk hLb (ne_sentinel hk ha)
  exact ⟨by simp_all, hLb, hne.symm⟩

/-- No node points at an unmatched one. -/
theorem ne_of_unmatched (hk : L k = none) (ha : L a = some (k, k)) (x ox sx : ι)
    (hx : L x = some (ox, sx)) : ox ≠ a ∧ sx ≠ a := by
  have hxk := ne_sentinel hk hx
  have h1 := hL.inverse x a ox sx k k hx ha
  have h2 := hL.inverse a x k k ox sx ha hx
  grind

/-- No node points at a dead one. -/
theorem ne_of_dead (hak : a ≠ k) (ha : L a = none) (x ox sx : ι) (hx : L x = some (ox, sx)) :
    ox ≠ a ∧ sx ≠ a := by
  have h1 := hL.owned_live x ox sx hx
  have h2 := hL.owner_live x ox sx hx
  grind

/-- Only the two nodes of a pair point at either of them. -/
theorem ne_of_pair (hk : L k = none) (ha : L a = some (b, k)) (hb : L b = some (k, a)) (x ox sx : ι)
    (hx : L x = some (ox, sx)) (hxa : x ≠ a) (hxb : x ≠ b) : ox ≠ a ∧ ox ≠ b ∧ sx ≠ a ∧ sx ≠ b := by
  have hxk := ne_sentinel hk hx
  have h1 := hL.inverse x a ox sx b k hx ha
  have h2 := hL.inverse a x b k ox sx ha hx
  have h3 := hL.inverse x b ox sx k a hx hb
  have h4 := hL.inverse b x k a ox sx hb hx
  grind

/-- Changing the links of a set of nodes keeps a matching if nobody outside points into the set
and the set is matched up within itself. -/
theorem of_update {S : ι → Prop} (hout : ∀ x, ¬ S x → L' x = L x)
    (hpoint : ∀ x ox sx, ¬ S x → L x = some (ox, sx) → ¬ S ox ∧ ¬ S sx)
    (hin : ∀ x y ox sx oy sy, S x → L' x = some (ox, sx) → L' y = some (oy, sy) →
      (ox = y ↔ sy = x) ∧ (oy = x ↔ sx = y))
    (hexclusive : ∀ x ox sx, S x → L' x = some (ox, sx) → ox = k ∨ sx = k)
    (hlive : ∀ x ox sx, S x → L' x = some (ox, sx) →
      (ox ≠ k → (L' ox).isSome) ∧ (sx ≠ k → (L' sx).isSome)) :
    Matching k L' := by
  refine ⟨fun x y ox sx oy sy hx hy => ?_, fun x ox sx hx => ?_, fun x ox sx hx hne => ?_,
    fun x ox sx hx hne => ?_⟩
  · by_cases hSx : S x
    · exact (hin x y ox sx oy sy hSx hx hy).1
    · by_cases hSy : S y
      · exact (hin y x oy sy ox sx hSy hy hx).2
      · exact hL.inverse x y ox sx oy sy (hout x hSx ▸ hx) (hout y hSy ▸ hy)
  · by_cases hSx : S x
    · exact hexclusive x ox sx hSx hx
    · exact hL.exclusive x ox sx (hout x hSx ▸ hx)
  · by_cases hSx : S x
    · exact (hlive x ox sx hSx hx).1 hne
    · rw [hout x hSx] at hx
      rw [hout ox (hpoint x ox sx hSx hx).1]
      exact hL.owned_live x ox sx hx hne
  · by_cases hSx : S x
    · exact (hlive x ox sx hSx hx).2 hne
    · rw [hout x hSx] at hx
      rw [hout sx (hpoint x ox sx hSx hx).2]
      exact hL.owner_live x ox sx hx hne

end

end Matching

variable [DecidableEq ι]

/-- The moves on links. The flag is the node that becomes live, if any. -/
inductive LinkStep (k : ι) (L : Links ι) : Option ι → Links ι → Prop
  | keep : LinkStep k L none L
  | add (a : ι) : a ≠ k → L a = none → LinkStep k L (some a) (update L a (some (k, k)))
  | remove (a : ι) : L a = some (k, k) → LinkStep k L none (update L a none)
  | removePair (a b : ι) : L a = some (b, k) → b ≠ k →
      LinkStep k L none (update (update L a none) b none)
  | link (a b : ι) : a ≠ b → L a = some (k, k) → L b = some (k, k) →
      LinkStep k L none (update (update L a (some (b, k))) b (some (k, a)))
  | unlink (a b sa ob sb : ι) : b ≠ k → L a = some (b, sa) → L b = some (ob, sb) →
      LinkStep k L none (update (update L b (some (ob, k))) a (some (k, sa)))

namespace LinkStep

variable {k : ι} {new : Option ι} {L L' : Links ι}

/-- Only the new node becomes live. -/
theorem live (h : LinkStep k L new L') {x : ι} (hx : (L' x).isSome) :
    (L x).isSome ∨ new = some x := by
  cases h <;> grind

/-- No move makes the sentinel live. -/
theorem sentinel (h : LinkStep k L new L') (hk : L k = none) : L' k = none := by
  cases h <;> grind

/-- Every move keeps a matching. -/
theorem matching (h : LinkStep k L new L') (hk : L k = none) (hL : Matching k L) :
    Matching k L' := by
  cases h with
  | keep => exact hL
  | add a hak ha =>
    have hfree := hL.ne_of_dead hak ha
    refine hL.of_update (S := (· = a)) ?_ ?_ ?_ ?_ ?_ <;> grind
  | remove a ha =>
    have hfree := hL.ne_of_unmatched hk ha
    refine hL.of_update (S := (· = a)) ?_ ?_ ?_ ?_ ?_ <;> grind
  | removePair a b ha hb =>
    obtain ⟨-, hLb, hne⟩ := hL.owned_links hk ha hb
    have hfree := hL.ne_of_pair hk ha hLb
    refine hL.of_update (S := fun x => x = a ∨ x = b) ?_ ?_ ?_ ?_ ?_ <;> grind
  | link a b hne ha hb =>
    have hfreeA := hL.ne_of_unmatched hk ha
    have hfreeB := hL.ne_of_unmatched hk hb
    refine hL.of_update (S := fun x => x = a ∨ x = b) ?_ ?_ ?_ ?_ ?_ <;> grind
  | unlink a b sa ob sb hbk ha hb =>
    obtain ⟨rfl, hLb, hne⟩ := hL.owned_links hk ha hbk
    have hfree := hL.ne_of_pair hk ha hLb
    refine hL.of_update (S := fun x => x = a ∨ x = b) ?_ ?_ ?_ ?_ ?_ <;> grind

end LinkStep

end Lib
