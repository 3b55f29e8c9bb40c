import Mathlib.Data.Nat.Notation

/-!
# Properties of characters

`UnicodePropertyLookup` finds the property of a character by binary search in a sorted list of
ranges. `find_eq_assigned` says that it finds the property of the range that contains the character.
-/

namespace WebUi

open List Option

/-- `_ComparisonResult` -/
inductive ComparisonResult where
  | inside
  | higher
  | lower
deriving DecidableEq, Repr

/-- `UnicodeRange`, with both ends included. -/
structure UnicodeRange (P : Type) where
  start : ℕ
  stop : ℕ
  property : P

variable {P : Type}

namespace UnicodeRange

/-- `compare` -/
def compare (range : UnicodeRange P) (value : ℕ) : ComparisonResult :=
  if value < range.start then .lower
  else if range.stop < value then .higher
  else .inside

def Contains (range : UnicodeRange P) (value : ℕ) : Prop := range.start ≤ value ∧ value ≤ range.stop

instance (range : UnicodeRange P) (value : ℕ) : Decidable (range.Contains value) :=
  inferInstanceAs (Decidable (_ ∧ _))

end UnicodeRange

/-- `UnicodePropertyLookup` -/
structure UnicodePropertyLookup (P : Type) where
  ranges : List (UnicodeRange P)
  nonempty : ∀ range ∈ ranges, range.start ≤ range.stop
  sorted : ranges.Pairwise fun range next => range.stop < next.start

namespace UnicodePropertyLookup

variable {lookup : UnicodePropertyLookup P} {value min max rounds i : ℕ} {range : UnicodeRange P}

/-- The loop of `_binarySearch`, with a bound for the number of its rounds. -/
def binarySearch (lookup : UnicodePropertyLookup P) (value : ℕ) : ℕ → ℕ → ℕ → Option ℕ
  | 0, _, _ => none
  | rounds + 1, min, max =>
    if min < max then
      let mid := min + (max - min) / 2
      match lookup.ranges[mid]? with
      | none => none
      | some range =>
        match range.compare value with
        | .higher => binarySearch lookup value rounds (mid + 1) max
        | .lower => binarySearch lookup value rounds min mid
        | .inside => some mid
    else
      none

/-- `find` -/
def find (lookup : UnicodePropertyLookup P) (value : ℕ) : Option P := do
  let index ← lookup.binarySearch value (lookup.ranges.length + 1) 0 lookup.ranges.length
  let range ← lookup.ranges[index]?
  return range.property

/-- The property of the range that contains a value. -/
def assigned (lookup : UnicodePropertyLookup P) (value : ℕ) : Option P :=
  (lookup.ranges.find? (·.Contains value)).map (·.property)

/-- What holds in the loop: the range that contains the value is between the bounds. -/
structure Bounds (lookup : UnicodePropertyLookup P) (value min max : ℕ) : Prop where
  le : max ≤ lookup.ranges.length
  below : ∀ {i range}, lookup.ranges[i]? = some range → i < min → range.stop < value
  above : ∀ {i range}, lookup.ranges[i]? = some range → max ≤ i → value < range.start

lemma stop_lt_start {j : ℕ} {next : UnicodeRange P} (hi : lookup.ranges[i]? = some range)
    (hj : lookup.ranges[j]? = some next) (hlt : i < j) : range.stop < next.start := by
  obtain ⟨hi', rfl⟩ := List.getElem?_eq_some_iff.mp hi
  obtain ⟨hj', rfl⟩ := List.getElem?_eq_some_iff.mp hj
  exact pairwise_iff_getElem.mp lookup.sorted i j hi' hj' hlt

lemma start_le_stop (hi : lookup.ranges[i]? = some range) : range.start ≤ range.stop :=
  lookup.nonempty range (mem_of_getElem? hi)

section

variable (h : lookup.Bounds value min max)
include h

lemma Bounds.not_contains (hle : max ≤ min) (hi : lookup.ranges[i]? = some range) :
    ¬range.Contains value := by
  rintro ⟨hstart, hstop⟩
  rcases Nat.lt_or_ge i min with hlt | hge
  · have hbelow := h.below hi hlt
    omega
  · have habove := h.above hi (Nat.le_trans hle hge)
    omega

/-- The value is above the range in the middle. -/
theorem Bounds.higher {mid : ℕ} (hmid : lookup.ranges[mid]? = some range)
    (hlt : range.stop < value) : lookup.Bounds value (mid + 1) max := by
  refine ⟨h.le, fun {i before} hi hle => ?_, h.above⟩
  rcases Nat.lt_or_eq_of_le (Nat.le_of_lt_succ hle) with hlt' | rfl
  · have hstop := stop_lt_start hi hmid hlt'
    have hstart := start_le_stop hmid
    omega
  · obtain rfl := some.inj (hi.symm.trans hmid)
    exact hlt

/-- The value is below the range in the middle. -/
theorem Bounds.lower {mid : ℕ} (hmid : lookup.ranges[mid]? = some range)
    (hlt : value < range.start) : lookup.Bounds value min mid := by
  have hle := (List.getElem?_eq_some_iff.mp hmid).1
  refine ⟨Nat.le_of_lt hle, h.below, fun {i after} hi hle => ?_⟩
  rcases Nat.lt_or_eq_of_le hle with hlt' | rfl
  · have hstop := stop_lt_start hmid hi hlt'
    have hstart := start_le_stop hmid
    omega
  · obtain rfl := some.inj (hi.symm.trans hmid)
    exact hlt

end

/-- What the binary search finds. -/
inductive Found (lookup : UnicodePropertyLookup P) (value : ℕ) : Option ℕ → Prop
  | inside {i : ℕ} {range : UnicodeRange P} (eq : lookup.ranges[i]? = some range)
      (contains : range.Contains value) : Found lookup value (some i)
  | nothing (not_contains : ∀ {i : ℕ} {range : UnicodeRange P}, lookup.ranges[i]? = some range →
      ¬range.Contains value) : Found lookup value none

lemma found_binarySearch (hbounds : lookup.Bounds value min max) (hrounds : max - min < rounds) :
    lookup.Found value (lookup.binarySearch value rounds min max) := by
  induction rounds generalizing min max with
  | zero => exact absurd hrounds (Nat.not_lt_zero _)
  | succ rounds ih =>
    rw [binarySearch]
    split
    · next hlt =>
      obtain ⟨mid, hmid⟩ : ∃ mid, mid = min + (max - min) / 2 := ⟨_, rfl⟩
      have hle := hbounds.le
      obtain ⟨range, hrange⟩ : ∃ range, lookup.ranges[mid]? = some range :=
        ⟨_, getElem?_eq_getElem (by omega)⟩
      rw [← hmid]
      dsimp only
      rw [hrange]
      dsimp only
      rw [UnicodeRange.compare]
      by_cases hlower : value < range.start
      · rw [if_pos hlower]
        exact ih (hbounds.lower hrange hlower) (by omega)
      · rw [if_neg hlower]
        by_cases hhigher : range.stop < value
        · rw [if_pos hhigher]
          exact ih (hbounds.higher hrange hhigher) (by omega)
        · rw [if_neg hhigher]
          exact .inside hrange ⟨Nat.not_lt.mp hlower, Nat.not_lt.mp hhigher⟩
    · next hge => exact .nothing (hbounds.not_contains (Nat.not_lt.mp hge))

/-- At most one range contains a value. -/
theorem eq_of_contains {i j : ℕ} {next : UnicodeRange P} (hi : lookup.ranges[i]? = some range)
    (hj : lookup.ranges[j]? = some next) (hrange : range.Contains value)
    (hnext : next.Contains value) : range = next := by
  rcases Nat.lt_trichotomy i j with hlt | rfl | hlt
  · exact absurd (stop_lt_start hi hj hlt) (Nat.not_lt.mpr (Nat.le_trans hnext.1 hrange.2))
  · exact some.inj (hi.symm.trans hj)
  · exact absurd (stop_lt_start hj hi hlt) (Nat.not_lt.mpr (Nat.le_trans hrange.1 hnext.2))

lemma find_eq_assigned (lookup : UnicodePropertyLookup P) (value : ℕ) :
    lookup.find value = lookup.assigned value := by
  have hbounds : lookup.Bounds value 0 lookup.ranges.length := by
    refine ⟨Nat.le_refl _, fun _ hlt => absurd hlt (Nat.not_lt_zero _), fun hi hle => ?_⟩
    exact absurd (List.getElem?_eq_some_iff.mp hi).1 (Nat.not_lt.mpr hle)
  have hfound := found_binarySearch hbounds (Nat.lt_succ_self _)
  rw [find, assigned]
  generalize lookup.binarySearch value (lookup.ranges.length + 1) 0 lookup.ranges.length =
    result at *
  cases hfound with
  | @inside i range eq contains =>
    cases hfind : lookup.ranges.find? (·.Contains value) with
    | none =>
      have hnot := find?_eq_none.mp hfind range (mem_of_getElem? eq)
      exact absurd (decide_eq_true contains) hnot
    | some range' =>
      obtain ⟨j, hj⟩ := mem_iff_getElem?.mp (mem_of_find?_eq_some hfind)
      have hcontains : range'.Contains value := by
        have hdecide := find?_some hfind
        exact of_decide_eq_true hdecide
      obtain rfl := eq_of_contains eq hj contains hcontains
      simp only [bind_eq_bind, bind_some, eq, map_some]
      rfl
  | nothing not_contains =>
    have hnone : lookup.ranges.find? (·.Contains value) = none := by
      rw [find?_eq_none]
      intro range hmem
      obtain ⟨i, hi⟩ := mem_iff_getElem?.mp hmem
      rw [decide_eq_true_eq]
      exact not_contains hi
    rw [hnone]
    rfl

end UnicodePropertyLookup

end WebUi
