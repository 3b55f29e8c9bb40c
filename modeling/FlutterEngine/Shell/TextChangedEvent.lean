import Mathlib.Data.Int.Order.Basic
import Mathlib.Data.List.TakeDrop

/-!
# Text changes on Android

`createTextChangedEvent` of the accessibility bridge compares two values of a text field from the
front up to the first difference, and from the back no further than that. The event describes the
edit, as a replacement of the shortest part (`event_describes`).
-/

namespace Flutter.AccessibilityBridge

open List

/-- The fields of an event of type `TYPE_VIEW_TEXT_CHANGED`. -/
structure TextChangedEvent where
  beforeText : List UInt16
  text : List UInt16
  fromIndex : ℕ
  removedCount : ℤ
  addedCount : ℤ

variable (oldValue newValue : List UInt16)

/-- The loop over `i`. -/
def firstDifference (i : ℕ) : ℕ :=
  if i < oldValue.length ∧ i < newValue.length then
    if oldValue[i]? ≠ newValue[i]? then i else firstDifference (i + 1)
  else i
termination_by oldValue.length - i

/-- The loop over `oldIndex` and `newIndex`, which are one less than the numbers here. -/
def lastDifference (first : ℕ) : ℕ → ℕ → ℕ × ℕ
  | 0, newEnd => (0, newEnd)
  | oldEnd + 1, newEnd =>
    if first ≤ oldEnd ∧ first < newEnd then
      if oldValue[oldEnd]? ≠ newValue[newEnd - 1]? then (oldEnd + 1, newEnd)
      else lastDifference first oldEnd (newEnd - 1)
    else (oldEnd + 1, newEnd)

/-- `createTextChangedEvent` -/
def createTextChangedEvent : Option TextChangedEvent :=
  let first := firstDifference oldValue newValue 0
  if oldValue.length ≤ first ∧ newValue.length ≤ first then none
  else
    let (oldEnd, newEnd) := lastDifference oldValue newValue first oldValue.length newValue.length
    some ⟨oldValue, newValue, first, (oldEnd - 1 : ℤ) - first + 1, (newEnd - 1 : ℤ) - first + 1⟩

variable {old new : List UInt16}

/-- With `r` characters replaced by `a` others at `f`, the old value becomes the new one. -/
structure Edits (old new : List UInt16) (f r a : ℕ) : Prop where
  removed_le : f + r ≤ old.length
  added_le : f + a ≤ new.length
  text_eq : old.take f ++ (new.drop f).take a ++ old.drop (f + r) = new

/-- The event describes an edit after the longest common prefix, of the shortest part. -/
structure Describes (old new : List UInt16) (event : TextChangedEvent) : Prop where
  removed_nonneg : 0 ≤ event.removedCount
  added_nonneg : 0 ≤ event.addedCount
  edits : Edits old new event.fromIndex event.removedCount.toNat event.addedCount.toNat
  common : old.take event.fromIndex = new.take event.fromIndex
  longest : ∀ m, m ≤ old.length → m ≤ new.length → old.take m = new.take m →
    m ≤ event.fromIndex
  least : ∀ r a, Edits old new event.fromIndex r a →
    event.removedCount ≤ r ∧ event.addedCount ≤ a

/-! ## The two loops -/

/-- The first loop ends at the end of the longest common prefix. -/
theorem firstDifference_spec {i : ℕ} (hold : i ≤ old.length) (hnew : i ≤ new.length)
    (hcommon : old.take i = new.take i) :
    let f := firstDifference old new i
    f ≤ old.length ∧ f ≤ new.length ∧ old.take f = new.take f ∧
      (f < old.length → f < new.length → old[f]? ≠ new[f]?) := by
  fun_induction firstDifference old new i with
  | case1 i h hne => exact ⟨hold, hnew, hcommon, fun _ _ => hne⟩
  | case2 i h heq ih =>
    refine ih h.1 h.2 ?_
    rw [take_add_one, take_add_one, hcommon, not_not.mp heq]
  | case3 i h => exact ⟨hold, hnew, hcommon, fun h₁ h₂ => absurd ⟨h₁, h₂⟩ h⟩

/-- The second loop ends where the common suffix cannot be made longer. -/
theorem lastDifference_spec {first oldEnd newEnd o n : ℕ}
    (h : lastDifference old new first oldEnd newEnd = (o, n)) (hold : first ≤ oldEnd)
    (hnew : first ≤ newEnd) (hdrop : old.drop oldEnd = new.drop newEnd) :
    first ≤ o ∧ o ≤ oldEnd ∧ first ≤ n ∧ n ≤ newEnd ∧ old.drop o = new.drop n ∧
      (first < o → first < n → old[o - 1]? ≠ new[n - 1]?) := by
  fun_induction lastDifference old new first oldEnd newEnd with
  | case1 | case4 =>
    cases h
    exact ⟨hold, Nat.le_refl _, hnew, Nat.le_refl _, hdrop, by omega⟩
  | case2 oldEnd newEnd _ hne =>
    cases h
    exact ⟨hold, Nat.le_refl _, hnew, Nat.le_refl _, hdrop, fun _ _ => hne⟩
  | case3 oldEnd newEnd hlt heq ih =>
    have hdrop' : old.drop oldEnd = new.drop (newEnd - 1) := by
      have hnext := drop_eq_getElem?_toList_append (l := new) (i := newEnd - 1)
      rw [Nat.sub_add_cancel (by omega)] at hnext
      rw [drop_eq_getElem?_toList_append, hdrop, not_not.mp heq, hnext]
    obtain ⟨ho, ho', hn, hn', hrest⟩ := ih h hlt.1 (by omega) hdrop'
    exact ⟨ho, by omega, hn, by omega, hrest⟩

/-- If a longer common suffix were left, the second loop would not have ended. -/
theorem Edits.le {f r a o n : ℕ} (h : Edits old new f r a) (hold : o ≤ old.length)
    (hnew : n ≤ new.length) (hdrop : old.drop o = new.drop n)
    (hlast : f < o → f < n → old[o - 1]? ≠ new[n - 1]?) : o ≤ f + r ∧ n ≤ f + a := by
  obtain ⟨hr, ha, htext⟩ := h
  have hsuffix : new.drop (f + a) = old.drop (f + r) := by
    have hlength : (old.take f ++ (new.drop f).take a).length = f + a := by
      simp only [length_append, length_take, length_drop]
      omega
    nth_rewrite 1 [← htext]
    exact drop_left' hlength
  have hlengths := congrArg length hdrop
  have hlengths' := congrArg length hsuffix
  simp only [length_drop] at hlengths hlengths'
  by_contra hlt
  have ho : o - 1 = f + r + (o - 1 - (f + r)) := by omega
  have hn : n - 1 = f + a + (o - 1 - (f + r)) := by omega
  refine hlast (by omega) (by omega) ?_
  rw [ho, hn, ← getElem?_drop, ← getElem?_drop, hsuffix]

/-- For any two values, there is an event unless they are equal, and it describes the change. -/
theorem event_describes (old new : List UInt16) :
    (createTextChangedEvent old new = none ↔ old = new) ∧
      ∀ event ∈ createTextChangedEvent old new, Describes old new event := by
  obtain ⟨hold, hnew, hcommon, hfirst⟩ :=
    @firstDifference_spec old new 0 (Nat.zero_le _) (Nat.zero_le _) rfl
  rw [createTextChangedEvent]
  generalize firstDifference old new 0 = f at hold hnew hcommon hfirst ⊢
  have hlongest : ∀ m, m ≤ old.length → m ≤ new.length →
      old.take m = new.take m → m ≤ f := by
    intro m hm hm' htake
    by_contra hlt
    have hlt : f < m := Nat.lt_of_not_le hlt
    refine hfirst (by omega) (by omega) ?_
    rw [← getElem?_take_of_lt hlt, htake, getElem?_take_of_lt hlt]
  cases hends : lastDifference old new f old.length new.length with
  | mk o n =>
    obtain ⟨ho, ho', hn, hn', hdrop, hlast⟩ := lastDifference_spec hends hold hnew (by simp)
    by_cases h : old.length ≤ f ∧ new.length ≤ f
    · rw [take_of_length_le h.1, take_of_length_le h.2] at hcommon
      simp [h, hcommon]
    · have hne : old ≠ new := by
        rintro rfl
        have := hlongest _ (Nat.le_refl _) (Nat.le_refl _) rfl
        omega
      simp only [h, if_false]
      refine ⟨iff_of_false nofun hne, ?_⟩
      rintro _ ⟨⟩
      have hr : ((o : ℤ) - 1 - f + 1).toNat = o - f := by omega
      have ha : ((n : ℤ) - 1 - f + 1).toNat = n - f := by omega
      refine ⟨by grind, by grind, ⟨by grind, by grind, ?_⟩, hcommon, hlongest, ?_⟩
      · simp only [hr, ha]
        rw [Nat.add_sub_cancel' ho, hdrop, hcommon, ← take_add, Nat.add_sub_cancel' hn,
          take_append_drop]
      · intro r a hedits
        have := hedits.le ho' hn' hdrop hlast
        grind

end Flutter.AccessibilityBridge
