import FlutterEngine.Shell.FlutterTextInputView
import Mathlib.Algebra.BigOperators.Group.List.Basic

/-!
# Moving in the text of an iOS text input view

A position is an index into the text. The positions between composed character sequences are the
sums of the first lengths of the sequences (`boundary`).

`moves` says that positions move by characters. Moves to the right go one character far whatever the
offset is, so that they agree with moves by the offset only where one character is all that is left
(`RightAgrees`). The range to the left of the first position is outside of the text, since the index
in front of that position is taken as an `NSUInteger`.

Sums of type `NSInteger` are not taken modulo anything: the language leaves them undefined when they
overflow.
-/

namespace Flutter

open List Int

inductive UITextLayoutDirection
  | right
  | left
  | up
  | down
deriving DecidableEq, Repr

/-- The direction is that of the text. -/
def UITextLayoutDirection.isForward : UITextLayoutDirection → Bool
  | .right | .down => true
  | .left | .up => false

namespace FlutterTextInputView

variable (composition : Composition) (view : FlutterTextInputView)

variable (position : ℕ)

/-- `decrementOffsetPosition:` -/
def decrementOffsetPosition : ℕ :=
  (composition.rangeForCharacterAtIndex view.text (max 0 (nsUInteger (position - 1)))).location

/-- `incrementOffsetPosition:` -/
def incrementOffsetPosition : ℕ :=
  let charRange := composition.rangeForCharacterAtIndex view.text position
  min (nsUInteger (position + charRange.length)) view.text.length

/-- The loop of `positionFromPosition:offset:` with increments. -/
def increments : ℕ → ℕ → ℕ
  | 0, position => position
  | n + 1, position =>
    if position < view.text.length then
      increments n (view.incrementOffsetPosition composition position)
    else position

/-- The loop of `positionFromPosition:offset:` with decrements. -/
def decrements : ℕ → ℕ → ℕ
  | 0, position => position
  | n + 1, position =>
    if 0 < position then decrements n (view.decrementOffsetPosition composition position)
    else position

/-- `positionFromPosition:offset:` -/
def positionFromPosition (offset : ℤ) : Option ℕ :=
  let newLocation := position + offset
  if newLocation < 0 ∨ view.text.length < newLocation then none
  else if 0 ≤ offset then some (view.increments composition offset.natAbs position)
  else some (view.decrements composition offset.natAbs position)

/-- `positionFromPosition:inDirection:offset:` -/
def positionInDirection (direction : UITextLayoutDirection) (offset : ℤ) : Option ℕ :=
  match direction with
  | .left | .up => view.positionFromPosition composition position (offset * -1)
  | .right | .down => view.positionFromPosition composition position 1

/-- `characterRangeByExtendingPosition:inDirection:` -/
def characterRangeByExtendingPosition (direction : UITextLayoutDirection) : NSRange :=
  match direction with
  | .left | .up =>
    let startIndex := view.decrementOffsetPosition composition position
    ⟨startIndex, nsUInteger (position - startIndex)⟩
  | .right | .down =>
    let endIndex := view.incrementOffsetPosition composition position
    ⟨position, nsUInteger (endIndex - position)⟩

end FlutterTextInputView

/-! ## Boundaries -/

/-- The position behind the first `k` characters, the end of the text if there are fewer. -/
def boundary (lengths : List ℕ) (k : ℕ) : ℕ := (lengths.take k).sum

section Boundaries

variable {lengths : List ℕ} {start index k : ℕ}

/-- Boundaries are within the text. -/
lemma boundary_le (k : ℕ) : boundary lengths k ≤ lengths.sum := by
  have hsum := congrArg List.sum (take_append_drop k lengths)
  rw [sum_append] at hsum
  rw [boundary]
  omega

/-- Boundaries are in order. -/
lemma boundary_mono {j : ℕ} (h : j ≤ k) : boundary lengths j ≤ boundary lengths k := by
  have hle : boundary (lengths.take k) j ≤ (lengths.take k).sum := boundary_le j
  rwa [boundary, take_take, Nat.min_eq_left h] at hle

/-- The last boundary is the end of the text. -/
lemma boundary_of_le (h : lengths.length ≤ k) : boundary lengths k = lengths.sum := by
  rw [boundary, take_of_length_le h]

/-- Characters are not empty. -/
lemma boundary_lt_succ (hpos : ∀ n ∈ lengths, 0 < n) (h : k < lengths.length) :
    boundary lengths k < boundary lengths (k + 1) := by
  have := hpos _ (getElem_mem h)
  rw [boundary, boundary, sum_take_succ _ k h]
  omega

/-- The sequence with an index between two neighbouring boundaries. -/
theorem sequenceAt_eq (hle : start + boundary lengths k ≤ index)
    (hlt : index < start + boundary lengths (k + 1)) :
    sequenceAt start lengths index =
      ⟨start + boundary lengths k, boundary lengths (k + 1) - boundary lengths k⟩ := by
  induction lengths generalizing start k with
  | nil =>
    simp only [boundary, take_nil, sum_nil] at hle hlt
    omega
  | cons n lengths ih =>
    rw [sequenceAt]
    cases k with
    | zero =>
      have hone : boundary (n :: lengths) 1 = n := by
        rw [boundary, take_succ_cons, take_zero, sum_singleton]
      rw [hone] at hlt ⊢
      rw [if_pos hlt]
      rfl
    | succ k =>
      have hcons : ∀ k, boundary (n :: lengths) (k + 1) = n + boundary lengths k := fun k => by
        rw [boundary, take_succ_cons, sum_cons, boundary]
      rw [hcons, hcons] at *
      have htail : sequenceAt (start + n) lengths index = ⟨start + n + boundary lengths k, _⟩ :=
        ih (by omega) (by omega)
      rw [if_neg (by omega), htail, NSRange.mk.injEq]
      omega

end Boundaries

namespace FlutterTextInputView

variable {composition : Composition} {view : FlutterTextInputView} {k : ℕ}

/-- The boundaries between the characters of the text. -/
def boundaryAt (composition : Composition) (view : FlutterTextInputView) : ℕ → ℕ :=
  boundary (composition.lengths view.text)

lemma boundaryAt_le (composition : Composition) (view : FlutterTextInputView) (k : ℕ) :
    view.boundaryAt composition k ≤ view.text.length :=
  Nat.le_trans (boundary_le k) (Nat.le_of_eq (composition.sum_eq view.text))

/-- The end of the text has been reached, or there is another character. -/
theorem boundaryAt_eq_or_lt (composition : Composition) (view : FlutterTextInputView) (k : ℕ) :
    (∀ n, k ≤ n → view.boundaryAt composition n = view.text.length) ∨
      view.boundaryAt composition k < view.boundaryAt composition (k + 1) := by
  rcases Nat.lt_or_ge k (composition.lengths view.text).length with hlt | hge
  · exact .inr (boundary_lt_succ (fun _ => composition.pos) hlt)
  · exact .inl fun n hn =>
      (boundary_of_le (Nat.le_trans hge hn)).trans (composition.sum_eq view.text)

/-- The character around an index. -/
lemma rangeForCharacterAtIndex_eq {index : ℕ} (hle : view.boundaryAt composition k ≤ index)
    (hlt : index < view.boundaryAt composition (k + 1)) :
    composition.rangeForCharacterAtIndex view.text index = ⟨view.boundaryAt composition k,
      view.boundaryAt composition (k + 1) - view.boundaryAt composition k⟩ := by
  have hlength := boundaryAt_le composition view (k + 1)
  rw [Composition.rangeForCharacterAtIndex, if_neg (by omega)]
  rw [boundaryAt] at *
  rw [sequenceAt_eq (by omega) (hlt.trans_eq (Nat.zero_add _).symm), Nat.zero_add]

section Size

variable (hsize : view.text.length < nsNotFound)
include hsize

lemma nsUInteger_of_le {n : ℕ} (h : n ≤ view.text.length) : nsUInteger n = n := by
  have hfits : nsNotFound < 2 ^ 64 := by decide
  exact nsUInteger_natCast (by omega)

/-- One character to the right. -/
lemma incrementOffsetPosition_boundaryAt (k : ℕ) :
    view.incrementOffsetPosition composition (view.boundaryAt composition k) =
      view.boundaryAt composition (k + 1) := by
  have hle := boundaryAt_le composition view (k + 1)
  rw [incrementOffsetPosition]
  rcases boundaryAt_eq_or_lt composition view k with hend | hlt
  · -- There is no character at the end of the text.
    rw [hend k (Nat.le_refl k), hend (k + 1) (Nat.le_succ k),
      Composition.rangeForCharacterAtIndex, if_pos (Nat.le_refl _), ← natCast_add,
      Nat.add_zero, nsUInteger_of_le hsize (Nat.le_refl _), Nat.min_self]
  · rw [rangeForCharacterAtIndex_eq (Nat.le_refl _) hlt, ← natCast_add,
      Nat.add_sub_cancel' (Nat.le_of_lt hlt), nsUInteger_of_le hsize hle, Nat.min_eq_left hle]

/-- One character to the left. -/
lemma decrementOffsetPosition_boundaryAt
    (hlt : view.boundaryAt composition k < view.boundaryAt composition (k + 1)) :
    view.decrementOffsetPosition composition (view.boundaryAt composition (k + 1)) =
      view.boundaryAt composition k := by
  have hle := boundaryAt_le composition view (k + 1)
  have hindex : max 0 (nsUInteger (view.boundaryAt composition (k + 1) - 1)) =
      view.boundaryAt composition (k + 1) - 1 := by
    rw [Nat.zero_max, ← Int.natCast_one, ← Int.natCast_sub (by omega),
      nsUInteger_of_le hsize (by omega)]
  rw [decrementOffsetPosition, hindex, rangeForCharacterAtIndex_eq (k := k) (by omega) (by omega)]

/-- So many characters to the right. -/
lemma increments_boundaryAt (n k : ℕ) :
    view.increments composition n (view.boundaryAt composition k) =
      view.boundaryAt composition (k + n) := by
  induction n generalizing k with
  | zero => rfl
  | succ n ih =>
    rw [increments]
    split
    · rw [incrementOffsetPosition_boundaryAt hsize, ih, Nat.add_right_comm, Nat.add_assoc]
    · next hend =>
      rcases boundaryAt_eq_or_lt composition view k with heq | hlt
      · rw [heq k (Nat.le_refl k), heq (k + (n + 1)) (Nat.le_add_right k _)]
      · exact absurd (Nat.lt_of_lt_of_le hlt (boundaryAt_le composition view (k + 1))) hend

/-- So many characters to the left. -/
lemma decrements_boundaryAt (n : ℕ) (hk : k ≤ (composition.lengths view.text).length) :
    view.decrements composition n (view.boundaryAt composition k) =
      view.boundaryAt composition (k - n) := by
  induction n generalizing k with
  | zero => rfl
  | succ n ih =>
    rw [decrements]
    cases k with
    | zero =>
      rw [Nat.zero_sub]
      exact if_neg (Nat.lt_irrefl 0)
    | succ k =>
      have hlt : view.boundaryAt composition k < view.boundaryAt composition (k + 1) :=
        boundary_lt_succ (fun _ => composition.pos) hk
      rw [if_pos (by omega), decrementOffsetPosition_boundaryAt hsize hlt, ih (by omega),
        Nat.add_sub_add_right]

/-- A range up to a position ends there. -/
lemma last_of_le {first last : ℕ} (hle : first ≤ last) (hlast : last ≤ view.text.length) :
    (⟨first, nsUInteger (last - first)⟩ : NSRange).last = last := by
  rw [NSRange.last, ← Int.natCast_sub hle, nsUInteger_of_le hsize (by omega),
    Nat.add_sub_cancel' hle]

end Size

/-! ## Moves -/

/-- A move to the right, or nothing at the end. -/
lemma positionFromPosition_natCast (hsize : view.text.length < nsNotFound) (n : ℕ) :
    view.positionFromPosition composition (view.boundaryAt composition k) n =
      if view.text.length < view.boundaryAt composition k + n then none
      else some (view.boundaryAt composition (k + n)) := by
  rw [positionFromPosition, if_pos (natCast_nonneg n), natAbs_natCast, increments_boundaryAt hsize]
  exact if_congr (by omega) rfl rfl

/-- The boundaries behind a character and behind `n` characters are the same only if `n` is one or
no character follows. -/
lemma boundaryAt_add_eq_iff {n : ℕ} (hn : 0 < n) :
    view.boundaryAt composition (k + 1) = view.boundaryAt composition (k + n) ↔
      n = 1 ∨ view.boundaryAt composition (k + 1) = view.text.length := by
  constructor
  · intro heq
    refine or_iff_not_imp_left.mpr fun hone => ?_
    rcases boundaryAt_eq_or_lt composition view (k + 1) with hend | hlt
    · exact hend (k + 1) (Nat.le_refl _)
    · have hmono : view.boundaryAt composition (k + 1 + 1) ≤ view.boundaryAt composition (k + n) :=
        boundary_mono (by omega)
      omega
  · rintro (rfl | hend)
    · rfl
    · rcases boundaryAt_eq_or_lt composition view (k + 1) with heq | hlt
      · rw [hend, heq (k + n) (by omega)]
      · have hle := boundaryAt_le composition view (k + 1 + 1)
        omega

/-- A move to the right by `n` from the position behind the first `k` characters is a move by one
character: `n` is one, or the position is the end of the text, or it is in front of the last
character, which has `n` or more units. -/
def RightAgrees (composition : Composition) (view : FlutterTextInputView) (k n : ℕ) : Prop :=
  0 < n ∧ (n = 1 ∨ view.boundaryAt composition k = view.text.length ∨
    view.boundaryAt composition (k + 1) = view.text.length ∧
      view.boundaryAt composition k + n ≤ view.text.length)

instance (composition : Composition) (view : FlutterTextInputView) (k n : ℕ) :
    Decidable (RightAgrees composition view k n) :=
  inferInstanceAs (Decidable (_ ∧ _))

/-- From the position behind the first `k` characters, moves by `n` end at the position `n`
characters further or nowhere. Moves to the left agree with them, and moves to the right exactly
where `RightAgrees`. The range from there to the next position lies inside the text exactly if it
is one to the right or there is a character on the left. -/
structure Moves (composition : Composition) (view : FlutterTextInputView) (k n : ℕ) : Prop where
  after : ∀ position ∈ view.positionFromPosition composition (view.boundaryAt composition k) n,
    position = view.boundaryAt composition (k + n)
  before : ∀ position ∈ view.positionFromPosition composition (view.boundaryAt composition k) (-n),
    position = view.boundaryAt composition (k - n)
  left : ∀ direction, direction.isForward = false →
    view.positionInDirection composition (view.boundaryAt composition k) direction n =
      view.positionFromPosition composition (view.boundaryAt composition k) (-n)
  right : ∀ direction, direction.isForward = true →
    (view.positionInDirection composition (view.boundaryAt composition k) direction n =
      view.positionFromPosition composition (view.boundaryAt composition k) n ↔
        RightAgrees composition view k n)
  extend : ∀ direction, (view.characterRangeByExtendingPosition composition
      (view.boundaryAt composition k) direction).last ≤ view.text.length ↔
    direction.isForward = true ∨ 0 < k

/-- Whether a move by one ends where a move by `n` does. -/
lemma positionFromPosition_one_eq_iff (hsize : view.text.length < nsNotFound) (n : ℕ) :
    view.positionFromPosition composition (view.boundaryAt composition k) 1 =
      view.positionFromPosition composition (view.boundaryAt composition k) n ↔
        RightAgrees composition view k n := by
  have hle := boundaryAt_le composition view k
  have hone : view.positionFromPosition composition (view.boundaryAt composition k) 1 =
      if view.text.length < view.boundaryAt composition k + 1 then none
      else some (view.boundaryAt composition (k + 1)) := positionFromPosition_natCast hsize 1
  rw [hone, positionFromPosition_natCast hsize, RightAgrees]
  rcases Nat.eq_zero_or_pos n with rfl | hn
  · -- A move by nothing stays, and a move by one never does.
    rw [if_neg (c := view.text.length < view.boundaryAt composition k + 0) (by omega)]
    refine iff_of_false ?_ (by omega)
    split
    · exact nofun
    · rcases boundaryAt_eq_or_lt composition view k with hend | hlt
      · have := hend k (Nat.le_refl k)
        omega
      · rw [Option.some.injEq]
        exact Nat.ne_of_gt hlt
  · split <;> split
    · exact iff_of_true rfl (by omega)
    · omega
    · refine iff_of_false nofun ?_
      omega
    · rw [Option.some.injEq, boundaryAt_add_eq_iff hn]
      omega

/-- A range from the start that ends inside is one to the right. -/
lemma isForward_of_last_le (hsize : view.text.length < nsNotFound)
    {direction : UITextLayoutDirection}
    (h : (view.characterRangeByExtendingPosition composition (view.boundaryAt composition 0)
      direction).last ≤ view.text.length) : direction.isForward = true := by
  cases direction with
  | right | down => rfl
  | left | up =>
    -- The index in front of the first position is the greatest one.
    have hindex : max 0 (nsUInteger ((0 : ℕ) - 1)) = 2 ^ 64 - 1 := by decide
    have hfits : nsNotFound < 2 ^ 64 - 1 := by decide
    have hstart : view.decrementOffsetPosition composition 0 = nsNotFound := by
      rw [decrementOffsetPosition, hindex, Composition.rangeForCharacterAtIndex,
        if_pos (by omega)]
    have hlast := Nat.le_trans (Nat.le_add_right _ _) h
    rw [show view.boundaryAt composition 0 = 0 from rfl, characterRangeByExtendingPosition,
      hstart] at hlast
    exact absurd hlast (Nat.not_le.mpr hsize)

/-- Moves to the left are right by any number of characters, moves to the right where one character
is as far, and ranges to the left where there is a character. -/
theorem moves (composition : Composition) (view : FlutterTextInputView) (k n : ℕ)
    (hsize : view.text.length < nsNotFound) (hk : k ≤ (composition.lengths view.text).length) :
    Moves composition view k n where
  after position h := by
    rw [positionFromPosition_natCast hsize] at h
    split at h
    · cases h
    · exact (Option.mem_some.mp h).symm
  before position h := by
    rw [positionFromPosition] at h
    split at h
    · cases h
    · cases n with
      | zero => exact (Option.mem_some.mp h).symm
      | succ n =>
        rw [if_neg (by omega), Int.natAbs_neg, Int.natAbs_natCast,
          decrements_boundaryAt hsize _ hk] at h
        exact (Option.mem_some.mp h).symm
  left direction hbackward := by
    rw [← Int.mul_neg_one]
    cases direction with
    | left | up => rfl
    | right | down => cases hbackward
  right direction hforward := by
    cases direction with
    | left | up => cases hforward
    | right | down => exact positionFromPosition_one_eq_iff hsize n
  extend direction := by
    have hle := boundaryAt_le composition view
    constructor
    · intro hlast
      refine or_iff_not_imp_right.mpr fun hzero => ?_
      rw [Nat.eq_zero_of_not_pos hzero] at hlast
      exact isForward_of_last_le hsize hlast
    intro h
    cases direction with
    | right | down =>
      have hmono : view.boundaryAt composition k ≤ view.boundaryAt composition (k + 1) :=
        boundary_mono (Nat.le_succ k)
      rw [characterRangeByExtendingPosition, incrementOffsetPosition_boundaryAt hsize,
        last_of_le hsize hmono (hle _)]
      exact hle _
    | left | up =>
      cases k with
      | zero => cases h <;> contradiction
      | succ k =>
        have hlt : view.boundaryAt composition k < view.boundaryAt composition (k + 1) :=
          boundary_lt_succ (fun _ => composition.pos) hk
        rw [characterRangeByExtendingPosition, decrementOffsetPosition_boundaryAt hsize hlt,
          last_of_le hsize (Nat.le_of_lt hlt) (hle _)]
        exact hle _

/-- In a text of three units, a move to the right by one agrees with the offset, one by two does
not. -/
theorem moves_three : Moves .units ⟨[97, 98, 99], ⟨0, 0⟩, none⟩ 1 1 ∧
    RightAgrees .units ⟨[97, 98, 99], ⟨0, 0⟩, none⟩ 1 1 ∧
    Moves .units ⟨[97, 98, 99], ⟨0, 0⟩, none⟩ 1 2 ∧
    ¬RightAgrees .units ⟨[97, 98, 99], ⟨0, 0⟩, none⟩ 1 2 :=
  ⟨moves .units ⟨[97, 98, 99], ⟨0, 0⟩, none⟩ 1 1 (by decide) (by decide), by decide,
    moves .units ⟨[97, 98, 99], ⟨0, 0⟩, none⟩ 1 2 (by decide) (by decide), by decide⟩

/-- A move to the right by two characters, and the range to the left of the first one. -/
theorem positionInDirection_right_two :
    let view : FlutterTextInputView := ⟨[97, 98, 99], ⟨0, 0⟩, none⟩
    view.positionInDirection .units 0 .right 2 = some 1 ∧
    view.positionFromPosition .units 0 2 = some 2 ∧
    view.text.length < (view.characterRangeByExtendingPosition .units 0 .left).location := by
  decide +kernel

end FlutterTextInputView

end Flutter
