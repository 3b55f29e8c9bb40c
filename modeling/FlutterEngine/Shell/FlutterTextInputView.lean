import FlutterEngine.Lib.Run
import Mathlib.Algebra.GroupWithZero.Nat
import Mathlib.Algebra.Ring.Int.Defs
import Mathlib.Data.Int.Order.Basic

/-!
# The text input view of iOS

`FlutterTextInputPlugin.mm`: a text of UTF-16 code units, the selected range and the range of the
marked text. Indices are of type `NSUInteger`, and `clampSelection` computes with `int`.

`replaceRange` moves the selection along with the text. It adds the length of the common part to the
location of the selection even where the selection begins in front of the replaced range, and where
the selection ends inside of that range it is not moved far enough.
`keepsSelection_replaceRange_iff` says exactly when it stays on its characters.

The affinity of the selection and the calls of the input delegate are left out.
-/

namespace Flutter

open Lib List Int

/-! ## Ranges -/

/-- The `NSUInteger` that the result of a computation is. -/
def nsUInteger (x : ℤ) : ℕ := (x % 2 ^ 64).toNat

/-- The `int` that an `NSUInteger` is assigned to. -/
def toInt (x : ℕ) : ℤ := if x % 2 ^ 32 < 2 ^ 31 then (x % 2 ^ 32 : ℕ) else (x % 2 ^ 32 : ℕ) - 2 ^ 32

/-- `NSNotFound` -/
def nsNotFound : ℕ := 2 ^ 63 - 1

structure NSRange where
  location : ℕ
  length : ℕ
deriving DecidableEq, Repr

namespace NSRange

/-- `NSMaxRange` -/
def last (range : NSRange) : ℕ := range.location + range.length

/-- The index is that of a character in the range. -/
def Covers (range : NSRange) (index : ℕ) : Prop := range.location ≤ index ∧ index < range.last

instance (range : NSRange) (index : ℕ) : Decidable (range.Covers index) :=
  inferInstanceAs (Decidable (_ ∧ _))

/-- `NSIntersectionRange` -/
def intersection (r s : NSRange) : NSRange :=
  let start := max r.location s.location
  if start < min r.last s.last then ⟨start, min r.last s.last - start⟩ else ⟨0, 0⟩

end NSRange

open NSRange

/-- `clampSelection:forText:` -/
def clampSelection (range : NSRange) (textLength : ℕ) : NSRange :=
  let start := toInt (min (max range.location 0) textLength)
  let length := toInt (min range.length (nsUInteger (textLength - start)))
  ⟨nsUInteger start, nsUInteger length⟩

/-- How texts are made of composed character sequences: any partition of each text. -/
structure Composition where
  /-- The numbers of code units of the sequences. -/
  lengths : List UInt16 → List ℕ
  pos : ∀ {text n}, n ∈ lengths text → 0 < n
  sum_eq : ∀ text, (lengths text).sum = text.length

/-- Every code unit is a character. -/
def Composition.units : Composition where
  lengths text := replicate text.length 1
  pos h := by
    rw [eq_of_mem_replicate h]
    exact Nat.one_pos
  sum_eq text := by rw [sum_replicate_nat, Nat.mul_one]

/-- The sequence with this index, where the first one starts at `start`. -/
def sequenceAt (start : ℕ) : List ℕ → ℕ → NSRange
  | [], _ => ⟨start, 0⟩
  | n :: lengths, index =>
    if index < start + n then ⟨start, n⟩ else sequenceAt (start + n) lengths index

namespace Composition

variable (composition : Composition) (text : List UInt16)

/-- `RangeForCharacterAtIndex` -/
def rangeForCharacterAtIndex (index : ℕ) : NSRange :=
  if text.length ≤ index then ⟨nsNotFound, 0⟩ else sequenceAt 0 (composition.lengths text) index

/-- `RangeForCharactersInRange` -/
def rangeForCharactersInRange (range : NSRange) : NSRange :=
  if text.length < nsUInteger (range.location + range.length) then ⟨nsNotFound, 0⟩
  -- The characters of a range that is empty at the end of the text begin there.
  else if range.location = text.length then range
  else ⟨(sequenceAt 0 (composition.lengths text) range.location).location, range.length⟩

end Composition

/-! ## The view -/

structure FlutterTextInputView where
  text : List UInt16
  selectedTextRange : NSRange
  markedTextRange : Option NSRange
deriving DecidableEq, Repr

/-- What is passed to `updateEditingClient`. -/
structure EditingState where
  text : List UInt16
  selectionBase : ℕ
  selectionExtent : ℕ
  composingBase : ℤ
  composingExtent : ℤ
deriving DecidableEq, Repr

namespace FlutterTextInputView

/-- `init` -/
def init : FlutterTextInputView := ⟨[], ⟨0, 0⟩, none⟩

variable (composition : Composition) (view : FlutterTextInputView)

/-- `updateEditingState` -/
def editingState : EditingState where
  text := view.text
  selectionBase := view.selectedTextRange.location
  selectionExtent := view.selectedTextRange.last
  composingBase := view.markedTextRange.elim (-1) fun range => range.location
  composingExtent := view.markedTextRange.elim (-1) fun range => range.last

/-- `setSelectedTextRange:updateEditingState:`, but for the update -/
def setSelectedTextRange (range : NSRange) : FlutterTextInputView :=
  { view with
    selectedTextRange :=
      if view.text ≠ [] then composition.rangeForCharactersInRange view.text range else range }

/-- `replaceCharactersInRange:withString:` -/
def replaceCharacters (text : List UInt16) (range : NSRange) (string : List UInt16) : List UInt16 :=
  text.take range.location ++ string ++ text.drop range.last

/-- The selection as `replaceRange` adjusts it, before it is clamped. -/
def adjustedSelection (selected replaced : NSRange) (length : ℕ) : NSRange :=
  let intersection := replaced.intersection selected
  let location :=
    if replaced.location ≤ selected.location then
      nsUInteger (selected.location + (length - replaced.length))
    else selected.location
  if intersection.location ≠ nsNotFound then
    ⟨nsUInteger (location + intersection.length), selected.length - intersection.length⟩
  else ⟨location, selected.length⟩

/-- `replaceRange:withText:`, but for the update of the editing state -/
def replaceRange (range : NSRange) (text : List UInt16) : FlutterTextInputView :=
  let selected := adjustedSelection view.selectedTextRange range text.length
  let newText := replaceCharacters view.text (clampSelection range view.text.length) text
  { view with text := newText }.setSelectedTextRange composition
    (clampSelection selected newText.length)

end FlutterTextInputView

/-! ## Numbers that fit -/

lemma nsUInteger_natCast {n : ℕ} (h : n < 2 ^ 64) : nsUInteger n = n := by
  rw [nsUInteger, emod_eq_of_lt (natCast_nonneg n) (by exact_mod_cast h), toNat_natCast]

lemma toInt_of_lt {n : ℕ} (h : n < 2 ^ 31) : toInt n = n := by
  rw [toInt, Nat.mod_eq_of_lt (by omega), if_pos h]

variable {textLength index : ℕ}

/-- In a text whose length is an `int`, `clampSelection` does what it says. -/
theorem clampSelection_eq (range : NSRange) (h : textLength < 2 ^ 31) :
    clampSelection range textLength =
      ⟨min range.location textLength,
        min range.length (textLength - min range.location textLength)⟩ := by
  have hstart : toInt (min (max range.location 0) textLength) =
      (min range.location textLength : ℕ) := by
    rw [Nat.max_zero, toInt_of_lt (by omega)]
  have hrest : nsUInteger (textLength - (min range.location textLength : ℕ)) =
      textLength - min range.location textLength := by
    rw [← ofNat_sub (Nat.min_le_right ..), nsUInteger_natCast (by omega)]
  rw [clampSelection, hstart, hrest, toInt_of_lt (by omega), nsUInteger_natCast (by omega),
    nsUInteger_natCast (by omega)]

lemma clampSelection_of_le {range : NSRange} (h : textLength < 2 ^ 31)
    (hle : range.last ≤ textLength) : clampSelection range textLength = range := by
  rw [last] at hle
  rw [clampSelection_eq range h, Nat.min_eq_left (by omega), Nat.min_eq_left (by omega)]

lemma last_clampSelection_le (range : NSRange) (h : textLength < 2 ^ 31) :
    (clampSelection range textLength).last ≤ textLength := by
  rw [clampSelection_eq range h]
  dsimp only [last]
  omega

/-- The sequence with an index begins at the index or in front of it. -/
theorem location_sequenceAt_le {start : ℕ} (lengths : List ℕ) (h : start ≤ index) :
    (sequenceAt start lengths index).location ≤ index := by
  induction lengths generalizing start with
  | nil => exact h
  | cons n lengths ih =>
    rw [sequenceAt]
    split
    · exact h
    · exact ih (by omega)

lemma sequenceAt_of_units {start : ℕ} {lengths : List ℕ} (hunits : ∀ n ∈ lengths, n = 1)
    (h : start ≤ index) (hlt : index < start + lengths.sum) :
    (sequenceAt start lengths index).location = index := by
  induction lengths generalizing start with
  | nil =>
    rw [sum_nil] at hlt
    omega
  | cons n lengths ih =>
    obtain ⟨hn, hunits'⟩ := forall_mem_cons.mp hunits
    rw [sum_cons] at hlt
    rw [sequenceAt]
    split
    · dsimp only
      omega
    · exact ih hunits' (by omega) (by omega)

namespace FlutterTextInputView

variable {composition : Composition} {view : FlutterTextInputView} {range : NSRange}
  {text : List UInt16}

/-- A selection that lies inside a text of single units is set as it is. -/
theorem setSelectedTextRange_of_units (hlast : range.last ≤ view.text.length)
    (hsize : view.text.length < 2 ^ 31) (hunits : ∀ n ∈ composition.lengths view.text, n = 1) :
    view.setSelectedTextRange composition range = { view with selectedTextRange := range } := by
  rw [last] at hlast
  rw [setSelectedTextRange]
  split
  · rw [Composition.rangeForCharactersInRange, ← natCast_add, nsUInteger_natCast (by omega),
      if_neg (by omega)]
    split
    · rfl
    · rw [sequenceAt_of_units hunits (Nat.zero_le _)]
      rw [composition.sum_eq]
      omega
  · rfl

/-! ## Replacing a range -/

/-- Where an index outside of the replaced range is afterwards. -/
def moved (range : NSRange) (length index : ℕ) : ℕ :=
  if index < range.location then index else index - range.length + length

/-- The replaced range has become the new text, and the selection covers the characters that it did
and that are still there. If it lay inside the replaced range, it is a caret behind the new text. -/
structure KeepsSelection (view : FlutterTextInputView) (range : NSRange) (text : List UInt16)
    (view' : FlutterTextInputView) : Prop where
  text_eq : view'.text = view.text.take range.location ++ text ++ view.text.drop range.last
  covers : ∀ index, view'.selectedTextRange.Covers index ↔
    ∃ index', view.selectedTextRange.Covers index' ∧ ¬range.Covers index' ∧
      index = moved range text.length index'
  inside : range.location ≤ view.selectedTextRange.location →
    view.selectedTextRange.last ≤ range.last →
      view'.selectedTextRange = ⟨range.location + text.length, 0⟩
  caret : view.selectedTextRange.length = 0 →
    ¬(range.location ≤ view.selectedTextRange.location ∧
      view.selectedTextRange.last ≤ range.last) →
      view'.selectedTextRange = ⟨moved range text.length view.selectedTextRange.location, 0⟩

/-- The exact condition for the selection to stay on its characters, in a text of `size` units. One
that begins in front of the range ends there too, or nothing is replaced by nothing. One that begins
no earlier than the range ends no earlier either, or else the range reaches to the end of the text,
and the new location, which is negative, becomes one behind the text and is clamped to its end. -/
def Adjusts (selected range : NSRange) (length size : ℕ) : Prop :=
  (selected.location < range.location ∧
    (selected.last ≤ range.location ∨ range.length = 0 ∧ length = 0)) ∨
  (range.location ≤ selected.location ∧
    (range.last ≤ selected.last ∨ range.last = size ∧ selected.last + length < range.length))

instance (selected range : NSRange) (length size : ℕ) :
    Decidable (Adjusts selected range length size) :=
  inferInstanceAs (Decidable (_ ∨ _))

/-- What is left of the selection, moved to where it is afterwards. -/
def keptSelection (selected range : NSRange) (length : ℕ) : NSRange :=
  if selected.location < range.location then selected
  else ⟨max selected.location range.last - range.length + length,
    selected.last - max selected.location range.last⟩

variable {selected : NSRange} {length size : ℕ}

/-- The length of what two ranges have in common. -/
lemma length_intersection (r s : NSRange) :
    (r.intersection s).length = min r.last s.last - max r.location s.location := by
  rw [intersection]
  split
  · rfl
  · dsimp only
    omega

/-- What two ranges have in common has a location, also if there is nothing. -/
lemma location_intersection_ne (hselected : selected.last < 2 ^ 31) :
    (range.intersection selected).location ≠ nsNotFound := by
  have hnotFound : nsNotFound = 9223372036854775807 := rfl
  rw [intersection]
  split
  · dsimp only [last] at *
    omega
  · decide

/-- The two adjustments of the location are taken modulo `2 ^ 64` as one. -/
lemma adjustedSelection_eq (hselected : selected.last < 2 ^ 31) :
    adjustedSelection selected range length =
      ⟨nsUInteger (selected.location +
          (if range.location ≤ selected.location then (length : ℤ) - range.length else 0) +
          (range.intersection selected).length),
        selected.length - (range.intersection selected).length⟩ := by
  rw [adjustedSelection, if_pos (location_intersection_ne hselected), NSRange.mk.injEq]
  refine ⟨?_, rfl⟩
  split
  · rw [nsUInteger, nsUInteger, nsUInteger]
    omega
  · rw [Int.add_zero]

/-- The text has the length that the replaced range and the new text leave it. -/
lemma length_replaceCharacters (text : List UInt16) (hrange : range.last ≤ view.text.length) :
    (replaceCharacters view.text range text).length =
      view.text.length - range.length + text.length := by
  rw [last] at hrange
  simp only [replaceCharacters, length_append, length_take, length_drop, last]
  omega

/-- The selection after `replaceRange`, in a text of single units. -/
theorem selectedTextRange_replaceRange (hselected : view.selectedTextRange.last ≤ view.text.length)
    (hrange : range.last ≤ view.text.length) (hsize : view.text.length + text.length < 2 ^ 31)
    (hunits : ∀ n ∈ composition.lengths (replaceCharacters view.text range text), n = 1) :
    view.replaceRange composition range text =
      { view with
        text := replaceCharacters view.text range text
        selectedTextRange :=
          clampSelection (adjustedSelection view.selectedTextRange range text.length)
            (view.text.length - range.length + text.length) } := by
  have hlength := length_replaceCharacters text hrange
  rw [replaceRange, clampSelection_of_le (by omega) hrange, hlength]
  refine setSelectedTextRange_of_units ?_ (by dsimp only; omega) hunits
  rw [hlength]
  exact last_clampSelection_le _ (by omega)

/-- Under the condition, the adjusted and clamped selection is what is left of the selection. -/
lemma clampSelection_adjustedSelection (hselected : selected.last ≤ size)
    (hrange : range.last ≤ size) (hsize : size + length < 2 ^ 31)
    (h : Adjusts selected range length size) :
    clampSelection (adjustedSelection selected range length) (size - range.length + length) =
      keptSelection selected range length := by
  rw [adjustedSelection_eq (by omega), clampSelection_eq _ (by omega), length_intersection,
    keptSelection]
  obtain ⟨a, l⟩ := selected
  obtain ⟨r, k⟩ := range
  simp only [Adjusts, last] at h hselected hrange
  simp only [last]
  rcases h with ⟨hlt, hfront⟩ | ⟨hge, hlast | ⟨hend, hshort⟩⟩
  · have hcommon : min (r + k) (a + l) - max r a = 0 := by omega
    rw [hcommon, if_neg (Nat.not_le.mpr hlt), if_pos hlt, Int.add_zero, ← natCast_add,
      nsUInteger_natCast (by omega), NSRange.mk.injEq]
    omega
  · have hcommon : min (r + k) (a + l) - max r a = r + k - a := by omega
    have hstart : (a : ℤ) + (length - k) + (r + k - a : ℕ) = (max a (r + k) - k + length : ℕ) := by
      omega
    rw [hcommon, if_pos hge, if_neg (Nat.not_lt.mpr hge), hstart, nsUInteger_natCast (by omega),
      NSRange.mk.injEq]
    omega
  · -- The selection lies inside the range: the location is negative before it is clamped.
    have hcommon : min (r + k) (a + l) - max r a = l := by omega
    rw [hcommon, if_pos hge, if_neg (Nat.not_lt.mpr hge), nsUInteger, NSRange.mk.injEq]
    omega

/-- The kept selection covers the characters that are still there. -/
theorem covers_keptSelection (h : Adjusts selected range length size) :
    (keptSelection selected range length).Covers index ↔ ∃ index',
      selected.Covers index' ∧ ¬range.Covers index' ∧ index = moved range length index' := by
  simp only [Adjusts, keptSelection, NSRange.Covers, last, moved] at h ⊢
  constructor
  · intro hindex
    split at hindex
    · refine ⟨index, hindex, by omega, ?_⟩
      split <;> omega
    · dsimp only at hindex
      refine ⟨index + range.length - length, by omega, by omega, ?_⟩
      rw [if_neg (by omega)]
      omega
  · rintro ⟨index', hindex', hnot, rfl⟩
    split
    · split <;> omega
    · dsimp only
      split <;> omega

/-- The selection stays on its characters exactly if it lies in front of the replaced range or
begins and ends no earlier, but for two ways in which the wrong computation has the right result. -/
theorem keepsSelection_replaceRange_iff (composition : Composition) (view : FlutterTextInputView)
    (range : NSRange) (text : List UInt16)
    (hselected : view.selectedTextRange.last ≤ view.text.length)
    (hrange : range.last ≤ view.text.length) (hsize : view.text.length + text.length < 2 ^ 31)
    (hunits : ∀ n ∈ composition.lengths (replaceCharacters view.text range text), n = 1) :
    KeepsSelection view range text (view.replaceRange composition range text) ↔
      Adjusts view.selectedTextRange range text.length view.text.length := by
  rw [selectedTextRange_replaceRange hselected hrange hsize hunits]
  constructor
  · rintro ⟨-, hcovers, hinside, -⟩
    dsimp only at hcovers hinside
    rw [adjustedSelection_eq (by omega), clampSelection_eq _ (by omega),
      length_intersection] at hcovers hinside
    simp only [Adjusts, NSRange.Covers, nsUInteger, moved, last] at *
    rcases Nat.lt_or_ge view.selectedTextRange.location range.location with hlt | hge
    · refine .inl ⟨hlt, or_iff_not_imp_left.mpr fun hbehind => ?_⟩
      -- The first selected character is still there, and so is the last one if nothing is replaced.
      have hfirst := (hcovers view.selectedTextRange.location).mpr
        ⟨view.selectedTextRange.location, by omega, by omega, by rw [if_pos hlt]⟩
      rw [if_neg (by omega)] at hfirst
      have hempty : range.length = 0 := by omega
      have hlast := (hcovers (view.selectedTextRange.location + view.selectedTextRange.length - 1 +
        text.length)).mpr ⟨view.selectedTextRange.location + view.selectedTextRange.length - 1,
          by omega, by omega, by rw [if_neg (by omega)]; omega⟩
      rw [if_neg (by omega)] at hlast
      omega
    · refine .inr ⟨hge, or_iff_not_imp_left.mpr fun hinner => ?_⟩
      have hcaret := hinside hge (by omega)
      rw [if_pos hge, NSRange.mk.injEq] at hcaret
      omega
  · intro hadjusts
    rw [clampSelection_adjustedSelection hselected hrange hsize hadjusts]
    refine ⟨rfl, fun _ => covers_keptSelection hadjusts, fun hle hlast => ?_, fun hzero hnot => ?_⟩
    · simp only [keptSelection, NSRange.last] at hlast ⊢
      rw [if_neg (Nat.not_lt.mpr hle), NSRange.mk.injEq]
      omega
    · simp only [Adjusts, keptSelection, NSRange.last, moved] at hadjusts hnot ⊢
      split
      · rw [← hzero]
      · rw [NSRange.mk.injEq]
        omega

/-- Six characters of which some are selected. -/
def sixCharacters (selected : NSRange) : FlutterTextInputView :=
  ⟨[97, 98, 99, 100, 101, 102], selected, none⟩

/-- A selection behind the replaced range, and one inside a range that is the whole text, stay on
their characters. -/
theorem keepsSelection_replaceRange_behind :
    KeepsSelection (sixCharacters ⟨3, 2⟩) ⟨1, 1⟩ [120, 121]
      ((sixCharacters ⟨3, 2⟩).replaceRange .units ⟨1, 1⟩ [120, 121]) ∧
    KeepsSelection (sixCharacters ⟨3, 0⟩) ⟨0, 6⟩ []
      ((sixCharacters ⟨3, 0⟩).replaceRange .units ⟨0, 6⟩ []) :=
  ⟨(keepsSelection_replaceRange_iff .units (sixCharacters ⟨3, 2⟩) ⟨1, 1⟩ [120, 121] (by decide)
      (by decide) (by decide) (by decide)).mpr (by decide),
    (keepsSelection_replaceRange_iff .units (sixCharacters ⟨3, 0⟩) ⟨0, 6⟩ [] (by decide)
      (by decide) (by decide) (by decide)).mpr (by decide)⟩

/-- When the end of the selection is deleted, the characters that follow it are selected instead of
the first ones. -/
theorem not_keepsSelection_overlap :
    (sixCharacters ⟨0, 4⟩).replaceRange .units ⟨2, 2⟩ [] = ⟨[97, 98, 101, 102], ⟨2, 2⟩, none⟩ ∧
    ¬KeepsSelection (sixCharacters ⟨0, 4⟩) ⟨2, 2⟩ []
      ((sixCharacters ⟨0, 4⟩).replaceRange .units ⟨2, 2⟩ []) := by
  have hafter : (sixCharacters ⟨0, 4⟩).replaceRange .units ⟨2, 2⟩ [] =
      ⟨[97, 98, 101, 102], ⟨2, 2⟩, none⟩ := by
    decide +kernel
  refine ⟨hafter, fun hkeeps => ?_⟩
  rw [hafter] at hkeeps
  have hfirst := (hkeeps.covers 0).mpr ⟨0, by decide, by decide, rfl⟩
  exact absurd hfirst.1 (by decide)

end FlutterTextInputView

end Flutter
