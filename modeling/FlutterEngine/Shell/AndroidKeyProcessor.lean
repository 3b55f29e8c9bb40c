import Mathlib.Data.BitVec

/-!
# Dead keys on Android

A dead key is to be remembered without reporting a character, and to be combined with the next key.
`AndroidKeyProcessor` changes what it remembers at the release of a key as well, and it reports the
character of a dead key like any other. So what key presses report is what is documented exactly
when there is no dead key among them (`reports_eq_iff`).

Sending events to an input connection is left out.
-/

namespace Flutter.AndroidKeyProcessor

/-- `KeyCharacterMap.COMBINING_ACCENT` -/
def combiningAccent : BitVec 32 := 0x80000000

/-- `KeyCharacterMap.COMBINING_ACCENT_MASK` -/
def combiningAccentMask : BitVec 32 := 0x7fffffff

/-- The code point of a dead key. -/
def isDead (codePoint : BitVec 32) : Bool := codePoint &&& combiningAccent != 0

/-- What the key-down events of some key presses report, one after the other. -/
def reports {K C S : Type} (press : S → K → C × S) : S → List K → List C
  | _, [] => []
  | s, key :: keys => (press s key).1 :: reports press (press s key).2 keys

variable (getDeadChar : BitVec 32 → BitVec 32 → BitVec 32)

/-- `applyCombiningCharacterToBaseCharacter`, with `KeyCharacterMap.getDeadChar` as a parameter: the
character it returns, and the new `combiningCharacter`. -/
def applyCombiningCharacterToBaseCharacter (combiningCharacter newCharacterCodePoint : BitVec 32) :
    Option (BitVec 16) × BitVec 32 :=
  if newCharacterCodePoint = 0 then (none, combiningCharacter)
  else
    let complexCharacter := newCharacterCodePoint.setWidth 16
    if isDead newCharacterCodePoint then
      let plainCodePoint := newCharacterCodePoint &&& combiningAccentMask
      if combiningCharacter ≠ 0 then
        (some complexCharacter, getDeadChar combiningCharacter plainCodePoint)
      else
        (some complexCharacter, plainCodePoint)
    else if combiningCharacter ≠ 0 then
      let combinedChar := getDeadChar combiningCharacter newCharacterCodePoint
      (some (if 0 < combinedChar.toInt then combinedChar.setWidth 16 else complexCharacter), 0)
    else
      (some complexCharacter, combiningCharacter)

/-- `onKeyDown`, with the character it reports, and then `onKeyUp` for the same key. -/
def press (combiningCharacter codePoint : BitVec 32) : Option (BitVec 16) × BitVec 32 :=
  let (character, combiningCharacter) :=
    applyCombiningCharacterToBaseCharacter getDeadChar combiningCharacter codePoint
  (character,
    (applyCombiningCharacterToBaseCharacter getDeadChar combiningCharacter codePoint).2)

/-- What is documented for a key, given what is remembered. A key without a character reports
nothing and changes nothing. -/
def documented (remembered codePoint : BitVec 32) : Option (BitVec 16) × BitVec 32 :=
  if codePoint = 0 then (none, remembered)
  else if isDead codePoint then
    let accent := codePoint &&& combiningAccentMask
    (none, if remembered ≠ 0 then getDeadChar remembered accent else accent)
  else
    let combined := getDeadChar remembered codePoint
    (some ((if remembered ≠ 0 ∧ 0 < combined.toInt then combined else codePoint).setWidth 16), 0)

variable {getDeadChar} {codePoint : BitVec 32}

/-- With nothing remembered, other keys do what is documented, and nothing is remembered then. -/
theorem press_eq_documented (h : ¬isDead codePoint) :
    press getDeadChar 0 codePoint = documented getDeadChar 0 codePoint ∧
      (documented getDeadChar 0 codePoint).2 = 0 := by
  by_cases hzero : codePoint = 0#32
  · simp [press, documented, applyCombiningCharacterToBaseCharacter, hzero]
  · simp [press, documented, applyCombiningCharacterToBaseCharacter, hzero, h]

/-- A dead key reports its accent at once. -/
theorem press_ne_documented (h : isDead codePoint) (remembered : BitVec 32) :
    (press getDeadChar remembered codePoint).1 ≠
      (documented getDeadChar remembered codePoint).1 := by
  have hzero : codePoint ≠ 0 := by
    rintro rfl
    exact absurd h (by decide)
  simp only [press, documented, applyCombiningCharacterToBaseCharacter, hzero, h, if_true, if_false]
  split <;> exact nofun

/-- The key-down events of any key presses report what is documented if and only if no dead key is
pressed. -/
theorem reports_eq_iff (keys : List (BitVec 32)) :
    reports (press getDeadChar) 0 keys = reports (documented getDeadChar) 0 keys ↔
      ∀ key ∈ keys, ¬isDead key := by
  induction keys with
  | nil => exact iff_of_true rfl nofun
  | cons key keys ih =>
    rw [reports, reports, List.cons.injEq, List.forall_mem_cons]
    by_cases hdead : isDead key
    · exact iff_of_false (fun h => press_ne_documented hdead 0 h.1) fun h => h.1 hdead
    · obtain ⟨heq, hnone⟩ := @press_eq_documented getDeadChar _ hdead
      rw [heq, hnone, ih]
      exact and_congr_left' (iff_of_true rfl hdead)

/-- An acute accent and then an `e`: the accent is reported, its release drops what is remembered,
and the `e` stays without an accent. -/
theorem reports_acute :
    let getDeadChar (accent c : BitVec 32) := if accent = 0xb4 ∧ c = 0x65 then 0xe9 else 0
    reports (press getDeadChar) 0 [0x800000b4, 0x65] = [some 0xb4, some 0x65] ∧
      reports (documented getDeadChar) 0 [0x800000b4, 0x65] = [none, some 0xe9] := by
  decide

end Flutter.AndroidKeyProcessor
