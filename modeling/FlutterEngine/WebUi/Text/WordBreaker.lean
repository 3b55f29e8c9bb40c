import FlutterEngine.WebUi.Text.WordBreakProperties

/-!
# Word boundaries

`WordBreaker` decides at each code unit whether a word ends there. It works on the word break
properties of code units, and looks past characters with the properties `Extend`, `Format` and `ZWJ`
to the left and to the right.

* `nextBreakIndex_spec` and `prevBreakIndex_spec` say that the two searches find the nearest
  boundary.
-/

namespace WebUi

open Nat

/-- `getCharProperty`, which is `null` outside of the text. -/
def getCharProperty (text : List UInt16) (index : ℕ) : Option CharProperty := do
  let unit ← text[index]?
  lookup.find unit.toNat

namespace WordBreaker

variable {text : List UInt16} {index i : ℕ}

/-- `_isUtf16Surrogate` -/
def isUtf16Surrogate (value : UInt16) : Bool := value &&& 0xf800 = 0xd800

/-- `_oneOf` -/
def oneOf (value : Option CharProperty) (choices : List CharProperty) : Bool :=
  choices.any fun choice => value = some choice

/-- `_isAHLetter` -/
def isAHLetter (property : Option CharProperty) : Bool := oneOf property [.aLetter, .hebrewLetter]

/-- Whether a loop over `Extend`, `Format` and `ZWJ` goes on. -/
def isIgnored (property : Option CharProperty) : Bool := oneOf property [.extend, .format, .zwj]

/-- The loop that collapses the characters in front of an index, of which `n` are left. It returns
the index of `immediateLeft`, unless it reaches the beginning of the text. -/
def collapseLeft (text : List UInt16) : ℕ → Option ℕ
  | 0 => none
  | n + 1 => if isIgnored (getCharProperty text n) then collapseLeft text n else some n

/-- The loop that finds `nextLeft` among the first `n` characters. -/
def nextLeft (text : List UInt16) : ℕ → Option CharProperty
  | 0 => none
  | n + 1 => if isIgnored (getCharProperty text n) then nextLeft text n else getCharProperty text n

/-- The loop that finds `nextRight` among the last `n` characters. -/
def nextRight (text : List UInt16) : ℕ → Option CharProperty
  | 0 => none
  | n + 1 =>
    if isIgnored (getCharProperty text (text.length - (n + 1))) then nextRight text n
    else getCharProperty text (text.length - (n + 1))

/-- `_isBreak` -/
def isBreak (text : List UInt16) (index : ℕ) : Bool :=
  -- WB1, WB2
  if index = 0 ∨ text.length ≤ index then true
  else if text[index - 1]?.any isUtf16Surrogate then false
  else
    let immediateRight := getCharProperty text index
    let immediateLeft := getCharProperty text (index - 1)
    -- WB3
    if immediateLeft = some .cr ∧ immediateRight = some .lf then false
    -- WB3a
    else if oneOf immediateLeft [.newline, .cr, .lf] then true
    -- WB3b
    else if oneOf immediateRight [.newline, .cr, .lf] then true
    -- WB3d
    else if immediateLeft = some .wSegSpace ∧ immediateRight = some .wSegSpace then false
    -- WB4
    else if isIgnored immediateRight then false
    else
      match collapseLeft text index with
      | none => true
      | some left =>
        let immediateLeft := getCharProperty text left
        -- WB5
        if isAHLetter immediateLeft ∧ isAHLetter immediateRight then false
        else
          let nextRight := nextRight text (text.length - (index + 1))
          let nextLeft := nextLeft text left
          -- WB6
          if isAHLetter immediateLeft ∧
              oneOf immediateRight [.midLetter, .midNumLet, .singleQuote] ∧
              isAHLetter nextRight then false
          -- WB7
          else if isAHLetter nextLeft ∧
              oneOf immediateLeft [.midLetter, .midNumLet, .singleQuote] ∧
              isAHLetter immediateRight then false
          -- WB7a
          else if immediateLeft = some .hebrewLetter ∧ immediateRight = some .singleQuote then false
          -- WB7b
          else if immediateLeft = some .hebrewLetter ∧ immediateRight = some .doubleQuote ∧
              nextRight = some .hebrewLetter then false
          -- WB7c
          else if nextLeft = some .hebrewLetter ∧ immediateLeft = some .doubleQuote ∧
              immediateRight = some .hebrewLetter then false
          -- WB8
          else if immediateLeft = some .numeric ∧ immediateRight = some .numeric then false
          -- WB9
          else if isAHLetter immediateLeft ∧ immediateRight = some .numeric then false
          -- WB10
          else if immediateLeft = some .numeric ∧ isAHLetter immediateRight then false
          -- WB11
          else if nextLeft = some .numeric ∧
              oneOf immediateLeft [.midNum, .midNumLet, .singleQuote] ∧
              immediateRight = some .numeric then false
          -- WB12
          else if immediateLeft = some .numeric ∧
              oneOf immediateRight [.midNum, .midNumLet, .singleQuote] ∧
              nextRight = some .numeric then false
          -- WB13
          else if immediateLeft = some .katakana ∧ immediateRight = some .katakana then false
          -- WB13a
          else if oneOf immediateLeft
                [.aLetter, .hebrewLetter, .numeric, .katakana, .extendNumLet] ∧
              immediateRight = some .extendNumLet then false
          -- WB13b
          else if immediateLeft = some .extendNumLet ∧
              oneOf immediateRight [.aLetter, .hebrewLetter, .numeric, .katakana] then false
          -- WB999
          else true

/-! ## Searching for a boundary -/

/-- The loop of `_findBreakIndex` forward, in which at most `rounds` indices are left. -/
def findBreakForward (text : List UInt16) : ℕ → ℕ → ℕ
  | 0, i => i
  | rounds + 1, i => if isBreak text (i + 1) then i + 1 else findBreakForward text rounds (i + 1)

/-- The loop of `_findBreakIndex` backward. -/
def findBreakBackward (text : List UInt16) : ℕ → ℕ
  | 0 => 0
  | i + 1 => if isBreak text i then i else findBreakBackward text i

/-- `nextBreakIndex` -/
def nextBreakIndex (text : List UInt16) (index : ℕ) : ℕ :=
  findBreakForward text (text.length - index) index

/-- `prevBreakIndex` -/
def prevBreakIndex (text : List UInt16) (index : ℕ) : ℕ :=
  if index ≤ text.length then findBreakBackward text index else index

lemma isBreak_zero (text : List UInt16) : isBreak text 0 = true := by
  rw [isBreak, if_pos (.inl rfl)]

lemma isBreak_length (text : List UInt16) : isBreak text text.length = true := by
  rw [isBreak, if_pos (.inr (le_refl _))]

/-- The next boundary after an index. -/
theorem nextBreakIndex_spec (h : index < text.length) :
    index < nextBreakIndex text index ∧ nextBreakIndex text index ≤ text.length ∧
      isBreak text (nextBreakIndex text index) = true ∧
      ∀ j, index < j → j < nextBreakIndex text index → isBreak text j = false := by
  have hloop : ∀ rounds i, i + rounds = text.length → 0 < rounds →
      i < findBreakForward text rounds i ∧ findBreakForward text rounds i ≤ text.length ∧
        isBreak text (findBreakForward text rounds i) = true ∧
        ∀ j, i < j → j < findBreakForward text rounds i → isBreak text j = false := by
    intro rounds
    induction rounds with
    | zero => exact fun i _ hpos => absurd hpos (lt_irrefl 0)
    | succ rounds ih =>
      intro i hi _
      rw [findBreakForward]
      split
      · next hbreak => exact ⟨lt_succ_self i, by omega, hbreak, fun j hj hj' => by omega⟩
      · next hbreak =>
        rcases Nat.eq_zero_or_pos rounds with rfl | hpos
        · rw [show i + 1 = text.length by omega, isBreak_length] at hbreak
          exact absurd rfl hbreak
        · obtain ⟨hlt, hle, hnext, hnone⟩ := ih (i + 1) (by omega) hpos
          refine ⟨by omega, hle, hnext, fun j hj hj' => ?_⟩
          rcases Nat.lt_or_eq_of_le (Nat.succ_le_of_lt hj) with hlt' | rfl
          · exact hnone j hlt' hj'
          · exact Bool.eq_false_iff.mpr hbreak
  exact hloop _ index (Nat.add_sub_of_le (le_of_lt h)) (Nat.sub_pos_of_lt h)

/-- The last boundary in front of an index. -/
theorem prevBreakIndex_spec (hpos : 0 < index) (h : index ≤ text.length) :
    prevBreakIndex text index < index ∧ isBreak text (prevBreakIndex text index) = true ∧
      ∀ j, prevBreakIndex text index < j → j < index → isBreak text j = false := by
  rw [prevBreakIndex, if_pos h]
  clear h
  induction index with
  | zero => exact absurd hpos (lt_irrefl 0)
  | succ i ih =>
    rw [findBreakBackward]
    split
    · next hbreak => exact ⟨lt_succ_self i, hbreak, fun j hj hj' => by omega⟩
    · next hbreak =>
      rcases Nat.eq_zero_or_pos i with rfl | hpos
      · exact absurd (isBreak_zero text) hbreak
      · obtain ⟨hlt, hprev, hnone⟩ := ih hpos
        refine ⟨by omega, hprev, fun j hj hj' => ?_⟩
        rcases lt_or_eq_of_le (le_of_lt_succ hj') with hlt' | rfl
        · exact hnone j hj hlt'
        · exact Bool.eq_false_iff.mpr hbreak

end WordBreaker

end WebUi
