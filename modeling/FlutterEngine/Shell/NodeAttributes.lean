import Mathlib.Data.Nat.Basic
import Mathlib.Order.Bounds.Defs

/-!
# The label of a semantics node on Fuchsia

`GetNodeAttributes` cuts a label that is too long for Fuchsia after a number of bytes, wherever that
is. What it sends is the longest text that starts the label and fits exactly when the cut is not
inside of a character (`longestValid_iff_cut`).
-/

namespace FlutterRunner.AccessibilityBridge

/-- `GetNodeAttributes` for a node with the given label: the label that is sent, and the new
`added_size`. The value of `MAX_LABEL_SIZE` is a parameter. -/
def getNodeAttributes (maxLabelSize : ℕ) (label : ByteArray) (addedSize : ℕ) : ByteArray × ℕ :=
  if maxLabelSize < label.size then (label.extract 0 maxLabelSize, addedSize + maxLabelSize)
  else (label, addedSize + label.size)

/-- What is sent is the longest start of the label that is valid UTF-8 and not too long. -/
def LongestValid (maxLabelSize : ℕ) (label sent : ByteArray) : Prop :=
  ∃ size, sent = label.extract 0 size ∧
    IsGreatest {n | n ≤ min maxLabelSize label.size ∧ (label.extract 0 n).IsValidUTF8} size

variable {maxLabelSize : ℕ}

lemma getNodeAttributes_eq (label : ByteArray) (addedSize : ℕ) :
    getNodeAttributes maxLabelSize label addedSize =
      (label.extract 0 (min maxLabelSize label.size),
        addedSize + min maxLabelSize label.size) := by
  unfold getNodeAttributes
  split
  · next h => rw [Nat.min_eq_left (Nat.le_of_lt h)]
  · next h => rw [Nat.min_eq_right (not_lt.mp h), ByteArray.extract_zero_size]

/-- As many bytes as possible are sent, so the only question is whether they are valid. -/
theorem longestValid_iff {label : ByteArray} :
    LongestValid maxLabelSize label (label.extract 0 (min maxLabelSize label.size)) ↔
      (label.extract 0 (min maxLabelSize label.size)).IsValidUTF8 := by
  constructor
  · rintro ⟨size, hsent, hgreatest⟩
    rw [hsent]
    exact hgreatest.1.2
  · intro hvalid
    exact ⟨_, rfl, ⟨le_rfl, hvalid⟩, fun n hn => hn.1⟩

/-- For a label that is a text, what is sent is the longest text that starts it and fits if and only
if it is cut, if at all, before the first byte of a character. The accounted size covers it. -/
theorem longestValid_iff_cut (maxLabelSize : ℕ) (label : String) (addedSize : ℕ) :
    let (sent, size) := getNodeAttributes maxLabelSize label.toByteArray addedSize
    (LongestValid maxLabelSize label.toByteArray sent ↔
      ∀ h : maxLabelSize < label.utf8ByteSize,
        (label.getUTF8Byte ⟨maxLabelSize⟩ h).IsUTF8FirstByte) ∧
      addedSize + sent.size ≤ size := by
  rw [getNodeAttributes_eq]
  refine ⟨longestValid_iff.trans ?_, ?_⟩
  · have hpos : String.Pos.Raw.IsValid label ⟨min maxLabelSize label.utf8ByteSize⟩ ↔
        (label.toByteArray.extract 0 (min maxLabelSize label.utf8ByteSize)).IsValidUTF8 := by
      rw [String.Pos.Raw.isValid_iff_isValidUTF8_extract_zero]
      exact and_iff_right (Nat.min_le_right ..)
    rw [String.size_toByteArray, ← hpos, String.Pos.Raw.isValid_iff_isUTF8FirstByte]
    rcases lt_or_ge maxLabelSize label.utf8ByteSize with hlt | hge
    · rw [Nat.min_eq_left (Nat.le_of_lt hlt)]
      constructor
      · rintro (hend | ⟨_, hfirst⟩) h
        · exact absurd (congrArg String.Pos.Raw.byteIdx hend) (Nat.ne_of_lt hlt)
        · exact hfirst
      · exact fun hfirst => .inr ⟨hlt, hfirst hlt⟩
    · rw [Nat.min_eq_right hge]
      exact iff_of_true (.inl rfl) fun h => absurd h (not_lt.mpr hge)
  · simp

/-- The only character of a label is cut into two halves, and the first half is sent. -/
theorem not_longestValid_cut :
    ¬LongestValid 1 "é".toByteArray (getNodeAttributes 1 "é".toByteArray 0).1 := by
  rw [getNodeAttributes_eq, longestValid_iff, ← ByteArray.isSome_utf8Decode?_iff]
  decide

end FlutterRunner.AccessibilityBridge
