import Mathlib.Data.Nat.Basic

/-!
# UTF-8 and UTF-16

A text is a list of characters. Programs hold it as bytes (`utf8`) or as 16-bit code units
(`utf16`), where a list of code units may also contain lone surrogates, which stand for nothing.

* `utf8Decode?_utf8` and `utf8_of_utf8Decode?`: bytes that are a text determine it.
* `utf16Decode_utf16`: so do code units.
* `exists_utf16_take_drop`: a text can be cut wherever no pair of surrogates is split.
* `transcode` encodes code units as UTF-8, with a replacement for lone surrogates;
  `transcode_utf16` says that texts need none.
-/

namespace Lib

open List Nat Bool UInt16

/-! ## UTF-8 -/

variable (s : List Char)

/-- The bytes of a text. -/
def utf8 : List UInt8 := s.flatMap String.utf8EncodeChar

/-- The text with the given bytes, if there is one. -/
def utf8Decode? (bytes : List UInt8) : Option (List Char) :=
  bytes.toByteArray.utf8Decode?.map Array.toList

lemma toByteArray_utf8 : (utf8 s).toByteArray = s.utf8Encode := rfl

/-- What is encoded is decoded. -/
lemma utf8Decode?_utf8 : utf8Decode? (utf8 s) = some s := by
  rw [utf8Decode?, toByteArray_utf8, utf8Decode?_utf8Encode]
  rfl

/-- Characters are determined by their encoding. -/
lemma utf8_injective : Function.Injective utf8 := by
  intro s t h
  have hs := utf8Decode?_utf8 s
  rw [h, utf8Decode?_utf8] at hs
  exact (Option.some.inj hs).symm

/-- What is decoded is encoded. -/
lemma utf8_of_utf8Decode? {bytes : List UInt8} {s : List Char} (h : utf8Decode? bytes = some s) :
    utf8 s = bytes := by
  obtain ⟨a, ha, rfl⟩ := Option.map_eq_some_iff.mp h
  have hvalid : bytes.toByteArray.IsValidUTF8 := by
    rw [← ByteArray.isSome_utf8Decode?_iff, ha]
    rfl
  obtain ⟨t, ht⟩ := hvalid
  rw [ht, utf8Decode?_utf8Encode, Option.some.injEq] at ha
  subst ha
  rw [← toByteArray_utf8] at ht
  have hlist := congrArg (fun b : ByteArray => b.data.toList) ht
  simpa using hlist.symm

/-! ## UTF-16 -/

/-- The code units of a character: one, or a pair of surrogates. -/
def utf16Char (c : Char) : List UInt16 :=
  if c.toNat < 0x10000 then [ofNat c.toNat]
  else [ofNat (0xd800 + (c.toNat - 0x10000) / 0x400), ofNat (0xdc00 + (c.toNat - 0x10000) % 0x400)]

/-- The code units of a text. -/
def utf16 : List UInt16 := s.flatMap utf16Char

lemma utf16_append (s t : List Char) : utf16 (s ++ t) = utf16 s ++ utf16 t := flatMap_append

/-- The first half of a pair of surrogates. -/
def isHighSurrogate (u : UInt16) : Bool := 0xd800 ≤ u.toNat && u.toNat < 0xdc00

/-- The second half of a pair of surrogates. -/
def isLowSurrogate (u : UInt16) : Bool := 0xdc00 ≤ u.toNat && u.toNat < 0xe000

/-- The index `i` is between the two halves of a pair of surrogates. -/
def SplitsPair (units : List UInt16) (i : ℕ) : Prop :=
  ∃ u w, 0 < i ∧ units[i - 1]? = some u ∧ units[i]? = some w ∧ isHighSurrogate u = true ∧
    isLowSurrogate w = true

/-- The character of a code unit that is not part of a pair, unless it is a lone surrogate. -/
def ofUnit (u : UInt16) : Option Char :=
  if isHighSurrogate u || isLowSurrogate u then none else some (Char.ofNat u.toNat)

/-- The character of a pair of surrogates. -/
def ofSurrogates (u w : UInt16) : Char :=
  Char.ofNat (0x10000 + (u.toNat - 0xd800) * 0x400 + (w.toNat - 0xdc00))

/-- The characters of a list of code units, and `none` for each lone surrogate. -/
def utf16Decode : List UInt16 → List (Option Char)
  | [] => []
  | [u] => [ofUnit u]
  | u :: w :: us =>
    if isHighSurrogate u && isLowSurrogate w then some (ofSurrogates u w) :: utf16Decode us
    else ofUnit u :: utf16Decode (w :: us)

/-- A unit that starts no pair. -/
lemma utf16Decode_cons {u : UInt16} (hu : isHighSurrogate u = false) (us : List UInt16) :
    utf16Decode (u :: us) = ofUnit u :: utf16Decode us := by
  cases us with
  | nil => rfl
  | cons w us => rw [utf16Decode, hu, Bool.false_and, if_neg Bool.false_ne_true]

/-- No character lies in the range of the surrogates. -/
theorem toNat_lt_or_ge (c : Char) : c.toNat < 0xd800 ∨ 0xe000 ≤ c.toNat ∧ c.toNat < 0x110000 := by
  rcases c.valid with h | ⟨h, h'⟩
  · exact .inl h
  · exact .inr ⟨h, h'⟩

/-- A character of the basic plane has one code unit. -/
theorem utf16Char_eq_singleton {c : Char} (h : c.toNat < 0x10000) :
    ∃ u, utf16Char c = [u] ∧ u.toNat = c.toNat := by
  refine ⟨_, if_pos h, ?_⟩
  rw [toNat_ofNat', mod_eq_of_lt h]

/-- A character outside of the basic plane has a pair of surrogates. -/
theorem utf16Char_eq_pair {c : Char} (h : 0x10000 ≤ c.toNat) :
    ∃ u w, utf16Char c = [u, w] ∧ isHighSurrogate u = true ∧ isLowSurrogate w = true := by
  have hvalid := toNat_lt_or_ge c
  refine ⟨_, _, if_neg (not_lt.mpr h), ?_, ?_⟩
  · rw [isHighSurrogate, toNat_ofNat', mod_eq_of_lt (by omega)]
    simp only [and_eq_true, decide_eq_true_eq]
    omega
  · rw [isLowSurrogate, toNat_ofNat', mod_eq_of_lt (by omega)]
    simp only [and_eq_true, decide_eq_true_eq]
    omega

/-- A character is decoded from its units. -/
lemma utf16Decode_utf16Char_append (c : Char) (us : List UInt16) :
    utf16Decode (utf16Char c ++ us) = some c :: utf16Decode us := by
  have hvalid := toNat_lt_or_ge c
  unfold utf16Char
  split
  · next h =>
    have hunit : (UInt16.ofNat c.toNat).toNat = c.toNat := by rw [toNat_ofNat', mod_eq_of_lt h]
    have hhigh : isHighSurrogate (UInt16.ofNat c.toNat) = false := by
      rw [isHighSurrogate, hunit]
      simp only [and_eq_false_iff, decide_eq_false_iff_not]
      omega
    have hlow : isLowSurrogate (UInt16.ofNat c.toNat) = false := by
      rw [isLowSurrogate, hunit]
      simp only [and_eq_false_iff, decide_eq_false_iff_not]
      omega
    rw [singleton_append, utf16Decode_cons hhigh, ofUnit, hhigh, hlow, hunit, Char.ofNat_toNat]
    rfl
  · next h =>
    -- A character above 0xffff is `0x10000` plus twenty bits, ten in each surrogate.
    have hrange : c.toNat - 0x10000 < 0x400 * 0x400 := by omega
    have hu : (UInt16.ofNat (0xd800 + (c.toNat - 0x10000) / 0x400)).toNat =
        0xd800 + (c.toNat - 0x10000) / 0x400 := by
      rw [toNat_ofNat', mod_eq_of_lt (by omega)]
    have hw : (UInt16.ofNat (0xdc00 + (c.toNat - 0x10000) % 0x400)).toNat =
        0xdc00 + (c.toNat - 0x10000) % 0x400 := by
      rw [toNat_ofNat', mod_eq_of_lt (by omega)]
    have hpair : ofSurrogates (UInt16.ofNat (0xd800 + (c.toNat - 0x10000) / 0x400))
        (UInt16.ofNat (0xdc00 + (c.toNat - 0x10000) % 0x400)) = c := by
      have hsum : 0x10000 + (0xd800 + (c.toNat - 0x10000) / 0x400 - 0xd800) * 0x400 +
          (0xdc00 + (c.toNat - 0x10000) % 0x400 - 0xdc00) = c.toNat := by omega
      rw [ofSurrogates, hu, hw, hsum, Char.ofNat_toNat]
    rw [cons_append, singleton_append, utf16Decode, hpair, if_pos]
    rw [isHighSurrogate, isLowSurrogate, hu, hw]
    simp only [and_eq_true, decide_eq_true_eq]
    omega

/-- What is encoded is decoded. -/
lemma utf16Decode_utf16 : utf16Decode (utf16 s) = s.map some := by
  induction s with
  | nil => rfl
  | cons c s ih => rw [utf16, flatMap_cons, utf16Decode_utf16Char_append, ← utf16, ih, map_cons]

/-- A pair that is split behind some text. -/
lemma SplitsPair.append_left {units : List UInt16} {i : ℕ} (h : SplitsPair units i)
    (before : List UInt16) : SplitsPair (before ++ units) (before.length + i) := by
  obtain ⟨u, w, hi, hu, hw, hhigh, hlow⟩ := h
  refine ⟨u, w, by omega, ?_, ?_, hhigh, hlow⟩
  · rw [Nat.add_sub_assoc hi, getElem?_append_right (Nat.le_add_right _ _),
      Nat.add_sub_cancel_left, hu]
  · rw [getElem?_append_right (Nat.le_add_right _ _), Nat.add_sub_cancel_left, hw]

/-- An index that does not split a pair of surrogates is one between two texts. -/
theorem exists_utf16_take_drop {s : List Char} {i : ℕ} (h : ¬SplitsPair (utf16 s) i) :
    ∃ l r, (utf16 s).take i = utf16 l ∧ (utf16 s).drop i = utf16 r := by
  induction s generalizing i with
  | nil => exact ⟨[], [], take_nil, List.drop_nil⟩
  | cons c s ih =>
    have hcons : utf16 (c :: s) = utf16Char c ++ utf16 s := flatMap_cons
    rw [hcons] at h ⊢
    rcases lt_or_ge i (utf16Char c).length with hlt | hge
    · -- Inside of the first character, only its beginning does not split a pair.
      have hzero : i = 0 := by
        rcases lt_or_ge c.toNat 0x10000 with hc | hc
        · obtain ⟨u, hu, -⟩ := utf16Char_eq_singleton hc
          rw [hu, length_singleton] at hlt
          omega
        · obtain ⟨u, w, huw, hhigh, hlow⟩ := utf16Char_eq_pair hc
          rw [huw] at h hlt
          match i, hlt with
          | 0, _ => rfl
          | 1, _ => exact absurd ⟨u, w, Nat.one_pos, rfl, rfl, hhigh, hlow⟩ h
      exact ⟨[], c :: s, by rw [hzero, take_zero]; rfl, by rw [hzero, drop_zero, hcons]⟩
    · obtain ⟨l, r, hl, hr⟩ := ih (i := i - (utf16Char c).length) fun hsplits => h (by
        rw [← Nat.add_sub_cancel' hge]
        exact hsplits.append_left _)
      refine ⟨c :: l, r, ?_, ?_⟩
      · rw [take_append, take_of_length_le hge, hl]
        rfl
      · rw [drop_append, drop_eq_nil_of_le hge, List.nil_append, hr]

/-! ## From UTF-16 to UTF-8 -/

/-- The UTF-8 encoding of code units, with `replacement` for every lone surrogate. -/
def transcode (replacement : List UInt8) (units : List UInt16) : List UInt8 :=
  (utf16Decode units).flatMap fun c => (c.map String.utf8EncodeChar).getD replacement

/-- Whole characters are transcoded. -/
lemma transcode_utf16 (replacement : List UInt8) (s : List Char) :
    transcode replacement (utf16 s) = utf8 s := by
  rw [transcode, utf16Decode_utf16, flatMap_map]
  rfl

end Lib
