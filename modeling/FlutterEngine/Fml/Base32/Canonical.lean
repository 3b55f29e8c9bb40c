import FlutterEngine.Fml.Base32.RoundTrip

/-!
# Base32 names

`Base32Decode` accepts each string of the encoding whose bits behind the last whole byte are zero.
There may be up to seven of them, but `Base32Encode` leaves at most four. Thus a name is the one
that is written for its key exactly if its last character is needed
(`base32EncodeUnsigned_base32Decode`).
-/

namespace Fml

open Lib List Option Nat BitConverter

variable {c : UInt8} {input t s : List UInt8} {values : List ℕ}

/-- A character that is decoded is one of the encoding. -/
lemma encodes_of_decodeChar {value : ℤ} (h : decodeChar c = some value) : ∃ v, Encodes c v := by
  have hall : ∀ n : Fin (2 ^ 8), decodeChar (UInt8.ofFin n) ≠ none →
      UInt8.ofFin n ∈ kEncoding := by decide +kernel
  have hmem : c ∈ kEncoding := hall c.toFin (fun hnone => by cases hnone.symm.trans h)
  exact mem_iff_getElem?.mp hmem

/-- If the loop is not left early, then each character has been decoded. -/
lemma encodes_of_decodeLoop {converter converter' : Base32DecodeConverter} {result : List UInt8}
    (h : decodeLoop converter result input = some (some converter', s)) :
    ∃ values, List.Forall₂ Encodes input values := by
  induction input generalizing converter result with
  | nil => exact ⟨[], .nil⟩
  | cons c input ih =>
    rw [decodeLoop] at h
    cases hchar : decodeChar c with
    | none => simp [hchar] at h
    | some value =>
      obtain ⟨v, hv⟩ := encodes_of_decodeChar hchar
      simp only [hchar, bind_eq_bind, bind_eq_some_iff] at h
      obtain ⟨appended, -, h⟩ := h
      obtain ⟨values, hvalues⟩ : ∃ values, List.Forall₂ Encodes input values := by
        split at h
        · obtain ⟨⟨byte, extracted⟩, -, h⟩ := bind_eq_some_iff.mp h
          exact ih h
        · exact ih h
      exact ⟨v :: values, .cons hv hvalues⟩

/-- Bits that are peeked as zero are zero. -/
lemma eq_replicate_of_peek {converter : Base32DecodeConverter} {queue : List Bool}
    (h : converter.Holds queue) (hlt : queue.length < 8) (hpeek : converter.peek = 0) :
    queue = replicate queue.length false := by
  have hlength := h.length
  rw [h.peek (by decide), take_append, take_of_length_le (by omega), ofBits_append] at hpeek
  have hzero : ofBits queue = 0 :=
    (Nat.mul_eq_zero.mp (Nat.add_eq_zero_iff.mp hpeek).1).resolve_right (Nat.two_pow_pos _).ne'
  have hbits := toBits_ofBits (replicate queue.length false)
  rw [ofBits_replicate_false, length_replicate] at hbits
  rw [← hbits, ← hzero, toBits_ofBits]

/-- `Base32Decode` reads the bytes that stand in groups of five bits, and zeros. -/
theorem groups_of_base32Decode (h : base32Decode t = some (true, s)) :
    ∃ values padding, padding < 8 ∧ List.Forall₂ Encodes t values ∧
      values.flatMap (toBits 5) = bitsOf s ++ replicate padding false := by
  obtain ⟨⟨left, result⟩, hloop, h⟩ := bind_eq_some_iff.mp h
  cases left with
  | none => cases h
  | some converter =>
    obtain ⟨values, hencodes⟩ := encodes_of_decodeLoop hloop
    obtain ⟨converter', bytes, queue, hloop', hholds, hlt, hbits⟩ :=
      decodeLoop_groups hencodes holds_init (by decide) []
    rw [hloop'] at hloop
    cases hloop
    simp only [Option.pure_def, some.injEq, Prod.mk.injEq, decide_eq_true_eq, nil_append] at h
    obtain ⟨hpeek, rfl⟩ := h
    refine ⟨values, queue.length, hlt, hencodes, ?_⟩
    rw [← eq_replicate_of_peek hholds hlt hpeek, hbits, nil_append]

/-- The number of bits in groups of five. -/
lemma length_groups {padding : ℕ} (hencodes : List.Forall₂ Encodes t values)
    (hvalues : values.flatMap (toBits 5) = bitsOf s ++ replicate padding false) :
    5 * t.length = 8 * s.length + padding := by
  have hlength := congrArg length hvalues
  rw [length_append, length_bitsOf, length_replicate] at hlength
  rw [hencodes.length_eq, ← hlength]
  simp [Nat.mul_comm]

/-- Two strings that stand for the same groups. -/
lemma eq_of_groups {output : List UInt8} {values' : List ℕ}
    (h : List.Forall₂ Encodes t values) (h' : List.Forall₂ Encodes output values')
    (hbits : values'.flatMap (toBits 5) = values.flatMap (toBits 5)) : output = t := by
  have hlt : ∀ {t values}, List.Forall₂ Encodes t values → ∀ v ∈ values, v < 2 ^ 5 := by
    intro t values h v hv
    have hboth := h.flip.imp fun v c (hc : Encodes c v) => And.intro hc.lt hc
    exact ((forall₂_and_left _ _).mp hboth).1 v hv
  obtain rfl := flatMap_toBits_injective (by decide) (hlt h') (hlt h) hbits
  exact left_unique_forall₂' (fun _ _ _ hc hc' => some.inj (hc.symm.trans hc')) h' h

/-- A name that is decoded is the one that is written for its key exactly if the key is not too
long and the bits behind its last byte do not fill a character. -/
theorem base32EncodeUnsigned_base32Decode {sizeMax : ℕ} (h : base32Decode t = some (true, s)) :
    base32EncodeUnsigned sizeMax s = some (true, t) ↔
      s.length ≤ sizeMax / 8 ∧ 5 * t.length % 8 < 5 := by
  obtain ⟨values, padding, hpadding, hencodes, hvalues⟩ := groups_of_base32Decode h
  have hlength := length_groups hencodes hvalues
  have hmod : 5 * t.length % 8 = padding := by
    rw [hlength, Nat.mul_add_mod, Nat.mod_eq_of_lt hpadding]
  by_cases hsize : s.length ≤ sizeMax / 8
  · obtain ⟨output, values', padding', hencode, hpadding', hencodes', hvalues'⟩ :=
      base32EncodeUnsigned_groups hsize
    have hlength' := length_groups hencodes' hvalues'
    rw [hencode, some.injEq, Prod.mk.injEq]
    constructor
    · rintro ⟨-, rfl⟩
      exact ⟨hsize, by omega⟩
    · rintro ⟨-, hlt⟩
      obtain rfl : padding = padding' := by omega
      exact ⟨rfl, eq_of_groups hencodes hencodes' (hvalues'.trans hvalues.symm)⟩
  · cases s with
    | nil => exact absurd (Nat.zero_le _) hsize
    | cons first rest =>
      rw [base32EncodeUnsigned, if_pos (not_le.mp hsize)]
      exact iff_of_false (by simp) fun hboth => hsize hboth.1

theorem base32EncodeUnsigned_base32Decode_key :
    base32Decode [77, 90, 88, 87, 54] = some (true, [102, 111, 111]) ∧
      base32EncodeUnsigned (2 ^ 64 - 1) [102, 111, 111] = some (true, [77, 90, 88, 87, 54]) := by
  have hdecode : base32Decode [77, 90, 88, 87, 54] = some (true, [102, 111, 111]) := by decide
  exact ⟨hdecode, (base32EncodeUnsigned_base32Decode hdecode).mpr (by decide)⟩

/-- The name `A` has the same key as the empty name. -/
theorem base32Decode_not_canonical :
    base32Decode [65] = some (true, []) ∧ base32Decode [] = some (true, []) ∧
      base32EncodeUnsigned (2 ^ 64 - 1) [] = some (true, []) := by
  decide

end Fml
