import FlutterEngine.Fml.Base32
import Mathlib.Data.List.Forall2

/-!
# Base32 round trip

A `BitConverter` is a queue of bits (`BitConverter.Holds`). `Base32Encode` cuts the bits of its
input into groups of five and fills the last group with zeros (`base32Encode_groups`).
`Base32Decode` cuts the bits of the groups into bytes (`decodeLoop_groups`).

The first byte of the input is appended without a cast. Thus what is written can be read back
exactly if that byte is an ASCII character (`base32Decode_base32Encode`).
-/

namespace Fml

open Lib List Option Nat UInt8

/-! ## The converter as a queue -/

namespace BitConverter

variable {fromLength toLength bufferLength : ℕ}
  {converter : BitConverter fromLength toLength bufferLength} {queue : List Bool}

/-- The bits of a converter, with the free ones behind them. -/
structure Holds (converter : BitConverter fromLength toLength bufferLength) (queue : List Bool) :
    Prop where
  length : queue.length + converter.lowerFreeBits = bufferLength
  buffer : converter.buffer = ofBits (queue ++ replicate converter.lowerFreeBits false)

/-- At first there are no bits. -/
lemma holds_init : (init : BitConverter fromLength toLength bufferLength).Holds [] where
  length := zero_add _
  buffer := (ofBits_replicate_false _).symm

section Queue

variable (h : converter.Holds queue)

include h

/-- How many bits there are. -/
lemma Holds.bitsAvailable : converter.bitsAvailable = queue.length := by
  have hlength := h.length
  rw [BitConverter.bitsAvailable]
  omega

/-- When bits can be extracted. -/
lemma Holds.canExtract : converter.canExtract = true ↔ toLength ≤ queue.length := by
  rw [BitConverter.canExtract, h.bitsAvailable, decide_eq_true_iff]

/-- When bits can be appended. -/
lemma Holds.canAppend : converter.canAppend = true ↔ queue.length + fromLength ≤ bufferLength := by
  have hlength := h.length
  rw [BitConverter.canAppend, decide_eq_true_iff]
  omega

/-- If there are too few bits, then those that are missing are zero. -/
theorem Holds.peek (hto : toLength ≤ bufferLength) :
    converter.peek = ofBits ((queue ++ replicate converter.lowerFreeBits false).take toLength)
    := by
  have hlength := h.length
  rw [BitConverter.peek, h.buffer, shiftRight_eq_div_pow]
  refine (ofBits_take ?_).symm
  rw [length_append, length_replicate]
  omega

/-- Bits that fit are appended to the queue. -/
lemma Holds.append {bits : ℕ} (hbits : bits < 2 ^ fromLength)
    (hroom : queue.length + fromLength ≤ bufferLength) :
    ∃ converter', converter.append bits = some converter' ∧ converter'.Holds
    (queue ++ toBits fromLength bits) := by
  have hlength := h.length
  obtain ⟨free, hfree⟩ : ∃ free, converter.lowerFreeBits = free + fromLength :=
    ⟨converter.lowerFreeBits - fromLength, by omega⟩
  have hguard : (0 : ℤ) ≤ bits ∧ (bits : ℤ) < 2 ^ fromLength ∧ converter.canAppend :=
    ⟨Int.natCast_nonneg _, by exact_mod_cast hbits, h.canAppend.mpr hroom⟩
  refine ⟨_, if_pos hguard, ?_, ?_⟩
  · rw [length_append, length_toBits]
    dsimp only
    omega
  · -- the new bits fall on zeros
    have hlt : bits * 2 ^ free < 2 ^ (free + fromLength) := by
      rw [Nat.pow_add, Nat.mul_comm]
      exact Nat.mul_lt_mul_of_pos_left hbits (Nat.two_pow_pos free)
    rw [h.buffer, hfree, Nat.add_sub_cancel, Int.toNat_natCast, Nat.shiftLeft_eq, ofBits_append,
      ofBits_replicate_false, add_zero, length_replicate, ← shiftLeft_eq,
      ← shiftLeft_add_eq_or_of_lt hlt, ofBits_append, ofBits_append, ofBits_replicate_false,
      ofBits_toBits_of_lt hbits, length_toBits, length_replicate, shiftLeft_eq,
      pow_add]
    ring

/-- Bits that are there are taken from the queue. -/
lemma Holds.extract (hqueue : toLength ≤ queue.length) :
    ∃ converter', converter.extract = some (ofBits (queue.take toLength), converter') ∧
    converter'.Holds (queue.drop toLength) := by
  have hlength := h.length
  have hpeek : converter.peek = ofBits (queue.take toLength) := by
    rw [h.peek (by omega), take_append_of_le_length hqueue]
  refine ⟨_, (if_pos (h.canExtract.mpr hqueue)).trans (by rw [hpeek]), ?_, ?_⟩
  · rw [length_drop]
    dsimp only
    omega
  · have hdrop : queue.drop toLength ++ replicate converter.lowerFreeBits false
        = (queue ++ replicate converter.lowerFreeBits false).drop toLength := by
      rw [drop_append_of_le_length hqueue]
    have hsplit : toLength + (bufferLength - toLength)
        = (queue ++ replicate converter.lowerFreeBits false).length := by
      rw [length_append, length_replicate]
      omega
    have hpow : 2 ^ bufferLength = 2 ^ (bufferLength - toLength) * 2 ^ toLength := by
      rw [← Nat.pow_add, Nat.sub_add_cancel (by omega)]
    rw [replicate_add, ← append_assoc, hdrop, ofBits_append, ofBits_drop hsplit,
      ofBits_replicate_false, length_replicate, and_two_pow_sub_one_eq_mod, h.buffer,
      shiftLeft_eq, hpow, mul_mod_mul_right, add_zero]

end Queue

end BitConverter

open BitConverter

/-! ## Encoding -/

/-- The bits of a sequence of bytes. -/
def bitsOf (bytes : List UInt8) : List Bool := (bytes.map toNat).flatMap (toBits 8)

@[simp] lemma bitsOf_cons (byte : UInt8) (bytes : List UInt8) :
    bitsOf (byte :: bytes) = toBits 8 byte.toNat ++ bitsOf bytes := rfl

/-- How many bits some bytes have. -/
@[simp] lemma length_bitsOf (bytes : List UInt8) : (bitsOf bytes).length = 8 * bytes.length := by
  induction bytes with
  | nil => rfl
  | cons byte bytes ih =>
    rw [bitsOf_cons, length_append, length_toBits, ih, length_cons]
    omega

variable {bytes input : List UInt8} {values : List ℕ} {value : ℕ} {c : UInt8} {queue : List Bool}

/-- Bytes are determined by their bits. -/
lemma bitsOf_injective {bytes' : List UInt8} (h : bitsOf bytes = bitsOf bytes') :
    bytes = bytes' := by
  have hlt : ∀ bytes : List UInt8, ∀ v ∈ bytes.map toNat, v < 2 ^ 8 := by
    intro bytes v hv
    obtain ⟨byte, -, rfl⟩ := mem_map.mp hv
    exact byte.toNat_lt
  have hmap := flatMap_toBits_injective (by omega) (hlt bytes) (hlt bytes') h
  exact map_injective_iff.mpr (fun _ _ => UInt8.toNat_inj.mp) hmap

/-- A character stands for a group of five bits. -/
def Encodes (c : UInt8) (value : ℕ) : Prop := kEncoding[value]? = some c

/-- Each value has a character. -/
lemma exists_encodes (h : value < 2 ^ 5) : ∃ c, Encodes c value :=
  ⟨_, getElem?_eq_getElem (by exact h)⟩

/-- Each character has a value of five bits. -/
lemma Encodes.lt (h : Encodes c value) : value < 2 ^ 5 := (List.getElem?_eq_some_iff.mp h).1

/-- Appending the next byte keeps all bits. -/
lemma appendNext_holds {converter : Base32EncodeConverter} (h : converter.Holds queue)
    (rest : List UInt8) :
    ∃ converter' queue' rest', appendNext converter rest = some (converter', rest') ∧
      converter'.Holds queue' ∧ queue' ++ bitsOf rest' = queue ++ bitsOf rest ∧
      (5 ≤ queue'.length ∨ rest' = []) := by
  cases rest with
  | nil => exact ⟨converter, queue, [], rfl, h, rfl, .inr rfl⟩
  | cons byte rest =>
    by_cases hroom : queue.length + 8 ≤ 16
    · obtain ⟨converter', happend, h'⟩ := h.append byte.toNat_lt hroom
      refine ⟨converter', _, rest, ?_, h', ?_, .inl ?_⟩
      · rw [appendNext, if_pos (h.canAppend.mpr hroom), happend]
        rfl
      · rw [bitsOf_cons, append_assoc]
      · rw [length_append, length_toBits]
        omega
    · refine ⟨converter, queue, byte :: rest, ?_, h, rfl, .inl (by omega)⟩
      rw [appendNext, if_neg (fun hcan => hroom (h.canAppend.mp hcan))]
      rfl

/-- The loop cuts all the bits into groups, except for fewer than five. -/
theorem encodeLoop_groups {fuel : ℕ} {converter : Base32EncodeConverter} {rest : List UInt8}
    (h : converter.Holds queue) (hqueue : 5 ≤ queue.length ∨ rest = [])
    (hfuel : (queue ++ bitsOf rest).length < 5 * fuel) :
    ∃ output converter' values queue', encodeLoop fuel converter rest = some (output, converter') ∧
      converter'.Holds queue' ∧ queue'.length < 5 ∧ List.Forall₂ Encodes output values ∧
      values.flatMap (toBits 5) ++ queue' = queue ++ bitsOf rest := by
  induction fuel generalizing converter queue rest with
  | zero => omega
  | succ fuel ih =>
    by_cases hlength : 5 ≤ queue.length
    · obtain ⟨extracted, hextract, h₁⟩ := h.extract hlength
      have htake : (queue.take 5).length = 5 := length_take_of_le hlength
      obtain ⟨c, hc⟩ := exists_encodes (htake ▸ ofBits_lt (queue.take 5))
      obtain ⟨appended, queue₂, rest₂, hnext, h₂, hbits, hqueue₂⟩ := appendNext_holds h₁ rest
      have hfuel₂ : (queue₂ ++ bitsOf rest₂).length < 5 * fuel := by
        rw [hbits]
        simp only [length_append, length_drop] at hfuel ⊢
        omega
      obtain ⟨output, converter', values, queue', hloop, h', hlt, hencodes, hgroups⟩ :=
        ih h₂ hqueue₂ hfuel₂
      refine ⟨c :: output, converter', ofBits (queue.take 5) :: values, queue', ?_, h', hlt,
        .cons hc hencodes, ?_⟩
      · rw [encodeLoop, if_pos (h.canExtract.mpr hlength), hextract]
        have hc' : kEncoding[ofBits (queue.take 5)]? = some c := hc
        simp [hc', hnext, hloop]
      · have hgroup : toBits 5 (ofBits (queue.take 5)) = queue.take 5 := by
          have := toBits_ofBits (queue.take 5)
          rwa [htake] at this
        rw [flatMap_cons, hgroup, append_assoc, hgroups, hbits, ← append_assoc, take_append_drop]
    · obtain rfl : rest = [] := hqueue.resolve_left hlength
      refine ⟨[], converter, [], queue, ?_, h, by omega, .nil, ?_⟩
      · rw [encodeLoop, if_neg (fun hcan => hlength (h.canExtract.mp hcan))]
      · rw [flatMap_nil, nil_append, bitsOf, map_nil, flatMap_nil, append_nil]

/-- The bits that are left are filled with zeros. -/
theorem peek_encodes {converter : Base32EncodeConverter} (h : converter.Holds queue)
    (hlt : queue.length < 5) :
    ∃ c, Encodes c converter.peek ∧
      toBits 5 converter.peek = queue ++ replicate (5 - queue.length) false := by
  have hlength := h.length
  have htake : (queue ++ replicate converter.lowerFreeBits false).take 5
      = queue ++ replicate (5 - queue.length) false := by
    rw [take_append, take_of_length_le (by omega), take_replicate, Nat.min_eq_left (by omega)]
  have hfive : (queue ++ replicate (5 - queue.length) false).length = 5 := by
    rw [length_append, length_replicate]
    omega
  have hpeek := h.peek (by omega)
  rw [htake] at hpeek
  have hbits := toBits_ofBits (queue ++ replicate (5 - queue.length) false)
  have hvalue := ofBits_lt (queue ++ replicate (5 - queue.length) false)
  rw [hfive, ← hpeek] at hbits hvalue
  obtain ⟨c, hc⟩ := exists_encodes hvalue
  exact ⟨c, hc, hbits⟩

/-- Bytes below 128 are positive. -/
lemma intOfChar_of_lt (h : c < 128) : intOfChar c = c.toNat := by
  have hlt : c.toNat < 128 := h
  rw [intOfChar, BitVec.toInt_eq_toNat_of_lt (by rw [toNat_toBitVec]; omega), toNat_toBitVec]

/-- Other bytes are negative. -/
lemma intOfChar_neg (h : ¬c < 128) : intOfChar c < 0 := by
  have hle : 128 ≤ c.toNat := not_lt.mp h
  have hlt : c.toNat < 256 := c.toNat_lt
  rw [intOfChar, BitVec.toInt_eq_toNat_bmod, toNat_toBitVec, Int.bmod_def]
  omega

/-- Without a negative first byte, signs do not matter. -/
lemma base32Encode_of_lt (sizeMax : ℕ) (h : ∀ first, input.head? = some first → first < 128) :
    base32Encode sizeMax input = base32EncodeUnsigned sizeMax input := by
  cases input with
  | nil => rfl
  | cons first rest => rw [base32Encode, intOfChar_of_lt (h first rfl), base32EncodeUnsigned]

/-- `Base32Encode` writes the bits of its input in groups of five. -/
theorem base32EncodeUnsigned_groups {sizeMax : ℕ} (hsize : input.length ≤ sizeMax / 8) :
    ∃ output values padding, base32EncodeUnsigned sizeMax input = some (true, output) ∧
      padding < 5 ∧
      List.Forall₂ Encodes output values ∧
      values.flatMap (toBits 5) = bitsOf input ++ replicate padding false := by
  cases input with
  | nil => exact ⟨[], [], 0, rfl, by omega, .nil, rfl⟩
  | cons first rest =>
    have hinit : (init : Base32EncodeConverter).Holds [] := holds_init
    obtain ⟨converter, happend, h⟩ := hinit.append first.toNat_lt (by decide)
    have hfuel : (toBits 8 first.toNat ++ bitsOf rest).length
        < 5 * (8 * (first :: rest).length) := by
      rw [← bitsOf_cons, length_bitsOf, length_cons]
      omega
    obtain ⟨output, converter', values, queue, hloop, h', hlt, hencodes, hgroups⟩ :=
      encodeLoop_groups h (.inl (by rw [nil_append, length_toBits]; omega)) hfuel
    rw [nil_append, ← bitsOf_cons] at hgroups
    have hstart : base32EncodeUnsigned sizeMax (first :: rest) =
        if converter'.bitsAvailable > 0 then
          kEncoding[converter'.peek]?.bind fun c => some (true, output ++ [c])
        else some (true, output) := by
      rw [base32EncodeUnsigned, if_neg (not_lt.mpr hsize), happend]
      simp only [bind_eq_bind, bind_some, hloop, Option.pure_def]
    by_cases hempty : queue = []
    · refine ⟨output, values, 0, ?_, by omega, hencodes, ?_⟩
      · have havailable : ¬converter'.bitsAvailable > 0 := by
          rw [h'.bitsAvailable, hempty]
          exact lt_irrefl 0
        rw [hstart, if_neg havailable]
      · rw [← hgroups, hempty, replicate_zero, append_nil, append_nil]
    · obtain ⟨c, hc, hpeek⟩ := peek_encodes h' hlt
      have hpos := length_pos_iff.mpr hempty
      refine ⟨output ++ [c], values ++ [converter'.peek], 5 - queue.length, ?_, by omega,
        rel_append hencodes (.cons hc .nil), ?_⟩
      · have havailable : converter'.bitsAvailable > 0 := by rwa [h'.bitsAvailable]
        rw [hstart, if_pos havailable, show kEncoding[converter'.peek]? = some c from hc]
        rfl
      · rw [flatMap_append, flatMap_singleton, hpeek, ← append_assoc, hgroups]

/-! ## Decoding -/

/-- A character is decoded to its value. -/
lemma Encodes.decodeChar (h : Encodes c value) : decodeChar c = some (value : ℤ) := by
  have hall : ∀ value : Fin 32, (kEncoding[value.val]?).all
      (fun c => Fml.decodeChar c = some (value.val : ℤ)) := by decide
  have hvalue := hall ⟨value, h.lt⟩
  rw [show kEncoding[value]? = some c from h, all_some, decide_eq_true_iff] at hvalue
  exact hvalue

/-- The loop cuts the bits of the groups into bytes, except for fewer than eight. -/
theorem decodeLoop_groups {converter : Base32DecodeConverter}
    (hencodes : List.Forall₂ Encodes input values) (h : converter.Holds queue)
    (hqueue : queue.length < 8) (result : List UInt8) :
    ∃ converter' bytes queue',
      decodeLoop converter result input = some (some converter', result ++ bytes) ∧
      converter'.Holds queue' ∧ queue'.length < 8 ∧
      bitsOf bytes ++ queue' = queue ++ values.flatMap (toBits 5) := by
  induction hencodes generalizing converter queue result with
  | nil =>
    refine ⟨converter, [], queue, ?_, h, hqueue, ?_⟩
    · rw [decodeLoop, append_nil]
    · rw [flatMap_nil, append_nil]
      rfl
  | @cons c value input values hc hencodes ih =>
    obtain ⟨appended, happend, h₁⟩ := h.append hc.lt (by omega)
    rw [decodeLoop, hc.decodeChar]
    dsimp only
    rw [happend, bind_eq_bind, bind_some]
    have hlength₁ : (queue ++ toBits 5 value).length = queue.length + 5 := by
      rw [length_append, length_toBits]
    by_cases height : 8 ≤ (queue ++ toBits 5 value).length
    · obtain ⟨extracted, hextract, h₂⟩ := h₁.extract height
      have htake : ((queue ++ toBits 5 value).take 8).length = 8 := length_take_of_le height
      have hbits := toBits_ofBits ((queue ++ toBits 5 value).take 8)
      have hbyte := ofBits_lt ((queue ++ toBits 5 value).take 8)
      rw [htake] at hbits hbyte
      obtain ⟨byte, hbyte⟩ : ∃ byte : UInt8,
          byte.toNat = ofBits ((queue ++ toBits 5 value).take 8) :=
        ⟨ofNat _, toNat_ofNat_of_lt hbyte⟩
      rw [← hbyte] at hextract hbits
      have hdrop : ((queue ++ toBits 5 value).drop 8).length < 8 := by
        rw [length_drop]
        omega
      obtain ⟨converter', bytes, queue', hloop, h', hlt, hbytes⟩ := ih h₂ hdrop (result ++ [byte])
      refine ⟨converter', byte :: bytes, queue', ?_, h', hlt, ?_⟩
      · rw [if_pos (h₁.canExtract.mpr height), hextract]
        dsimp only [bind_eq_bind, bind_some]
        rw [toUInt8, UInt8.ofNat_toNat, hloop, append_assoc, singleton_append]
      · rw [bitsOf_cons, hbits, append_assoc, hbytes, ← append_assoc,
          take_append_drop, flatMap_cons, append_assoc]
    · obtain ⟨converter', bytes, queue', hloop, h', hlt, hbytes⟩ := ih h₁ (by omega) result
      refine ⟨converter', bytes, queue', ?_, h', hlt, ?_⟩
      · rw [if_neg (fun hcan => height (h₁.canExtract.mp hcan)), hloop]
      · rw [hbytes, flatMap_cons, append_assoc]

/-- What stands in groups of five bits is read back. -/
theorem base32Decode_groups {output : List UInt8} {padding : ℕ}
    (hencodes : List.Forall₂ Encodes output values) (hpadding : padding < 8)
    (hvalues : values.flatMap (toBits 5) = bitsOf bytes ++ replicate padding false) :
    base32Decode output = some (true, bytes) := by
  obtain ⟨converter, bytes', queue, hloop, h, hlt, hbytes⟩ :=
    decodeLoop_groups hencodes holds_init (by decide) []
  rw [nil_append, hvalues] at hbytes
  -- both sides are whole bytes and less than one byte more
  have hlength := congrArg length hbytes
  rw [length_append, length_append, length_bitsOf, length_bitsOf, length_replicate] at hlength
  obtain ⟨hsame, hqueue⟩ := append_inj hbytes (by
    rw [length_bitsOf, length_bitsOf]
    omega)
  have hpeek : converter.peek = 0 := by
    rw [h.peek (by decide), hqueue, ← replicate_add, take_replicate, ofBits_replicate_false]
  rw [base32Decode, hloop, nil_append, bitsOf_injective hsame]
  simp [hpeek]

/-! ## Round trip -/

/-- One of `A`–`Z` and `2`–`7`. -/
def IsBase32Char (c : UInt8) : Prop := (65 ≤ c ∧ c ≤ 90) ∨ (50 ≤ c ∧ c ≤ 55)

instance (c : UInt8) : Decidable (IsBase32Char c) := inferInstanceAs (Decidable (_ ∨ _))

/-- Only characters of the alphabet are used. -/
lemma Encodes.isBase32Char (h : Encodes c value) : IsBase32Char c := by
  have hall : kEncoding.all (fun c => IsBase32Char c) = true := by decide
  exact decide_eq_true_iff.mp (all_eq_true.mp hall c (mem_of_getElem? h))

/-- `Base32Encode` and `Base32Decode` finish without a failing assertion, and give the input back,
exactly if the input does not start with a negative `char`. -/
theorem base32Decode_base32Encode {sizeMax : ℕ} {s : List UInt8} (hsize : s.length ≤ sizeMax / 8) :
    (∃ output, base32Encode sizeMax s = some (true, output) ∧
      output.length = (8 * s.length + 4) / 5 ∧ (∀ c ∈ output, IsBase32Char c) ∧
      base32Decode output = some (true, s)) ↔
    ∀ first, s.head? = some first → first < 128 := by
  constructor
  · rintro ⟨output, hencode, -⟩ first hfirst
    cases s with
    | nil => cases hfirst
    | cons first' rest =>
      obtain rfl : first' = first := some.inj hfirst
      by_contra hneg
      have hassert : (init : Base32EncodeConverter).append (intOfChar first') = none :=
        if_neg (fun h => absurd h.1 (Int.not_le.mpr (intOfChar_neg hneg)))
      rw [base32Encode, if_neg (not_lt.mpr hsize), hassert] at hencode
      cases hencode
  · intro hfirst
    obtain ⟨output, values, padding, hencode, hpadding, hencodes, hgroups⟩ :=
      base32EncodeUnsigned_groups hsize
    rw [← base32Encode_of_lt sizeMax hfirst] at hencode
    refine ⟨output, hencode, ?_, ?_, base32Decode_groups hencodes (by omega) hgroups⟩
    · have hlength := congrArg length hgroups
      have hvalues : (values.flatMap (toBits 5)).length = 5 * values.length := by
        simp [mul_comm]
      rw [hvalues, length_append, length_bitsOf, length_replicate] at hlength
      rw [hencodes.length_eq]
      omega
    · have hchars := hencodes.imp fun _ _ h => And.intro h.isBase32Char h
      exact ((forall₂_and_left _ _).mp hchars).1

theorem base32Decode_base32Encode_key :
    ∃ output, base32Encode (2 ^ 64 - 1) [107, 101, 121, 255] = some (true, output) ∧
      output.length = (8 * 4 + 4) / 5 ∧ (∀ c ∈ output, IsBase32Char c) ∧
      base32Decode output = some (true, [107, 101, 121, 255]) := by
  have hsize : [107, 101, 121, 255].length ≤ (2 ^ 64 - 1) / 8 := by decide
  refine (base32Decode_base32Encode hsize).mpr ?_
  intro first hfirst
  obtain rfl : 107 = first := some.inj hfirst
  decide

/-- A string that starts with a byte beyond ASCII is not encoded. -/
theorem base32Encode_not_ascii :
    [(128 : UInt8)].length ≤ (2 ^ 64 - 1) / 8 ∧ intOfChar 128 = -128 ∧
      base32Encode (2 ^ 64 - 1) [128] = none := by
  decide

end Fml
