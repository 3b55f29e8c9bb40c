import FlutterEngine.Fml.Message
import Mathlib.Order.Nat

/-!
# Round trips

What has been encoded is found in the `data` of a message and what has not yet been decoded of it in
`unread`. For trivially copyable values this gives a round trip. `Encode` of a pointer first writes
whether there is an object, but `Decode` takes this byte to say that the pointer is null. A sequence
of values can be decoded if and only if there is no pointer among them (`roundTrip_iff`).
-/

namespace Fml

open Lib List Value Nat

variable {alloc : Allocator} {m m' : Message} {bytes rest : List UInt8} {size : ℕ} {success : Bool}

namespace Message

@[simp] lemma length_data (m : Message) : m.data.length = m.dataLength := by
  rw [data, length_take]
  exact min_eq_left m.dataLength_le

/-- The encoded bytes that have not been decoded. -/
def unread (m : Message) : List UInt8 := m.data.drop m.sizeRead

/-- Some bytes have been encoded. -/
structure Extends (m m' : Message) (bytes : List UInt8) : Prop where
  data_eq : m'.data = m.data ++ bytes
  sizeRead_eq : m'.sizeRead = m.sizeRead

/-! ## Encoding -/

/-- Another buffer with the same contents. -/
lemma extends_withBuffer {memory : List UInt8} {h : m.bufferLength ≤ memory.length}
    (htake : memory.take m.bufferLength = m.buffer.getD []) :
    m.Extends (m.withBuffer memory h) [] where
  data_eq := by
    have hmin : min m.dataLength m.bufferLength = m.dataLength := min_eq_left m.dataLength_le
    rw [append_nil, data, data, ← htake, take_take, hmin]
    rfl
  sizeRead_eq := rfl

/-- Resizing keeps the contents. -/
lemma extends_resize (h : m.resize alloc size = .ok (success, m')) : m.Extends m' [] := by
  have hself : m.Extends m [] := ⟨(append_nil _).symm, rfl⟩
  rw [resize] at h
  split at h
  · next hbuffer =>
    split at h
    · cases h
      refine extends_withBuffer ?_
      simp [bufferLength, hbuffer]
    · cases h
      exact hself
  · next old hbuffer =>
    split at h
    · next hsize =>
      split at h
      · next memory hmemory =>
        cases h
        refine extends_withBuffer ?_
        simp only [bufferLength, hbuffer, Option.getD_some] at hsize ⊢
        exact alloc.take_eq hmemory hsize.le
      · cases h
        exact hself
    · cases h

/-- Reserving keeps the contents. -/
lemma extends_reserve (h : m.reserve alloc size = .ok (success, m')) : m.Extends m' [] := by
  rw [reserve] at h
  split at h
  · cases h
    exact ⟨(append_nil _).symm, rfl⟩
  · exact extends_resize h

/-- Appending adds to the contents. -/
lemma extends_append (h : m.append bytes = .ok m') : m.Extends m' bytes := by
  rw [append] at h
  split at h
  · cases h
    refine ⟨?_, rfl⟩
    have hlength : (m.data ++ bytes).length = m.dataLength + bytes.length := by
      rw [length_append, length_data]
    rw [data]
    dsimp only
    rw [Option.getD_some, ← hlength, take_left]
  · cases h

/-- Either the bytes have been encoded, or there is no memory and nothing has changed. -/
theorem extends_encode (h : m.encode alloc bytes = .ok (success, m')) :
    m.Extends m' (if success then bytes else []) := by
  obtain ⟨⟨reserved, m₁⟩, hreserve, h⟩ := bind_eq_ok_iff.mp h
  have hreserved := extends_reserve hreserve
  cases reserved with
  | false =>
    cases h
    exact hreserved
  | true =>
    obtain ⟨m₂, happend, h⟩ := bind_eq_ok_iff.mp h
    cases h
    have happended := extends_append happend
    refine ⟨?_, happended.sizeRead_eq.trans hreserved.sizeRead_eq⟩
    rw [happended.data_eq, hreserved.data_eq, append_nil]
    rfl

/-! ## Enough memory -/

/-- The result is no smaller, as long as it fits into 32 bits. -/
theorem le_nextPowerOfTwoSize (hsize : size ≤ 2 ^ 31) :
    size ≤ (nextPowerOfTwoSize (UInt32.ofNat size)).toNat := by
  rw [nextPowerOfTwoSize]
  have hnat : (UInt32.ofNat size).toNat = size := by
    rw [UInt32.toNat_ofNat']
    omega
  generalize UInt32.ofNat size = x at hnat
  by_cases hx : x = 0
  · rw [if_pos hx]
    have : size = 0 := by rw [← hnat, hx]; rfl
    omega
  · rw [if_neg hx]
    have hpos : x.toNat ≠ 0 := fun h => hx (UInt32.toNat_inj.mp h)
    have hpred : (x - 1).toNat = size - 1 := by
      rw [UInt32.toNat_sub_of_le]
      · rw [hnat]; rfl
      · rw [UInt32.le_iff_toNat_le]
        exact Nat.pos_of_ne_zero hpos
    -- every step adds bits below the highest one
    have hstep : ∀ (y : UInt32) (k : UInt32), size - 1 ≤ y.toNat ∧ y.toNat < 2 ^ 31 →
        size - 1 ≤ (y ||| (y >>> k)).toNat ∧ (y ||| (y >>> k)).toNat < 2 ^ 31 := by
      intro y k ⟨hle, hlt⟩
      rw [UInt32.toNat_or]
      refine ⟨hle.trans left_le_or, or_lt_two_pow hlt ?_⟩
      refine lt_of_le_of_lt ?_ hlt
      rw [UInt32.toNat_shiftRight]
      exact shiftRight_le _ _
    have hfinal := hstep _ 16 (hstep _ 8 (hstep _ 4 (hstep _ 2 (hstep (x - 1) 1 (by omega)))))
    rw [UInt32.toNat_add]
    have hone : (1 : UInt32).toNat = 1 := rfl
    omega

section Allocated

variable (halloc : ∀ old size, (alloc.realloc old size).isSome)

include halloc

/-- Resizing succeeds. -/
lemma resize_returns (hgrows : m.bufferLength < size) :
    ∃ m', m.resize alloc size = .ok (true, m') ∧ size ≤ m'.bufferLength := by
  rw [resize]
  split
  · split
    · next memory hmemory => exact ⟨_, rfl, (alloc.length_eq hmemory).ge⟩
    · next hnone => simpa [hnone] using halloc [] size
  · next old hbuffer =>
    rw [dif_pos hgrows]
    split
    · next memory hmemory => exact ⟨_, rfl, (alloc.length_eq hmemory).ge⟩
    · next hnone => simpa [hnone] using halloc old size

/-- Reserving up to 2 GiB succeeds. -/
lemma reserve_returns (hsize : size ≤ 2 ^ 31) :
    ∃ m', m.reserve alloc size = .ok (true, m') ∧ size ≤ m'.bufferLength := by
  rw [reserve]
  split
  · next hle => exact ⟨m, rfl, hle⟩
  · next hlt =>
    have hle := le_nextPowerOfTwoSize hsize
    obtain ⟨m', hresize, hroom⟩ := resize_returns halloc ((Nat.lt_of_not_le hlt).trans_le hle)
    exact ⟨m', hresize, hle.trans hroom⟩

/-- Up to 2^31 bytes there is always room, if the allocator finds any. -/
theorem encode_returns (hsize : m.dataLength + bytes.length ≤ 2 ^ 31) :
    ∃ m', m.encode alloc bytes = .ok (true, m') := by
  obtain ⟨m₁, hreserved, hroom⟩ := reserve_returns (m := m) halloc hsize
  have hlength : m₁.dataLength = m.dataLength := by
    -- a larger buffer holds the same data
    have hdata := (extends_reserve hreserved).data_eq
    rw [← length_data, hdata, append_nil, length_data]
  rw [encode, hreserved, ok_bind]
  dsimp only
  rw [if_pos rfl, append, dif_pos (hlength ▸ hroom)]
  exact ⟨_, rfl⟩

end Allocated

/-! ## Decoding -/

/-- What comes next in the data is decoded. -/
theorem decode_of_unread (h : m.unread = bytes ++ rest) (hbytes : bytes ≠ []) :
    ∃ m', m.decode bytes.length = (some bytes, m') ∧ m'.unread = rest := by
  have hlength : bytes.length + rest.length = m.dataLength - m.sizeRead := by
    rw [← length_append, ← h, unread, length_drop, length_data]
  have hpos := length_pos_iff.mpr hbytes
  have hdata := m.dataLength_le
  have hroom : ¬m.bufferLength < bytes.length + m.sizeRead := by
    rw [bufferLength]
    omega
  rw [decode, dif_neg hroom]
  refine ⟨_, Prod.ext (congrArg some ?_) rfl, ?_⟩
  · -- the bytes stand in the buffer as well, since they belong to the data
    have htake : bytes = m.unread.take bytes.length := by rw [h, take_left]
    conv_rhs => rw [htake]
    rw [unread, data, drop_take, take_take, min_eq_left (by omega)]
  · rw [unread, ← drop_drop]
    change m.unread.drop bytes.length = rest
    rw [h, drop_left]

end Message

open Message

/-! ## Values -/

section Values

variable {O : Type} {traits : Traits O} {value : Value O} {values : List (Value O)}

/-- A trivially copyable value. -/
def Value.IsTrivial : Value O → Prop
  | .trivial _ _ => True
  | .pointer _ => False

/-- The bytes that are encoded first: a trivially copyable value, or whether there is an object. -/
def Value.head : Value O → List UInt8
  | .trivial bytes _ => bytes
  | .pointer object => [if object.isSome then 1 else 0]

@[simp] lemma Value.head_trivial (nonempty : bytes ≠ []) :
    (trivial (O := O) bytes nonempty).head = bytes := rfl

/-- `CreateForSerializableTag` and `Deserialize` invert `GetSerializableTag` and `Serialize`. -/
def Traits.Inverts (traits : Traits O) : Prop :=
  ∀ o m m', traits.serialize o m = .ok (true, m') →
    ∃ new, traits.createForSerializableTag (traits.getSerializableTag o) = some new ∧
      ∀ r : Message, ∀ rest, r.unread = m'.data.drop m.dataLength ++ rest →
        ∃ r', traits.deserialize new r = .ok (true, o, r') ∧ r'.unread = rest

/-- A value is encoded behind the others. -/
lemma encodeValue_isPrefix (h : encodeValue alloc traits m value = .ok (true, m')) :
    m.data ++ value.head <+: m'.data := by
  cases value with
  | trivial bytes nonempty =>
    have hdata := (extends_encode h).data_eq
    rw [if_pos rfl] at hdata
    rw [hdata]
    exact prefix_refl _
  | pointer object =>
    obtain ⟨⟨success, m₁⟩, hflag, h⟩ := bind_eq_ok_iff.mp h
    cases success with
    | false => cases h
    | true =>
      have hdata := (extends_encode hflag).data_eq
      rw [if_pos rfl] at hdata
      rw [Value.head, ← hdata]
      cases object with
      | none =>
        cases h
        exact prefix_refl _
      | some o =>
        obtain ⟨⟨success, m₂⟩, htag, h⟩ := bind_eq_ok_iff.mp h
        cases success with
        | false => cases h
        | true =>
          -- what `Serialize` may encode comes behind the tag
          have hprefix := (traits.appends h).1
          rw [(extends_encode htag).data_eq] at hprefix
          exact (prefix_append _ _).trans hprefix

/-- Nothing that has been encoded before is lost. -/
theorem encodeAll_isPrefix (h : encodeAll alloc traits m values = .ok (true, m')) :
    m.data <+: m'.data := by
  induction values generalizing m with
  | nil =>
    cases h
    exact prefix_refl _
  | cons value values ih =>
    obtain ⟨⟨success, m₁⟩, hvalue, h⟩ := bind_eq_ok_iff.mp h
    cases success with
    | false => cases h
    | true => exact ((prefix_append _ _).trans (encodeValue_isPrefix hvalue)).trans (ih h)

/-- Trivially copyable values of up to 2^31 bytes are encoded, if there is enough memory. -/
theorem encodeAll_returns (halloc : ∀ old size, (alloc.realloc old size).isSome)
    (htrivial : ∀ value ∈ values, value.IsTrivial)
    (hsize : m.dataLength + (values.map fun value => value.head.length).sum ≤ 2 ^ 31) :
    ∃ m', encodeAll alloc traits m values = .ok (true, m') := by
  induction values generalizing m with
  | nil => exact ⟨m, rfl⟩
  | cons value values ih =>
    obtain ⟨hvalue, hvalues⟩ := forall_mem_cons.mp htrivial
    rw [map_cons, sum_cons] at hsize
    cases value with
    | pointer => exact absurd hvalue not_false
    | trivial bytes nonempty =>
      rw [head_trivial] at hsize
      have hbytes : m.dataLength + bytes.length ≤ 2 ^ 31 := by omega
      obtain ⟨m₁, hencode⟩ := encode_returns halloc hbytes
      have hdata := (extends_encode hencode).data_eq
      have hlength : m₁.dataLength = m.dataLength + bytes.length := by
        rw [← length_data, hdata, if_pos rfl, length_append, length_data]
      obtain ⟨m₂, hrest⟩ := ih (m := m₁) hvalues (by omega)
      refine ⟨m₂, ?_⟩
      rw [encodeAll, encodeValue, hencode, ok_bind]
      exact hrest

/-- The byte of a pointer is taken for its opposite. -/
theorem decodeValue_pointer {object : Option O} {r r' : Message} {decoded : Value O}
    (hunread : r.unread = [if object.isSome then 1 else 0] ++ rest)
    (h : decodeValue traits r .pointer = .ok (some decoded, r')) :
    decoded ≠ .pointer object := by
  obtain ⟨r₁, hdecode, -⟩ := decode_of_unread hunread (by simp)
  rw [decodeValue, show 1 = [if object.isSome then (1 : UInt8) else 0].length from rfl,
    hdecode] at h
  cases object with
  | some o =>
    cases h
    simp
  -- a null pointer has written 0, so that `Decode` goes on to read a tag and an object
  | none =>
    dsimp only at h
    rw [if_neg (by simp)] at h
    split at h
    · cases h
    · split at h
      · cases h
      · obtain ⟨⟨success, o, r₂⟩, -, h⟩ := bind_eq_ok_iff.mp h
        cases success with
        | false => cases h
        | true =>
          cases h
          simp

/-- The first value that is left of what has been encoded decides: if it is trivially copyable it
is decoded and the rest follows, if it is a pointer it is not what is decoded. -/
theorem decodeAll_iff_of_unread {r : Message}
    (hencoded : encodeAll alloc traits m values = .ok (true, m'))
    (hunread : r.unread = m'.data.drop m.dataLength) :
    (∃ r', decodeAll traits r (values.map type) = .ok (some values, r')) ↔
      ∀ value ∈ values, value.IsTrivial := by
  induction values generalizing m r with
  | nil => exact ⟨fun _ value hvalue => absurd hvalue not_mem_nil, fun _ => ⟨r, rfl⟩⟩
  | cons value values ih =>
    obtain ⟨⟨success, m₁⟩, hvalue, hvalues⟩ := bind_eq_ok_iff.mp hencoded
    cases success with
    | false => cases hvalues
    | true =>
    obtain ⟨rest, hrest⟩ := (encodeValue_isPrefix hvalue).trans (encodeAll_isPrefix hvalues)
    have hhead : r.unread = value.head ++ rest := by
      rw [hunread, ← hrest, append_assoc, ← length_data, drop_left]
    rw [forall_mem_cons, map_cons]
    cases value with
    | trivial bytes nonempty =>
      -- the messages move on together: what is left to read is what the other values have added
      obtain ⟨r₁, hdecode, hunread₁⟩ := decode_of_unread hhead nonempty
      have hdata := (extends_encode hvalue).data_eq
      have hrest₁ : r₁.unread = m'.data.drop m₁.dataLength := by
        rw [hunread₁, ← hrest, ← length_data, hdata, if_pos rfl, head_trivial, drop_left]
      have hstep : decodeValue traits r (trivial (O := O) bytes nonempty).type =
          .ok (some (.trivial bytes nonempty), r₁) := by
        rw [head_trivial] at hdecode
        rw [type, decodeValue, hdecode]
        exact dif_neg nonempty
      rw [← ih hvalues hrest₁, decodeAll, hstep, ok_bind]
      dsimp only
      constructor
      · rintro ⟨r', h⟩
        obtain ⟨⟨decoded, r₂⟩, hdecoded, h⟩ := bind_eq_ok_iff.mp h
        cases decoded with
        | none => cases h
        | some decoded =>
          cases h
          exact ⟨trivial, r₂, hdecoded⟩
      · rintro ⟨-, r', h⟩
        exact ⟨r', by rw [h, ok_bind]; rfl⟩
    | pointer object =>
      refine ⟨fun ⟨r', h⟩ => ?_, fun h => absurd h.1 not_false⟩
      rw [decodeAll] at h
      obtain ⟨⟨decoded, r₁⟩, hdecode, h⟩ := bind_eq_ok_iff.mp h
      cases decoded with
      | none => cases h
      | some decoded =>
        obtain ⟨⟨tail, r₂⟩, -, h⟩ := bind_eq_ok_iff.mp h
        have hne := decodeValue_pointer hhead hdecode
        cases tail with
        | none => cases h
        | some tail =>
          cases h
          exact absurd rfl hne

/-- After a sequence of values has been encoded into a message, it is decoded as it was if and only
if there is no pointer among the values. If there is none, up to 2^31 bytes can be encoded, given
enough memory. -/
theorem roundTrip_iff (alloc : Allocator) (traits : Traits O) (values : List (Value O)) :
    (∀ m, encodeAll alloc traits .init values = .ok (true, m) →
      ((∃ m', decodeAll traits m.resetRead (values.map type) = .ok (some values, m')) ↔
        ∀ value ∈ values, value.IsTrivial)) ∧
    ((∀ old size, (alloc.realloc old size).isSome) → (∀ value ∈ values, value.IsTrivial) →
      (values.map fun value => value.head.length).sum ≤ 2 ^ 31 →
      ∃ m m', encodeAll alloc traits .init values = .ok (true, m) ∧
        decodeAll traits m.resetRead (values.map type) = .ok (some values, m')) := by
  have hiff : ∀ m, encodeAll alloc traits .init values = .ok (true, m) →
      ((∃ m', decodeAll traits m.resetRead (values.map type) = .ok (some values, m')) ↔
        ∀ value ∈ values, value.IsTrivial) :=
    fun m hencoded => decodeAll_iff_of_unread hencoded rfl
  refine ⟨hiff, fun halloc htrivial hsize => ?_⟩
  have hroom : init.dataLength + (values.map fun value => value.head.length).sum ≤
      2 ^ 31 := (Nat.zero_add _).trans_le hsize
  obtain ⟨m, hencoded⟩ : ∃ m, encodeAll alloc traits .init values = .ok (true, m) :=
    encodeAll_returns halloc htrivial hroom
  obtain ⟨m', hdecoded⟩ := (hiff m hencoded).mpr htrivial
  exact ⟨m, m', hencoded, hdecoded⟩

end Values

/-! ## A class with one byte -/

/-- Memory that is cleared and never exhausted. -/
def Allocator.cleared : Allocator where
  realloc old size := some (old.take size ++ replicate (size - old.length) 0)
  length_eq := by
    intro old size new h
    cases h
    simp only [length_append, length_take, length_replicate]
    omega
  take_eq := by
    intro old size new h hle
    cases h
    rw [take_of_length_le hle, take_left]

/-- Objects that consist of one byte. -/
def Traits.byte : Traits UInt8 where
  getSerializableTag _ := 0
  createForSerializableTag _ := some 0
  serialize o m := m.encode .cleared [o]
  deserialize _ m :=
    match m.decode 1 with
    | (some [o], m) => .ok (true, o, m)
    | (_, m) => .ok (false, 0, m)
  appends h := by
    have hextends := extends_encode h
    exact ⟨hextends.data_eq ▸ prefix_append _ _, hextends.sizeRead_eq⟩

/-- Bytes are decoded to what was encoded. -/
lemma Traits.byte_inverts : Traits.byte.Inverts := by
  intro o m m' h
  refine ⟨0, rfl, fun r rest hunread => ?_⟩
  have hdata := (extends_encode h).data_eq
  rw [hdata, ← length_data, drop_left, if_pos rfl] at hunread
  obtain ⟨r', hdecode, hrest⟩ := decode_of_unread hunread (by simp)
  refine ⟨r', ?_, hrest⟩
  rw [Traits.byte]
  dsimp only
  rw [show 1 = [o].length from rfl, hdecode]

theorem roundTrip_two_values :
    ∃ m m', encodeAll .cleared .byte .init
        [.trivial [12, 0, 0, 0] (by decide), .trivial [97] (by decide)] = .ok (true, m) ∧
      decodeAll .byte m.resetRead [.trivial 4, .trivial 1] =
        .ok (some [.trivial [12, 0, 0, 0] (by decide), .trivial [97] (by decide)], m') :=
  (roundTrip_iff .cleared .byte
      [.trivial [12, 0, 0, 0] (by decide), .trivial [97] (by decide)]).2 (fun _ _ => rfl)
    (by simp [Value.IsTrivial]) (by decide)

/-- An object is decoded as a null pointer. A null pointer is not decoded at all. -/
theorem not_roundTrip_pointer :
    Traits.byte.Inverts ∧
    (∃ m m', encodeAll .cleared .byte .init [.pointer (some 7)] = .ok (true, m) ∧
      m.dataLength ≤ 2 ^ 31 ∧
      decodeAll .byte m.resetRead [.pointer] = .ok (some [.pointer none], m')) ∧
    ∃ m m', encodeAll .cleared .byte .init [.pointer none] = .ok (true, m) ∧
      m.dataLength ≤ 2 ^ 31 ∧ decodeAll .byte m.resetRead [.pointer] = .ok (none, m') :=
  ⟨Traits.byte_inverts, ⟨_, _, rfl, by decide, rfl⟩, _, _, rfl, by decide, rfl⟩

end Fml
