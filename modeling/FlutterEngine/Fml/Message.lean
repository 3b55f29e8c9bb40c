import FlutterEngine.Lib.Bytes
import FlutterEngine.Lib.Outcome

/-!
# `fml::Message`

A `Message` is a buffer to which values are appended by `Encode` and from which they are read by
`Decode`. Three counters belong to it: `buffer_length_`, the size of the allocated memory, which
grows in powers of two, `data_length_`, the number of bytes that have been encoded, and
`size_read_`, the number of bytes that have been decoded.

* A trivially copyable value is the list of its bytes, which is never empty.
* `malloc` and `realloc` are an `Allocator`. They may fail, and the bytes that they add are
  arbitrary.
* `Serialize` and `Deserialize` of a `MessageSerializable` are arbitrary functions, together with
  what the traits add they are the `Traits` of its class.
* A program that fails a check, or that copies bytes beyond the end of the buffer, is a `Fault`. A
  sum of sizes is taken to fit into `size_t`; `NextPowerOfTwoSize` only has 32 bits.
-/

namespace Fml

open Lib Nat List

/-- `malloc` and `realloc`. The former is `realloc` of nothing. -/
structure Allocator where
  realloc : List UInt8 → ℕ → Option (List UInt8)
  length_eq : ∀ {old size new}, realloc old size = some new → new.length = size
  take_eq : ∀ {old size new}, realloc old size = some new → old.length ≤ size →
    new.take old.length = old

/-- Why a program does not go on. -/
inductive Fault where
  | check
  | outOfBounds
deriving DecidableEq, Repr

/-- `fml::Message`. Neither the data nor what has been read of it leaves the buffer. -/
structure Message where
  /-- `buffer_` -/
  buffer : Option (List UInt8)
  /-- `data_length_` -/
  dataLength : ℕ
  /-- `size_read_` -/
  sizeRead : ℕ
  dataLength_le : dataLength ≤ (buffer.getD []).length
  sizeRead_le : sizeRead ≤ (buffer.getD []).length
deriving DecidableEq

/-- `NextPowerOfTwoSize` -/
def nextPowerOfTwoSize (x : UInt32) : UInt32 :=
  if x = 0 then 1
  else
    let x := x - 1
    let x := x ||| (x >>> 1)
    let x := x ||| (x >>> 2)
    let x := x ||| (x >>> 4)
    let x := x ||| (x >>> 8)
    let x := x ||| (x >>> 16)
    x + 1

namespace Message

/-- The constructor of `Message`. -/
def init : Message := ⟨none, 0, 0, le_refl 0, le_refl 0⟩

variable (m : Message)

/-- `buffer_length_` -/
def bufferLength : ℕ := (m.buffer.getD []).length

/-- The bytes that have been encoded. -/
def data : List UInt8 := (m.buffer.getD []).take m.dataLength

/-- Replace the memory by more memory. -/
def withBuffer (memory : List UInt8) (h : m.bufferLength ≤ memory.length) : Message :=
  ⟨some memory, m.dataLength, m.sizeRead, le_trans m.dataLength_le h, le_trans m.sizeRead_le h⟩

variable (alloc : Allocator)

/-- `Resize` -/
def resize (m : Message) (size : ℕ) : Except Fault (Bool × Message) :=
  match hbuffer : m.buffer with
  | none =>
    match alloc.realloc [] size with
    | some memory => .ok (true, m.withBuffer memory (by simp [bufferLength, hbuffer]))
    | none => .ok (false, m)
  | some old =>
    if hsize : m.bufferLength < size then
      match hmemory : alloc.realloc old size with
      | some memory =>
        .ok (true, m.withBuffer memory (by
          rw [alloc.length_eq hmemory]
          exact Nat.le_of_lt hsize))
      | none => .ok (false, m)
    -- the check that only more memory is asked for
    else .error .check

/-- `Reserve` -/
def reserve (m : Message) (size : ℕ) : Except Fault (Bool × Message) :=
  if size ≤ m.bufferLength then .ok (true, m)
  else m.resize alloc (nextPowerOfTwoSize (UInt32.ofNat size)).toNat

/-- Copy bytes behind the data. -/
def append (bytes : List UInt8) : Except Fault Message :=
  if h : m.dataLength + bytes.length ≤ m.bufferLength then
    .ok {
      buffer := some (m.data ++ bytes ++ (m.buffer.getD []).drop (m.dataLength + bytes.length))
      dataLength := m.dataLength + bytes.length
      sizeRead := m.sizeRead
      dataLength_le := by
        have hdata := m.dataLength_le
        simp only [bufferLength] at h
        simp only [Option.getD_some, length_append, data, length_take, length_drop]
        omega
      sizeRead_le := by
        have hdata := m.dataLength_le
        have hread := m.sizeRead_le
        simp only [bufferLength] at h
        simp only [Option.getD_some, length_append, data, length_take, length_drop]
        omega }
  else .error .outOfBounds

/-- `Encode` of a trivially copyable value, with `PrepareEncode`. -/
def encode (m : Message) (bytes : List UInt8) : Except Fault (Bool × Message) := do
  let (reserved, m) ← m.reserve alloc (m.dataLength + bytes.length)
  if reserved then return (true, ← m.append bytes)
  else return (false, m)

/-- `Decode` of a trivially copyable value, with `PrepareDecode`. -/
def decode (size : ℕ) : Option (List UInt8) × Message :=
  if h : m.bufferLength < size + m.sizeRead then (none, m)
  else
    (some (((m.buffer.getD []).drop m.sizeRead).take size),
      ⟨m.buffer, m.dataLength, m.sizeRead + size, m.dataLength_le, by
        rw [Nat.add_comm]; exact Nat.not_lt.mp h⟩)

/-- `ResetRead` -/
def resetRead : Message := ⟨m.buffer, m.dataLength, 0, m.dataLength_le, zero_le _⟩

end Message

/-! ## Pointers -/

/-- A class derived from `MessageSerializable`, with its traits. `Serialize` encodes something into
the message and otherwise leaves it as it is. -/
structure Traits (O : Type) where
  getSerializableTag : O → BitVec 64
  createForSerializableTag : BitVec 64 → Option O
  serialize : O → Message → Except Fault (Bool × Message)
  deserialize : O → Message → Except Fault (Bool × O × Message)
  appends : ∀ {o m success m'}, serialize o m = .ok (success, m') →
    m.data <+: m'.data ∧ m'.sizeRead = m.sizeRead

/-- A value that can be encoded, a trivially copyable one or a `std::unique_ptr`. -/
inductive Value (O : Type) where
  | trivial (bytes : List UInt8) (nonempty : bytes ≠ [])
  | pointer (object : Option O)

/-- The types of values. -/
inductive ValueType where
  | trivial (size : ℕ)
  | pointer
deriving DecidableEq, Repr

def Value.type {O : Type} : Value O → ValueType
  | .trivial bytes _ => .trivial bytes.length
  | .pointer _ => .pointer

section Pointers

variable {O : Type}

/-- `Encode` of a value. -/
def encodeValue (alloc : Allocator) (traits : Traits O) (m : Message) :
    Value O → Except Fault (Bool × Message)
  | .trivial bytes _ => m.encode alloc bytes
  -- "Encode if null": the byte says that there is an object
  | .pointer object => do
    let (success, m) ← m.encode alloc [if object.isSome then 1 else 0]
    if ¬success then return (false, m)
    match object with
    | none => return (true, m)
    | some o =>
      let (success, m) ← m.encode alloc (Endian.little.bytes 8 (traits.getSerializableTag o))
      if ¬success then return (false, m)
      traits.serialize o m

/-- `Decode` of a value of a type. A pointer is null before. What is not decoded is `none`. -/
def decodeValue (traits : Traits O) (m : Message) :
    ValueType → Except Fault (Option (Value O) × Message)
  | .trivial size =>
    match m.decode size with
    | (some bytes, m) =>
      -- no type has size 0
      if h : bytes = [] then .ok (none, m) else .ok (some (.trivial bytes h), m)
    | (none, m) => .ok (none, m)
  | .pointer =>
    match m.decode 1 with
    | (none, m) => .ok (none, m)
    | (some isNull, m) =>
      -- "Decode if null": the byte is taken to say that there is none
      if isNull ≠ [0] then .ok (some (.pointer none), m)
      else
        match m.decode 8 with
        | (none, m) => .ok (none, m)
        | (some tag, m) =>
          match traits.createForSerializableTag (Endian.little.word 64 tag) with
          | none => .ok (none, m)
          | some o => do
            let (success, o, m) ← traits.deserialize o m
            if success then return (some (.pointer (some o)), m) else return (none, m)

/-- Encode one value after the other. -/
def encodeAll (alloc : Allocator) (traits : Traits O) (m : Message) :
    List (Value O) → Except Fault (Bool × Message)
  | [] => .ok (true, m)
  | value :: values => do
    let (success, m) ← encodeValue alloc traits m value
    if success then encodeAll alloc traits m values else return (false, m)

/-- Decode one value after the other. -/
def decodeAll (traits : Traits O) (m : Message) :
    List ValueType → Except Fault (Option (List (Value O)) × Message)
  | [] => .ok (some [], m)
  | type :: types => do
    let (value, m) ← decodeValue traits m type
    match value with
    | none => return (none, m)
    | some value =>
      let (values, m) ← decodeAll traits m types
      return (values.map (value :: ·), m)

end Pointers

end Fml
