import FlutterEngine.Codec.EncodableValue
import FlutterEngine.Lib.AssocMap
import FlutterEngine.Lib.Bytes
import FlutterEngine.Lib.Stream

/-!
# The C++ standard codec

`byte_stream_wrappers.h` and `standard_codec.cc` of the C++ client wrapper: the byte streams, the
`StandardCodecSerializer` and the `StandardMessageCodec`. `size_t` is taken to be wide enough for
the positions and lengths that occur.

A reader is a `Parser` over the message, with `location_` as its position. It reports a read past
the end on `std::cerr` and goes on, so reading never fails in the source. The two errors of the
model are the ones to be ruled out: indexing outside the message, and running out of `fuel`, which
bounds the depth of the recursion.

What a run can depend on beside the message is a `Memory`: what the locals that `ReadSize` does not
initialise held before, and at which addresses the keys of maps are allocated.
-/

namespace Flutter

open Lib Parser List

/-! ## Streams -/

/-- What must not happen while reading. -/
inductive Fault
  | outOfBounds
  | outOfFuel
deriving DecidableEq, Repr

/-- A reader of a message in C++. -/
abbrev StreamReader := Parser UInt8 Fault

namespace ByteBufferStreamReader

/-- `bytes_[location]` -/
def byteAt (bytes : List UInt8) (location : ℕ) : Except Fault UInt8 :=
  match bytes[location]? with
  | some byte => .ok byte
  | none => .error .outOfBounds

/-- The bytes that `std::memcpy(buffer, &bytes_[location], length)` copies. -/
def copy (bytes : List UInt8) (location : ℕ) : ℕ → Except Fault (List UInt8)
  | 0 => .ok []
  | length + 1 => do
    let byte ← byteAt bytes location
    let rest ← copy bytes (location + 1) length
    return byte :: rest

/-- `ByteBufferStreamReader::ReadByte` -/
def readByte : StreamReader UInt8 where
  parse bytes location :=
    if location ≥ bytes.length then .ok (0, location)
    else do
      let byte ← byteAt bytes location
      return (byte, location + 1)

/-- `ByteBufferStreamReader::ReadBytes`, which returns the contents of `buffer`. -/
def readBytes (buffer : List UInt8) (length : ℕ) : StreamReader (List UInt8) where
  parse bytes location :=
    if location + length > bytes.length then .ok (buffer, location)
    else do
      let data ← copy bytes location length
      return (data ++ buffer.drop length, location + length)

/-- `ByteBufferStreamReader::ReadAlignment` -/
def readAlignment (alignment : ℕ) : StreamReader Unit where
  parse _ location :=
    let mod := location % alignment
    if mod ≠ 0 then .ok ((), location + (alignment - mod)) else .ok ((), location)

end ByteBufferStreamReader

namespace ByteBufferStreamWriter

/-- `ByteBufferStreamWriter::WriteByte` -/
def writeByte (byte : UInt8) (bytes : List UInt8) : List UInt8 := bytes ++ [byte]

/-- `ByteBufferStreamWriter::WriteBytes` -/
def writeBytes (data bytes : List UInt8) : List UInt8 := bytes ++ data

/-- `ByteBufferStreamWriter::WriteAlignment` -/
def writeAlignment (alignment : ℕ) (bytes : List UInt8) : List UInt8 :=
  let mod := bytes.length % alignment
  if mod ≠ 0 then (writeByte 0)^[alignment - mod] bytes else bytes

end ByteBufferStreamWriter

open ByteBufferStreamReader ByteBufferStreamWriter

/-- What the run of a reader depends on beside the message. -/
structure Memory where
  /-- The contents of `uint16_t value` before `ReadSize` runs at a location. -/
  size16 : ℕ → BitVec 16
  /-- The contents of `uint32_t value` before `ReadSize` runs at a location. -/
  size32 : ℕ → BitVec 32
  /-- The address of each key of the map read at a location. -/
  keyAddress : ℕ → ℕ → ℕ
  /-- No two keys are at the same address. -/
  keyAddress_injective : ∀ location, Function.Injective (keyAddress location)

namespace StandardCodecSerializer

variable (e : Endian)

/-! ## Writing -/

/-- `EncodedTypeForValue`: the `EncodedType` of a value, as the byte that is written. -/
def encodedTypeForValue : EncodableValue → UInt8
  | .leaf .null => 0
  | .leaf (.bool b) => if b then 1 else 2
  | .leaf (.int _) => 3
  | .leaf (.long _) => 4
  | .leaf (.double _) => 6
  | .leaf (.string _) => 7
  | .leaf (.byteList _) => 8
  | .leaf (.intList _) => 9
  | .leaf (.longList _) => 10
  | .leaf (.doubleList _) => 11
  | .list _ => 12
  | .map _ => 13

/-- `StandardCodecSerializer::WriteSize` -/
def writeSize (size : ℕ) (stream : List UInt8) : List UInt8 :=
  if size < 254 then writeByte (UInt8.ofNat size) stream
  else if size ≤ 0xffff then
    writeBytes (e.bytes 2 (BitVec.ofNat 16 size)) (writeByte 254 stream)
  else
    writeBytes (e.bytes 4 (BitVec.ofNat 32 size)) (writeByte 255 stream)

/-- `StandardCodecSerializer::WriteVector`, for elements of `typeSize` bytes. -/
def writeVector (typeSize : ℕ) {w : ℕ} (vector : List (BitVec w)) (stream : List UInt8) :
    List UInt8 :=
  let count := vector.length
  let stream := writeSize e count stream
  if count = 0 then stream
  else
    let stream := if typeSize > 1 then writeAlignment typeSize stream else stream
    writeBytes (e.arrayBytes typeSize vector) stream

/-- The part of `WriteValue` behind the type byte, for values without nested values. -/
def writeLeaf : EncodableLeaf → List UInt8 → List UInt8
  | .null, stream => stream
  | .bool _, stream => stream
  | .int v, stream => writeBytes (e.bytes 4 v) stream
  | .long v, stream => writeBytes (e.bytes 8 v) stream
  | .double v, stream => writeBytes (e.bytes 8 v) (writeAlignment 8 stream)
  | .string v, stream =>
    let stream := writeSize e v.length stream
    if v.length > 0 then writeBytes v stream else stream
  | .byteList v, stream => writeVector e 1 v stream
  | .intList v, stream => writeVector e 4 v stream
  | .longList v, stream => writeVector e 8 v stream
  | .doubleList v, stream => writeVector e 8 v stream

mutual

/-- `StandardCodecSerializer::WriteValue` -/
def writeValue : EncodableValue → List UInt8 → List UInt8
  | .leaf l, stream => writeLeaf e l (writeByte (encodedTypeForValue (.leaf l)) stream)
  | .list l, stream =>
    writeItems l (writeSize e l.length (writeByte (encodedTypeForValue (.list l)) stream))
  | .map m, stream =>
    writePairs m (writeSize e m.length (writeByte (encodedTypeForValue (.map m)) stream))

/-- The loop of `WriteValue` over a list. -/
def writeItems : List EncodableValue → List UInt8 → List UInt8
  | [], stream => stream
  | item :: l, stream => writeItems l (writeValue item stream)

/-- The loop of `WriteValue` over a map. -/
def writePairs : List (EncodableValue × EncodableValue) → List UInt8 → List UInt8
  | [], stream => stream
  | (key, value) :: m, stream => writePairs m (writeValue value (writeValue key stream))

end

/-! ## Reading -/

variable (memory : Memory)

/-- `StandardCodecSerializer::ReadSize` -/
def readSize : StreamReader ℕ := do
  let location ← position
  let byte ← readByte
  if byte < 254 then
    return byte.toNat
  else if byte = 254 then
    let value ← readBytes (e.bytes 2 (memory.size16 location)) 2
    return (e.word 16 value).toNat
  else
    let value ← readBytes (e.bytes 4 (memory.size32 location)) 4
    return (e.word 32 value).toNat

/-- `StandardCodecSerializer::ReadVector`, for elements of `typeSize` bytes. The elements of a
vector are zero after `resize`. -/
def readVector (w typeSize : ℕ) : StreamReader (List (BitVec w)) := do
  let count ← readSize e memory
  let _ ← (if typeSize > 1 then readAlignment typeSize else pure () : StreamReader Unit)
  let data ← readBytes (replicate (count * typeSize) 0) (count * typeSize)
  return e.words w typeSize count data

/-- The `EncodableMap` into which the given entries were emplaced one after the other, with the
keys at the given addresses. -/
def emplaceEntries (address : ℕ → ℕ) (entries : List (EncodableValue × EncodableValue)) :
    List (EncodableValue × EncodableValue) :=
  (emplaceAll EncodableValue.less
    (entries.zipIdx.map fun (entry, i) => ((address i, entry.1), entry.2))).map
    fun entry => (entry.1.2, entry.2)

/-- The cases of `ReadValue` behind the type byte, with `read` for the recursive calls. An integer
outside the enumerators of `EncodedType` passes through the `switch`. -/
def readTyped (read : StreamReader EncodableValue) (type : UInt8) : StreamReader EncodableValue :=
  match type.toNat with
  | 0 => return .leaf .null
  | 1 => return .leaf (.bool true)
  | 2 => return .leaf (.bool false)
  | 3 => do
    let intValue ← readBytes (replicate 4 0) 4
    return .leaf (.int (e.word 32 intValue))
  | 4 => do
    let longValue ← readBytes (replicate 8 0) 8
    return .leaf (.long (e.word 64 longValue))
  | 6 => do
    readAlignment 8
    let doubleValue ← readBytes (replicate 8 0) 8
    return .leaf (.double (e.word 64 doubleValue))
  -- `kLargeInt` is read as a string.
  | 5 | 7 => do
    let size ← readSize e memory
    let stringValue ← readBytes (replicate size 0) size
    return .leaf (.string stringValue)
  | 8 => do return .leaf (.byteList (← readVector e memory 8 1))
  | 9 => do return .leaf (.intList (← readVector e memory 32 4))
  | 10 => do return .leaf (.longList (← readVector e memory 64 8))
  | 11 => do return .leaf (.doubleList (← readVector e memory 64 8))
  | 12 => do
    let length ← readSize e memory
    let listValue ← read.times length
    return .list listValue
  | 13 => do
    let location ← position
    let length ← readSize e memory
    let entries ← times (do return (← read, ← read)) length
    return .map (emplaceEntries (memory.keyAddress location) entries)
  | _ => return .leaf .null

/-- `StandardCodecSerializer::ReadValue` -/
def readValue : ℕ → StreamReader EncodableValue
  | 0 => fail .outOfFuel
  | fuel + 1 => do
    let type ← readByte
    readTyped e memory (readValue fuel) type

end StandardCodecSerializer

namespace StandardMessageCodec

/-- `StandardMessageCodec::EncodeMessageInternal` -/
def encodeMessage (e : Endian) (message : EncodableValue) : List UInt8 :=
  StandardCodecSerializer.writeValue e message []

/-- `StandardMessageCodec::DecodeMessageInternal`: the decoded value, and the location at which
the reader stops. -/
def decodeMessage (e : Endian) (memory : Memory) (binaryMessage : List UInt8) :
    Except Fault (EncodableValue × ℕ) :=
  (StandardCodecSerializer.readValue e memory (binaryMessage.length + 1)).parse binaryMessage 0

end StandardMessageCodec

end Flutter
