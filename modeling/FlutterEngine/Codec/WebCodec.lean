import FlutterEngine.Lib.AssocMap
import FlutterEngine.Lib.Bytes
import FlutterEngine.Lib.Float64
import FlutterEngine.Lib.Stream
import FlutterEngine.Lib.Utf
import FlutterEngine.Lib.Value

/-!
# The Dart standard codec of the web engine

`WriteBuffer` and `ReadBuffer` of `serialization.dart` and the `StandardMessageCodec` of
`message_codecs.dart`, as they run in a browser. The library is compiled to JavaScript, and there a
number is a double: `value is double` holds for each of them, also for those that are an `int`, and
is tested first. An `Int64List` cannot be created, and the 64-bit accessors of a `ByteData` throw an
`UnsupportedError`.

* `DartValue` are the objects, with `equals` for the operator `==`. A map is the list of its entries
  in the order of insertion, which is the order of iteration.
* `writeValue` and `encodeMessage` write them, `readValue` and `decodeMessage` read them.

The `ByteData` that is read is taken to reach to the end of its buffer. `fuel` bounds the depth of
the recursion, and running out of it is the one error that the source does not have.
-/

namespace Flutter.Web

open Lib Parser

/-! ## Values -/

/-- The objects that are neither lists nor maps. A number, whether it is an `int` or not, is given
by the bits of a double, a `String` by its UTF-16 code units. -/
inductive DartLeaf
  | null
  | bool (v : Bool)
  | num (v : BitVec 64)
  | string (v : List UInt16)
  | uint8List (v : List (BitVec 8))
  | int32List (v : List (BitVec 32))
  | float64List (v : List (BitVec 64))
deriving DecidableEq, Repr

/-- An object that the codec supports. -/
abbrev DartValue := Value DartLeaf

/-- A text without a byte order mark at its start. -/
def dropBom : List Char → List Char
  | c :: s => if c = Char.ofNat 0xfeff then s else c :: s
  | [] => []

/-- What the core libraries do that the codec does not determine. -/
structure Runtime where
  /-- `utf8.decoder.convert`, with `none` for a `FormatException`. -/
  decodeUtf8 : List UInt8 → Option (List UInt16)
  /-- Bytes that are a text are decoded, but for a byte order mark at the start. What becomes of
  other bytes is left open. -/
  decodeUtf8_utf8 : ∀ s, decodeUtf8 (utf8 s) = some (utf16 (dropBom s))
  /-- `int.parse` with radix 16, with `none` for a `FormatException`. -/
  parseHex : List UInt16 → Option (BitVec 64)

/-- `utf8.encoder.convert`, which encodes U+FFFD for lone surrogates. -/
def encodeUtf8 (s : List UInt16) : List UInt8 := transcode [0xef, 0xbf, 0xbd] s

namespace DartValue

/-- The operator `==` on different objects that are neither lists nor maps. -/
def equalsLeaf : DartLeaf → DartLeaf → Bool
  | .null, .null => true
  | .bool x, .bool y => x == y
  | .num x, .num y => Float64.eq x y
  | .string x, .string y => x == y
  | _, _ => false

/-- The operator `==` on different objects: lists and maps are equal to themselves only. -/
def equals : DartValue → DartValue → Bool
  | .leaf x, .leaf y => equalsLeaf x y
  | _, _ => false

end DartValue

/-! ## Writing -/

variable (e : Endian)

namespace WriteBuffer

/-- `WriteBuffer.putUint8` -/
def putUint8 (byte : ℕ) (buffer : List UInt8) : List UInt8 := buffer ++ [UInt8.ofNat byte]

/-- `putUint16` and `putUint32` of a `WriteBuffer`: a word of `n` bytes. -/
def putWord (n : ℕ) {w : ℕ} (value : BitVec w) (buffer : List UInt8) : List UInt8 :=
  buffer ++ e.bytes n value

/-- `WriteBuffer._alignTo` -/
def alignTo (alignment : ℕ) (buffer : List UInt8) : List UInt8 :=
  let mod := buffer.length % alignment
  if mod ≠ 0 then (putUint8 0)^[alignment - mod] buffer else buffer

/-- `WriteBuffer.putFloat64` -/
def putFloat64 (value : BitVec 64) (buffer : List UInt8) : List UInt8 :=
  buffer |> alignTo 8 |> putWord e 8 value

/-- `WriteBuffer.putUint8List` -/
def putUint8List (list buffer : List UInt8) : List UInt8 := buffer ++ list

/-- `putInt32List` and `putFloat64List` of a `WriteBuffer`. -/
def putList (n : ℕ) {w : ℕ} (list : List (BitVec w)) (buffer : List UInt8) : List UInt8 :=
  alignTo n buffer ++ e.arrayBytes n list

end WriteBuffer

open WriteBuffer

namespace StandardMessageCodec

/-- `writeSize` -/
def writeSize (value : ℕ) (buffer : List UInt8) : List UInt8 :=
  if value < 254 then putUint8 value buffer
  else if value ≤ 0xffff then buffer |> putUint8 254 |> putWord e 2 (BitVec.ofNat 16 value)
  else buffer |> putUint8 255 |> putWord e 4 (BitVec.ofNat 32 value)

/-- The branches of `writeValue` for objects that are neither lists nor maps. No object gets to
those for `int` and `Int64List`. -/
def writeLeaf : DartLeaf → List UInt8 → List UInt8
  | .null, buffer => putUint8 0 buffer
  | .bool v, buffer => putUint8 (if v then 1 else 2) buffer
  -- `value is double` comes before `value is int` and holds for both
  | .num v, buffer => buffer |> putUint8 6 |> putFloat64 e v
  | .string v, buffer =>
    let bytes := encodeUtf8 v
    buffer |> putUint8 7 |> writeSize e bytes.length |> putUint8List bytes
  | .uint8List v, buffer =>
    buffer |> putUint8 8 |> writeSize e v.length |> putUint8List (v.map UInt8.ofBitVec)
  | .int32List v, buffer => buffer |> putUint8 9 |> writeSize e v.length |> putList e 4 v
  | .float64List v, buffer => buffer |> putUint8 11 |> writeSize e v.length |> putList e 8 v

mutual

/-- `writeValue` -/
def writeValue : DartValue → List UInt8 → List UInt8
  | .leaf l, buffer => writeLeaf e l buffer
  | .list l, buffer => writeItems l (buffer |> putUint8 12 |> writeSize e l.length)
  | .map m, buffer => writeEntries m (buffer |> putUint8 13 |> writeSize e m.length)

/-- The loop of `writeValue` over a list. -/
def writeItems : List DartValue → List UInt8 → List UInt8
  | [], buffer => buffer
  | item :: l, buffer => writeItems l (writeValue item buffer)

/-- The loop of `writeValue` over the entries of a map. -/
def writeEntries : List (DartValue × DartValue) → List UInt8 → List UInt8
  | [], buffer => buffer
  | (key, value) :: m, buffer => writeEntries m (writeValue value (writeValue key buffer))

end

end StandardMessageCodec

/-- A `ByteData`: its bytes, and where they start in the underlying buffer. -/
structure ByteData where
  offsetInBytes : ℕ
  bytes : List UInt8

/-- `StandardMessageCodec.encodeMessage` -/
def StandardMessageCodec.encodeMessage (message : DartValue) : Option ByteData :=
  match message with
  | .leaf .null => none
  | message => some ⟨0, writeValue e message []⟩

/-! ## Reading -/

/-- The exceptions that reading can end with. -/
inductive DartException
  /-- A `FormatException` of the codec. -/
  | formatException (message : String)
  /-- A `FormatException` of `utf8.decoder` or `int.parse`. -/
  | malformed
  | rangeError
  /-- The `UnsupportedError` of what JavaScript does not have. -/
  | unsupported
  | outOfFuel
deriving DecidableEq, Repr

/-- A reader of a `ByteData`. -/
abbrev DataReader := Parser UInt8 DartException

namespace ReadBuffer

/-- `ReadBuffer.hasRemaining` -/
def hasRemaining : DataReader Bool := remaining

/-- `ReadBuffer.getUint8` -/
def getUint8 : DataReader UInt8 := next .rangeError

/-- `getUint16`, `getUint32` and `getInt32` of a `ReadBuffer`: a word of `n` bytes. -/
def getWord (w n : ℕ) : DataReader (BitVec w) := do
  let bytes ← take .rangeError n
  return e.word w bytes

/-- `ReadBuffer._alignTo` -/
def alignTo (alignment : ℕ) : DataReader Unit where
  parse _ position :=
    let mod := position % alignment
    if mod ≠ 0 then .ok ((), position + (alignment - mod)) else .ok ((), position)

/-- `ReadBuffer.getFloat64` -/
def getFloat64 : DataReader (BitVec 64) := do
  alignTo 8
  getWord e 64 8

/-- `getInt64` and `getInt64List` of a `ReadBuffer` -/
def getInt64 : DataReader DartValue := fail .unsupported

/-- `ReadBuffer.getUint8List` -/
def getUint8List (length : ℕ) : DataReader (List UInt8) := take .rangeError length

/-- `getInt32List` and `getFloat64List` of a `ReadBuffer`, which are views of the buffer and have to
be aligned there. -/
def getList (offsetInBytes w n length : ℕ) : DataReader (List (BitVec w)) := do
  alignTo n
  let position ← position
  if (offsetInBytes + position) % n ≠ 0 then fail .rangeError
  else do
    let bytes ← take .rangeError (n * length)
    return e.words w n length bytes

end ReadBuffer

open ReadBuffer

namespace StandardMessageCodec

/-- `readSize` -/
def readSize : DataReader ℕ := do
  let value ← getUint8
  if value = 254 then
    let value ← getWord e 16 2
    return value.toNat
  else if value = 255 then
    let value ← getWord e 32 4
    return value.toNat
  else
    return value.toNat

variable (runtime : Runtime)

/-- A string of `length` bytes. -/
def readString (length : ℕ) : DataReader (List UInt16) := do
  let bytes ← getUint8List length
  match runtime.decodeUtf8 bytes with
  | some s => return s
  | none => fail .malformed

variable (offsetInBytes : ℕ)

/-- `readValueOfType`, with `read` for the recursive calls of `readValue`. -/
def readValueOfType (read : DataReader DartValue) (type : UInt8) : DataReader DartValue :=
  match type.toNat with
  | 0 => return .leaf .null
  | 1 => return .leaf (.bool true)
  | 2 => return .leaf (.bool false)
  | 3 => do
    let v ← getWord e 32 4
    return .leaf (.num (Float64.ofInt v.toInt))
  | 4 => getInt64
  | 5 => do
    let length ← readSize e
    let hex ← readString runtime length
    match runtime.parseHex hex with
    | some v => return .leaf (.num v)
    | none => fail .malformed
  | 6 => do return .leaf (.num (← getFloat64 e))
  | 7 => do
    let length ← readSize e
    return .leaf (.string (← readString runtime length))
  | 8 => do
    let length ← readSize e
    let bytes ← getUint8List length
    return .leaf (.uint8List (bytes.map UInt8.toBitVec))
  | 9 => do
    let length ← readSize e
    return .leaf (.int32List (← getList e offsetInBytes 32 4 length))
  | 10 => do
    let _ ← readSize e
    getInt64
  | 11 => do
    let length ← readSize e
    return .leaf (.float64List (← getList e offsetInBytes 64 8 length))
  | 12 => do
    let length ← readSize e
    let result ← read.times length
    return .list result
  | 13 => do
    let length ← readSize e
    let entries ← times (do return (← read, ← read)) length
    return .map (putAll DartValue.equals entries)
  | _ => fail (.formatException "Message corrupted")

/-- `readValue` -/
def readValue : ℕ → DataReader DartValue
  | 0 => fail .outOfFuel
  | fuel + 1 => do
    let remaining ← hasRemaining
    if remaining = false then
      fail (.formatException "Message corrupted")
    else do
      let type ← getUint8
      readValueOfType e runtime offsetInBytes (readValue fuel) type

/-- `decodeMessage` -/
def decodeMessage (message : Option ByteData) : Except DartException DartValue :=
  match message with
  | none => .ok (.leaf .null)
  | some data => do
    let (result, position) ←
      (readValue e runtime data.offsetInBytes (data.bytes.length + 1)).parse data.bytes 0
    if position < data.bytes.length then .error (.formatException "Message corrupted")
    else .ok result

end StandardMessageCodec

end Flutter.Web
