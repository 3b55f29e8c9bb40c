import FlutterEngine.Lib.AssocMap
import FlutterEngine.Lib.Bytes
import FlutterEngine.Lib.Float64
import FlutterEngine.Lib.Stream
import FlutterEngine.Lib.Utf
import FlutterEngine.Lib.Value

/-!
# The Java standard codec

`StandardMessageCodec.java` of the Android embedding. The values are the objects that `writeValue`
supports, with the map as the list of its entries in the order of iteration. A `HashMap` iterates in
an order of its own, so nothing is to be concluded from the order of a map that was read, and what
is proved of a map that is written has to hold for every order.

The `ByteBuffer` that is read is the message of a `Parser`, in native byte order. Arrays and strings
are taken to fit into memory, and the stack to be deep enough: `fuel` bounds the depth of the
recursion, and running out of it is the one error that the source does not have.
-/

namespace Flutter.Java

open Lib Parser

/-! ## Values -/

/-- The objects that are neither lists nor maps. Floating-point numbers are given by their bits, a
`String` by its UTF-16 code units. -/
inductive JavaLeaf
  | null
  | boolean (v : Bool)
  | byte (v : BitVec 8)
  | short (v : BitVec 16)
  | integer (v : BitVec 32)
  | long (v : BitVec 64)
  | float (v : BitVec 32)
  | double (v : BitVec 64)
  | bigInteger (v : ℤ)
  | string (v : List UInt16)
  | byteArray (v : List (BitVec 8))
  | intArray (v : List (BitVec 32))
  | longArray (v : List (BitVec 64))
  | doubleArray (v : List (BitVec 64))
deriving DecidableEq, Repr

/-- An object that the codec supports. -/
abbrev JavaValue := Value JavaLeaf

/-- `Float.floatToIntBits` -/
def floatToIntBits (v : BitVec 32) : BitVec 32 :=
  if 0x7f800000 < v.toNat % 2 ^ 31 then 0x7fc00000 else v

/-- `Double.doubleToLongBits` -/
def doubleToLongBits (v : BitVec 64) : BitVec 64 := Float64.canonical v

namespace JavaValue

/-- `Object.equals` of different objects that are neither lists nor maps. Numbers of different
classes are different, and so are any two arrays. -/
def equalsLeaf : JavaLeaf → JavaLeaf → Bool
  | .null, .null => true
  | .boolean x, .boolean y => x == y
  | .byte x, .byte y => x == y
  | .short x, .short y => x == y
  | .integer x, .integer y => x == y
  | .long x, .long y => x == y
  | .float x, .float y => floatToIntBits x == floatToIntBits y
  | .double x, .double y => doubleToLongBits x == doubleToLongBits y
  | .bigInteger x, .bigInteger y => x == y
  | .string x, .string y => x == y
  | _, _ => false

mutual

/-- `Object.equals` -/
def equals : JavaValue → JavaValue → Bool
  | .leaf x, .leaf y => equalsLeaf x y
  | .list l, .list l' => equalsList l l'
  | .map m, .map m' => m.length == m'.length && equalsEntries m m'
  | _, _ => false

/-- `List.equals` -/
def equalsList : List JavaValue → List JavaValue → Bool
  | [], [] => true
  | v :: l, v' :: l' => equals v v' && equalsList l l'
  | _, _ => false

/-- Every entry of the first map is in the second, as `AbstractMap.equals` asks for. -/
def equalsEntries : List (JavaValue × JavaValue) → List (JavaValue × JavaValue) → Bool
  | [], _ => true
  | (k, v) :: m, m' => m'.any (fun entry => equals k entry.1 && equals v entry.2) &&
    equalsEntries m m'

end

end JavaValue

/-- What the class library does that the codec does not determine. -/
structure Runtime where
  /-- `new String(bytes, UTF8)` -/
  newString : List UInt8 → List UInt16
  /-- Bytes that are a text are decoded. What becomes of other bytes is left open. -/
  newString_utf8 : ∀ s, newString (utf8 s) = utf16 s
  /-- `new BigInteger(val, 16)`, with `none` for a `NumberFormatException`. -/
  newBigInteger : List UInt16 → Option ℤ

/-- `String.getBytes(UTF8)`, which replaces lone surrogates by question marks. -/
def getBytes (s : List UInt16) : List UInt8 := transcode [0x3f] s

/-- `BigInteger.toString(16)` -/
def hexString (v : ℤ) : List UInt16 :=
  utf16 ((if v < 0 then ['-'] else []) ++ Nat.toDigits 16 v.natAbs)

namespace StandardMessageCodec

variable (e : Endian)

/-! ## Writing -/

/-- `ByteArrayOutputStream.write(int)`, which writes the eight low-order bits. -/
def write {w : ℕ} (b : BitVec w) (stream : List UInt8) : List UInt8 :=
  stream ++ [UInt8.ofNat b.toNat]

/-- `writeChar` -/
def writeChar (value : BitVec 32) (stream : List UInt8) : List UInt8 :=
  match e with
  | .little => stream |> write value |> write (value >>> 8)
  | .big => stream |> write (value >>> 8) |> write value

/-- `writeInt` -/
def writeInt (value : BitVec 32) (stream : List UInt8) : List UInt8 :=
  match e with
  | .little =>
    stream |> write value |> write (value >>> 8) |> write (value >>> 16) |> write (value >>> 24)
  | .big =>
    stream |> write (value >>> 24) |> write (value >>> 16) |> write (value >>> 8) |> write value

/-- `writeLong` -/
def writeLong (value : BitVec 64) (stream : List UInt8) : List UInt8 :=
  match e with
  | .little =>
    stream |> write value |> write (value >>> 8) |> write (value >>> 16) |> write (value >>> 24)
      |> write (value >>> 32) |> write (value >>> 40) |> write (value >>> 48)
      |> write (value >>> 56)
  | .big =>
    stream |> write (value >>> 56) |> write (value >>> 48) |> write (value >>> 40)
      |> write (value >>> 32) |> write (value >>> 24) |> write (value >>> 16)
      |> write (value >>> 8) |> write value

/-- `writeDouble` -/
def writeDouble (value : BitVec 64) (stream : List UInt8) : List UInt8 :=
  writeLong e (doubleToLongBits value) stream

/-- `writeSize`, for a size that is an `int`. -/
def writeSize (value : ℕ) (stream : List UInt8) : List UInt8 :=
  if value < 254 then write (BitVec.ofNat 32 value) stream
  else if value ≤ 0xffff then
    stream |> write (254 : BitVec 32) |> writeChar e (BitVec.ofNat 32 value)
  else stream |> write (255 : BitVec 32) |> writeInt e (BitVec.ofNat 32 value)

/-- `writeBytes` -/
def writeBytes (bytes stream : List UInt8) : List UInt8 := writeSize e bytes.length stream ++ bytes

/-- `writeAlignment` -/
def writeAlignment (alignment : ℕ) (stream : List UInt8) : List UInt8 :=
  let mod := stream.length % alignment
  if mod ≠ 0 then (write (0 : BitVec 32))^[alignment - mod] stream else stream

/-- The branches of `writeValue` for `int[]`, `long[]` and `double[]` behind the type byte. -/
def writeArray {w : ℕ} (alignment : ℕ) (writeElement : BitVec w → List UInt8 → List UInt8)
    (array : List (BitVec w)) (stream : List UInt8) : List UInt8 :=
  let stream := stream |> writeSize e array.length |> writeAlignment alignment
  array.foldl (fun stream n => writeElement n stream) stream

/-- The branches of `writeValue` for objects that are neither lists nor maps. -/
def writeLeaf : JavaLeaf → List UInt8 → List UInt8
  | .null, stream => write (0 : BitVec 8) stream
  | .boolean true, stream => write (1 : BitVec 8) stream
  | .boolean false, stream => write (2 : BitVec 8) stream
  | .integer v, stream => stream |> write (3 : BitVec 8) |> writeInt e v
  | .short v, stream => stream |> write (3 : BitVec 8) |> writeInt e (v.signExtend 32)
  | .byte v, stream => stream |> write (3 : BitVec 8) |> writeInt e (v.signExtend 32)
  | .long v, stream => stream |> write (4 : BitVec 8) |> writeLong e v
  | .float v, stream =>
    stream |> write (6 : BitVec 8) |> writeAlignment 8 |> writeDouble e (Float64.ofFloat32 v)
  | .double v, stream => stream |> write (6 : BitVec 8) |> writeAlignment 8 |> writeDouble e v
  | .bigInteger v, stream => stream |> write (5 : BitVec 8) |> writeBytes e (getBytes (hexString v))
  | .string v, stream => stream |> write (7 : BitVec 8) |> writeBytes e (getBytes v)
  | .byteArray v, stream => stream |> write (8 : BitVec 8) |> writeBytes e (v.map UInt8.ofBitVec)
  | .intArray v, stream => stream |> write (9 : BitVec 8) |> writeArray e 4 (writeInt e) v
  | .longArray v, stream => stream |> write (10 : BitVec 8) |> writeArray e 8 (writeLong e) v
  | .doubleArray v, stream => stream |> write (11 : BitVec 8) |> writeArray e 8 (writeDouble e) v

mutual

/-- `writeValue` -/
def writeValue : JavaValue → List UInt8 → List UInt8
  | .leaf l, stream => writeLeaf e l stream
  | .list l, stream => writeItems l (stream |> write (12 : BitVec 8) |> writeSize e l.length)
  | .map m, stream => writeEntries m (stream |> write (13 : BitVec 8) |> writeSize e m.length)

/-- The loop of `writeValue` over a list. -/
def writeItems : List JavaValue → List UInt8 → List UInt8
  | [], stream => stream
  | o :: l, stream => writeItems l (writeValue o stream)

/-- The loop of `writeValue` over the entries of a map. -/
def writeEntries : List (JavaValue × JavaValue) → List UInt8 → List UInt8
  | [], stream => stream
  | (key, value) :: m, stream => writeEntries m (writeValue value (writeValue key stream))

end

/-- `encodeMessage` -/
def encodeMessage (message : JavaValue) : Option (List UInt8) :=
  match message with
  | .leaf .null => none
  | message => some (writeValue e message [])

end StandardMessageCodec

/-! ## Reading -/

/-- The exceptions that reading can end with. -/
inductive JavaException
  /-- An `IllegalArgumentException` of the codec. -/
  | illegalArgument (message : String)
  /-- The `IllegalArgumentException` of `ByteBuffer.position` beyond the limit. -/
  | illegalPosition
  /-- The `IllegalArgumentException` of `new ArrayList` for a negative capacity. -/
  | illegalCapacity
  | bufferUnderflow
  | negativeArraySize
  | numberFormat
  | outOfFuel
deriving DecidableEq, Repr

/-- A reader of a `ByteBuffer`. -/
abbrev BufferReader := Parser UInt8 JavaException

namespace ByteBuffer

/-- `ByteBuffer.hasRemaining` -/
def hasRemaining : BufferReader Bool := remaining

/-- `ByteBuffer.get()` -/
def get : BufferReader UInt8 := next .bufferUnderflow

/-- `ByteBuffer.get(byte[])`, for an array of the given length. -/
def getArray (length : ℕ) : BufferReader (List UInt8) := take .bufferUnderflow length

/-- `getChar`, `getInt`, `getLong` and `getDouble` of a `ByteBuffer`: a word of `n` bytes. -/
def getWord (e : Endian) (w n : ℕ) : BufferReader (BitVec w) := do
  let bytes ← take .bufferUnderflow n
  return e.word w bytes

/-- `ByteBuffer.position(int)` -/
def setPosition (newPosition : ℕ) : BufferReader Unit where
  parse buffer _ :=
    if newPosition > buffer.length then .error .illegalPosition else .ok ((), newPosition)

end ByteBuffer

open ByteBuffer

namespace StandardMessageCodec

variable (e : Endian)

/-- `readSize` -/
def readSize : BufferReader ℤ := do
  let remaining ← hasRemaining
  if remaining = false then
    fail (.illegalArgument "Message corrupted")
  else do
    let value ← get
    if value < 254 then
      return value.toNat
    else if value = 254 then
      let value ← getWord e 16 2
      return value.toNat
    else
      let value ← getWord e 32 4
      return value.toInt

/-- `readBytes` -/
def readBytes : BufferReader (List UInt8) := do
  let length ← readSize e
  if length < 0 then fail .negativeArraySize
  else getArray length.toNat

/-- `readAlignment` -/
def readAlignment (alignment : ℕ) : BufferReader Unit := do
  let position ← position
  if position % alignment ≠ 0 then setPosition (position + alignment - position % alignment)
  else return ()

/-- The cases of `readValueOfType` for arrays of words of `n` bytes. The array is filled through a
view of the buffer, and then the position of the buffer is moved behind it. -/
def readArray (w n : ℕ) : BufferReader (List (BitVec w)) := do
  let length ← readSize e
  if length < 0 then fail .negativeArraySize
  else do
    readAlignment n
    let bytes ← getArray (n * length.toNat)
    return e.words w n length.toNat bytes

variable (runtime : Runtime)

/-- `readValueOfType`, with `read` for the recursive calls of `readValue`. -/
def readValueOfType (read : BufferReader JavaValue) (type : UInt8) : BufferReader JavaValue :=
  match type.toNat with
  | 0 => return .leaf .null
  | 1 => return .leaf (.boolean true)
  | 2 => return .leaf (.boolean false)
  | 3 => do return .leaf (.integer (← getWord e 32 4))
  | 4 => do return .leaf (.long (← getWord e 64 8))
  | 5 => do
    let hex ← readBytes e
    match runtime.newBigInteger (runtime.newString hex) with
    | some v => return .leaf (.bigInteger v)
    | none => fail .numberFormat
  | 6 => do
    readAlignment 8
    return .leaf (.double (← getWord e 64 8))
  | 7 => do return .leaf (.string (runtime.newString (← readBytes e)))
  | 8 => do return .leaf (.byteArray ((← readBytes e).map UInt8.toBitVec))
  | 9 => do return .leaf (.intArray (← readArray e 32 4))
  | 10 => do return .leaf (.longArray (← readArray e 64 8))
  | 11 => do return .leaf (.doubleArray (← readArray e 64 8))
  | 12 => do
    let size ← readSize e
    if size < 0 then fail .illegalCapacity
    else do
      let list ← read.times size.toNat
      return .list list
  -- A negative size is not noticed here: the loop does not run.
  | 13 => do
    let size ← readSize e
    let entries ← times (do return (← read, ← read)) size.toNat
    return .map (putAll JavaValue.equals entries)
  | _ => fail (.illegalArgument "Message corrupted")

/-- `readValue` -/
def readValue : ℕ → BufferReader JavaValue
  | 0 => fail .outOfFuel
  | fuel + 1 => do
    let remaining ← hasRemaining
    if remaining = false then
      fail (.illegalArgument "Message corrupted")
    else do
      let type ← get
      readValueOfType e runtime (readValue fuel) type

/-- `decodeMessage` -/
def decodeMessage (message : Option (List UInt8)) : Except JavaException JavaValue :=
  match message with
  | none => .ok (.leaf .null)
  | some bytes => do
    let (value, position) ← (readValue e runtime (bytes.length + 1)).parse bytes 0
    if position < bytes.length then .error (.illegalArgument "Message corrupted")
    else .ok value

end StandardMessageCodec

end Flutter.Java
