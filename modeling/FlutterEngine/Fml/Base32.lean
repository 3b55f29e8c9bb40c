import FlutterEngine.Lib.Bits

/-!
# Base32

`Base32Encode` and `Base32Decode`, which turn the keys of the persistent cache into file names and
back. Both move bits through a `BitConverter`, a queue of bits in an integer.

Strings are sequences of bytes. The type `char` is signed, so that a byte of at least `128` that is
not cast to `uint8_t` is a negative number. Where an assertion fails, where a negative number is
shifted to the left and where an array is read out of bounds, the result is `none`.
-/

namespace Fml

/-- A `char` as an `int`. -/
def intOfChar (c : UInt8) : ℤ := c.toBitVec.toInt

/-! ## Converting bits -/

/-- `BitConverter` -/
structure BitConverter (fromLength toLength bufferLength : ℕ) where
  buffer : ℕ
  lowerFreeBits : ℕ
deriving DecidableEq, Repr

namespace BitConverter

variable {fromLength toLength bufferLength : ℕ}

/-- A new `BitConverter`. -/
def init : BitConverter fromLength toLength bufferLength := ⟨0, bufferLength⟩

variable (converter : BitConverter fromLength toLength bufferLength)

/-- `BitsAvailable` -/
def bitsAvailable : ℕ := bufferLength - converter.lowerFreeBits

/-- `CanAppend` -/
def canAppend : Bool := fromLength ≤ converter.lowerFreeBits

/-- `CanExtract` -/
def canExtract : Bool := toLength ≤ converter.bitsAvailable

/-- `Peek` -/
def peek : ℕ := converter.buffer >>> (bufferLength - toLength)

/-- `Append`. That `bits` is not negative is not asserted, but shifting it is undefined if it is. -/
def append (bits : ℤ) : Option (BitConverter fromLength toLength bufferLength) :=
  if 0 ≤ bits ∧ bits < 2 ^ fromLength ∧ converter.canAppend then
    let lowerFreeBits := converter.lowerFreeBits - fromLength
    some ⟨converter.buffer ||| (bits.toNat <<< lowerFreeBits), lowerFreeBits⟩
  else none

/-- `Extract` -/
def extract : Option (ℕ × BitConverter fromLength toLength bufferLength) :=
  if converter.canExtract then
    let mask := 2 ^ bufferLength - 1
    some (converter.peek,
      ⟨(converter.buffer <<< toLength) &&& mask, converter.lowerFreeBits + toLength⟩)
  else none

end BitConverter

/-- `Base32DecodeConverter` -/
abbrev Base32DecodeConverter := BitConverter 5 8 16

/-- `Base32EncodeConverter` -/
abbrev Base32EncodeConverter := BitConverter 8 5 16

/-! ## Encoding -/

/-- `kEncoding` -/
def kEncoding : List UInt8 :=
  ['A', 'B', 'C', 'D', 'E', 'F', 'G', 'H', 'I', 'J', 'K', 'L', 'M', 'N', 'O', 'P', 'Q', 'R', 'S',
    'T', 'U', 'V', 'W', 'X', 'Y', 'Z', '2', '3', '4', '5', '6', '7'].map fun c => c.toNat.toUInt8

/-- The end of the loop's body in `Base32Encode`, with the bytes from `next_byte_index` on. -/
def appendNext (converter : Base32EncodeConverter) :
    List UInt8 → Option (Base32EncodeConverter × List UInt8)
  | byte :: rest =>
    if converter.canAppend then do
      let converter ← converter.append byte.toNat
      return (converter, rest)
    else
      return (converter, byte :: rest)
  | [] => some (converter, [])

/-- The loop of `Base32Encode`, which returns the characters that are pushed back. -/
def encodeLoop :
    ℕ → Base32EncodeConverter → List UInt8 → Option (List UInt8 × Base32EncodeConverter)
  | 0, _, _ => none
  | fuel + 1, converter, rest =>
    if converter.canExtract then do
      let (value, converter) ← converter.extract
      let c ← kEncoding[value]?
      let (converter, rest) ← appendNext converter rest
      let (output, converter) ← encodeLoop fuel converter rest
      return (c :: output, converter)
    else
      some ([], converter)

/-- `Base32Encode`, where `sizeMax` is the largest `size_t`. -/
def base32Encode (sizeMax : ℕ) (input : List UInt8) : Option (Bool × List UInt8) :=
  match input with
  | [] => some (true, [])
  | first :: rest =>
    if input.length > sizeMax / 8 then
      some (false, [])
    else do
      -- Unlike the other bytes, the first one is not cast.
      let converter ← BitConverter.init.append (intOfChar first)
      let (output, converter) ← encodeLoop (8 * input.length) converter rest
      if converter.bitsAvailable > 0 then do
        let c ← kEncoding[converter.peek]?
        return (true, output ++ [c])
      else
        return (true, output)

/-- `Base32Encode` where `char` is unsigned, so that the first byte is not negative either. -/
def base32EncodeUnsigned (sizeMax : ℕ) (input : List UInt8) : Option (Bool × List UInt8) :=
  match input with
  | [] => some (true, [])
  | first :: rest =>
    if input.length > sizeMax / 8 then
      some (false, [])
    else do
      let converter ← BitConverter.init.append first.toNat
      let (output, converter) ← encodeLoop (8 * input.length) converter rest
      if converter.bitsAvailable > 0 then do
        let c ← kEncoding[converter.peek]?
        return (true, output ++ [c])
      else
        return (true, output)

/-! ## Decoding -/

/-- `kDecodeMap`, starting from ASCII 50 `'2'`. -/
def kDecodeMap : List ℤ :=
  [26, 27, 28, 29, 30, 31, -1, -1, -1, -1, -1, -1, -1, -1,
    -1, 0, 1, 2, 3, 4, 5, 6, 7, 8, 9, 10, 11, 12,
    13, 14, 15, 16, 17, 18, 19, 20, 21, 22, 23, 24, 25]

/-- What a character stands for, if it is one of the encoding. -/
def decodeChar (c : UInt8) : Option ℤ :=
  let mapIndex := intOfChar c - 50
  if mapIndex < 0 then none
  else
    match kDecodeMap[mapIndex.toNat]? with
    | some value => if value = -1 then none else some value
    | none => none

/-- The loop of `Base32Decode`. The converter is missing if the loop is left early. -/
def decodeLoop : Base32DecodeConverter → List UInt8 → List UInt8 →
    Option (Option Base32DecodeConverter × List UInt8)
  | converter, result, [] => some (some converter, result)
  | converter, result, c :: input =>
    match decodeChar c with
    | none => some (none, result)
    | some value => do
      let converter ← converter.append value
      if converter.canExtract then do
        let (byte, converter) ← converter.extract
        decodeLoop converter (result ++ [byte.toUInt8]) input
      else
        decodeLoop converter result input

/-- `Base32Decode` -/
def base32Decode (input : List UInt8) : Option (Bool × List UInt8) := do
  let (converter, result) ← decodeLoop BitConverter.init [] input
  match converter with
  | none => return (false, result)
  -- The padding should always be zero.
  | some converter => return (converter.peek = 0, result)

end Fml
