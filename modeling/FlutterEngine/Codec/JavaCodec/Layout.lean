import FlutterEngine.Codec.Format
import FlutterEngine.Codec.JavaCodec

/-!
# The Java codec and the message format

What the Java `StandardMessageCodec` writes and what it reads, in terms of the values of the C++
wrapper.

* `Corresponds` says which leaf of a C++ value stands for which leaf of a Java value.
* `writeValue_eq`: `writeValue` writes the format with padding in front of no elements.
* `readValue_reads`: `readValue` reads that format.
-/

namespace Flutter.Java

open Lib Format ByteBuffer List Parser Emit Nat BitVec Endian

/-! ## Corresponding values -/

/-- The C++ value that Java's encoding stands for, where `bits` are the bits that stand for a
double. A `BigInteger` is read as a string by the C++ wrapper. -/
def JavaLeaf.toEncodable (bits : BitVec 64 → BitVec 64) : JavaLeaf → EncodableLeaf
  | .null => .null
  | .boolean v => .bool v
  | .byte v => .int (v.signExtend 32)
  | .short v => .int (v.signExtend 32)
  | .integer v => .int v
  | .long v => .long v
  | .float v => .double (bits (Float64.ofFloat32 v))
  | .double v => .double (bits v)
  | .bigInteger v => .string (getBytes (hexString v))
  | .string v => .string (getBytes v)
  | .byteArray v => .byteList v
  | .intArray v => .intList v
  | .longArray v => .longList v
  | .doubleArray v => .doubleList (v.map bits)

/-- A C++ value and a Java value that stand for the same, where `same` says when two doubles do. -/
def Corresponds (same : BitVec 64 → BitVec 64 → Prop) : EncodableLeaf → JavaLeaf → Prop
  | .null, .null => True
  | .bool v, .boolean v' => v = v'
  | .int v, .integer v' => v = v'
  | .long v, .long v' => v = v'
  | .double v, .double v' => same v v'
  | .string v, .string v' => ∃ s, v = utf8 s ∧ v' = utf16 s
  | .byteList v, .byteArray v' => v = v'
  | .intList v, .intArray v' => v = v'
  | .longList v, .longArray v' => v = v'
  | .doubleList v, .doubleArray v' => List.Forall₂ same v v'
  | _, _ => False

namespace StandardMessageCodec

variable {e : Endian}

/-! ## Writing -/

variable {w n : ℕ} {v : EncodableValue}

lemma write_eq (b : BitVec w) (stream : List UInt8) :
    write b stream = run (lit [UInt8.ofNat b.toNat]) stream := rfl

/-- What `writeChar` writes. -/
lemma writeChar_eq (hn : n ≤ 0xffff) (stream : List UInt8) :
    writeChar e (BitVec.ofNat 32 n) stream = run (lit (e.bytes 2 (BitVec.ofNat 16 n))) stream := by
  have h32 : (BitVec.ofNat 32 n).toNat = n := mod_eq_of_lt (by omega)
  have h16 : (BitVec.ofNat 16 n).toNat = n := mod_eq_of_lt (by omega)
  cases e <;>
    simp [writeChar, write, run, bytes, lowBytes, Nat.shiftRight_eq_div_pow, h32, h16, -toNat_ofNat]

/-- What `writeInt` writes. -/
lemma writeInt_eq (value : BitVec 32) (stream : List UInt8) :
    writeInt e value stream = run (lit (e.bytes 4 value)) stream := by
  cases e <;>
    simp [writeInt, write, run, bytes, lowBytes, Nat.shiftRight_eq_div_pow, Nat.div_div_eq_div_mul]

/-- What `writeLong` writes. -/
lemma writeLong_eq (value : BitVec 64) (stream : List UInt8) :
    writeLong e value stream = run (lit (e.bytes 8 value)) stream := by
  cases e <;>
    simp [writeLong, write, run, bytes, lowBytes, Nat.shiftRight_eq_div_pow, Nat.div_div_eq_div_mul]

/-- What `writeSize` writes. -/
lemma writeSize_eq (n : ℕ) (stream : List UInt8) :
    writeSize e n stream = run (lit (sizeBytes e n)) stream := by
  unfold writeSize sizeBytes
  split
  · next h => rw [write_eq, BitVec.toNat_ofNat, mod_eq_of_lt (by omega)]
  · split
    · next h =>
      rw [writeChar_eq h, lit_cons, run_append]
      rfl
    · rw [writeInt_eq, lit_cons, run_append]
      rfl

/-- What `writeBytes` writes. -/
lemma writeBytes_eq (bytes stream : List UInt8) :
    writeBytes e bytes stream = run (lit (sizeBytes e bytes.length) ++ lit bytes) stream := by
  rw [writeBytes, writeSize_eq, run_append]
  rfl

/-- What `writeAlignment` writes. -/
lemma writeAlignment_eq (alignment : ℕ) (stream : List UInt8) :
    writeAlignment alignment stream = run (pad 0 alignment) stream :=
  (run_pad stream (fun _ => rfl) alignment).symm

/-- An array is written with padding, whether it has elements or not. -/
theorem writeArray_eq {writeElement : BitVec w → List UInt8 → List UInt8}
    {bits : BitVec w → BitVec w}
    (h : ∀ v stream, writeElement v stream = run (lit (e.bytes n (bits v))) stream)
    (array : List (BitVec w)) (stream : List UInt8) :
    writeArray e n writeElement array stream =
      run (lit (sizeBytes e (array.map bits).length) ++
        emitElements e true n (array.map bits)) stream := by
  have hloop : ∀ stream, array.foldl (fun stream n => writeElement n stream) stream =
      run (lit (e.arrayBytes n (array.map bits))) stream := by
    induction array with
    | nil => exact fun stream => (List.append_nil stream).symm
    | cons v array ih =>
      intro stream
      rw [foldl_cons, ih, h]
      exact append_assoc _ _ _
  rw [emitElements_true, run_append, run_append, ← hloop, ← writeAlignment_eq,
    length_map, ← writeSize_eq]
  rfl

/-- No object is a `BigInteger`. -/
def NoBigInteger : JavaValue → Prop
  | .leaf (.bigInteger _) => False
  | _ => True

instance : DecidablePred NoBigInteger
  | .leaf (.bigInteger _) => inferInstanceAs (Decidable False)
  | .leaf .null | .leaf (.boolean _) | .leaf (.byte _) | .leaf (.short _) | .leaf (.integer _)
  | .leaf (.long _) | .leaf (.float _) | .leaf (.double _) | .leaf (.string _)
  | .leaf (.byteArray _) | .leaf (.intArray _) | .leaf (.longArray _) | .leaf (.doubleArray _)
  | .list _ | .map _ => inferInstanceAs (Decidable True)

/-- What is written for an object other than lists and maps. -/
lemma writeLeaf_eq {l : JavaLeaf} (hl : NoBigInteger (.leaf l)) (stream : List UInt8) :
    writeLeaf e l stream = run (emit e true (.leaf (l.toEncodable doubleToLongBits))) stream := by
  rw [emit_leaf, run_append]
  cases l with
  | bigInteger v => exact hl.elim
  | null => exact (run_nil _).symm
  | boolean v => cases v <;> exact (run_nil _).symm
  | byte v | short v | integer v => exact writeInt_eq _ _
  | long v => exact writeLong_eq _ _
  | float v | double v =>
    simp only [writeLeaf, JavaLeaf.toEncodable, emitData, run_append, writeDouble,
      writeLong_eq, writeAlignment_eq]
    rfl
  | string v => exact writeBytes_eq _ _
  | byteArray v =>
    simp only [writeLeaf, JavaLeaf.toEncodable, emitData, emitElements_true, arrayBytes_one,
      pad_one, Emit.nil_append, writeBytes_eq, length_map]
    rfl
  | intArray v =>
    have hwrite := writeArray_eq (n := 4) (writeInt_eq (e := e)) v
    rw [map_id'] at hwrite
    exact hwrite _
  | longArray v =>
    have hwrite := writeArray_eq (n := 8) (writeLong_eq (e := e)) v
    rw [map_id'] at hwrite
    exact hwrite _
  | doubleArray v =>
    exact writeArray_eq (fun v stream => writeLong_eq (doubleToLongBits v) stream) v _

/-- The C++ value that Java's encoding of a value stands for. -/
def toEncodable (v : JavaValue) : EncodableValue :=
  v.mapLeaves (JavaLeaf.toEncodable doubleToLongBits)

/-- The writer follows the format. -/
lemma writer : Writer e (writeValue e) (writeItems e) (writeEntries e) where
  list l stream := by
    rw [writeValue, writeSize_eq, run_append]
    rfl
  map m stream := by
    rw [writeValue, writeSize_eq, run_append]
    rfl
  items_nil _ := rfl
  items_cons _ _ _ := rfl
  entries_nil _ := rfl
  entries_cons _ _ _ := rfl

/-- `writeValue` writes padding in front of no elements, too. -/
theorem writeValue_eq {v : JavaValue} (hv : v.All NoBigInteger) (stream : List UInt8) :
    writeValue e v stream = run (emit e true (toEncodable v)) stream :=
  writer.write_eq (Value.mapLeaves_list _) (Value.mapLeaves_map _) (fun _ => writeLeaf_eq) hv stream

/-! ## Reading -/

/-- A word is read back. -/
lemma getWord_reads (hw : w = 8 * n) (v : BitVec w) :
    Parser.Reads (getWord e w n) (lit (e.bytes n v)) (· = v) := by
  refine (Reads.take _ (e.length_bytes n v)).bind_pure_eq ?_
  exact e.word_bytes hw v

/-- A size is read back. -/
lemma readSize_reads (hn : n < 2 ^ 31) :
    Parser.Reads (readSize e) (lit (sizeBytes e n)) (· = (n : ℤ)) := by
  refine Reads.remaining_bind (fun _ => length_sizeBytes_pos e n) ?_
  refine reads_sizeBytes (Reads.next _) (fun b hb hlt => ?_) (fun hle => ?_) ?_
  · rw [if_pos (UInt8.lt_iff_toNat_lt.mpr (hb ▸ hlt))]
    exact Reads.pure (congrArg Nat.cast hb)
  · rw [if_neg (by decide), if_pos rfl]
    refine (getWord_reads rfl _).bind_pure_eq ?_
    rw [toNat_ofNat, mod_eq_of_lt (by omega)]
  · rw [if_neg (by decide), if_neg (by decide)]
    refine (getWord_reads rfl _).bind_pure_eq ?_
    -- A size below `2 ^ 31` is not negative as an `int`.
    rw [toInt_eq_toNat_of_lt] <;> rw [toNat_ofNat, mod_eq_of_lt (by omega)]
    omega

/-- Bytes are read back. -/
lemma readBytes_reads {bytes : List UInt8} (h : bytes.length < 2 ^ 31) :
    Parser.Reads (readBytes e) (lit (sizeBytes e bytes.length) ++ lit bytes) (· = bytes) := by
  refine (readSize_reads h).bind_eq ?_
  rw [if_neg (by omega)]
  exact Reads.take _ rfl

/-- Padding is skipped. -/
lemma readAlignment_reads {alignment : ℕ} (halignment : 0 < alignment) :
    Parser.Reads (readAlignment alignment) (pad 0 alignment) fun _ => True := by
  intro buffer position h
  refine ⟨(), ?_, trivial⟩
  have hle := h.length_le
  rw [readAlignment, bind_parse position_parse]
  simp only [pad, padding, length_replicate] at hle ⊢
  by_cases hmod : position % alignment = 0
  · simp [hmod]
  · rw [if_neg hmod] at hle ⊢
    have hlt := mod_lt position halignment
    rw [if_pos hmod]
    dsimp only [setPosition]
    rw [if_neg (by omega)]
    congr 2
    omega

/-- An array is read back. -/
lemma readArray_reads (hn : 0 < n) (hw : w = 8 * n) {array : List (BitVec w)}
    (hlength : array.length < 2 ^ 31) :
    Parser.Reads (readArray e w n)
      (lit (sizeBytes e array.length) ++ emitElements e true n array) (· = array) := by
  refine (readSize_reads hlength).bind_eq ?_
  rw [if_neg (by omega), emitElements_true]
  refine (readAlignment_reads hn).bind fun _ _ => ?_
  have hdata : (e.arrayBytes n array).length = n * (array.length : ℤ).toNat := by
    rw [length_arrayBytes, Int.toNat_natCast, Nat.mul_comm]
  refine (Reads.take _ hdata).bind_pure_eq ?_
  exact words_bytes e hw array

variable {runtime : Runtime}

/-- The cases of `readValueOfType` for objects that are neither lists nor maps. -/
theorem readValueOfType_reads_leaf {read : BufferReader JavaValue} {l : EncodableLeaf}
    (hsize : EncodableValue.size (.leaf l) < 2 ^ 31) (htext : IsText l) :
    Parser.Reads (readValueOfType e runtime read (typeByte l)) (emitData e true l)
      (Value.Rel (Corresponds Eq) (.leaf l)) := by
  cases l with
  | null => exact Reads.pure trivial
  | bool b => cases b <;> exact Reads.pure rfl
  | int v => exact (getWord_reads (n := 4) rfl v).bind_pure fun _ h => h.symm
  | long v => exact (getWord_reads (n := 8) rfl v).bind_pure fun _ h => h.symm
  | double v =>
    refine (readAlignment_reads (by decide)).bind fun _ _ => ?_
    exact (getWord_reads (n := 8) rfl v).bind_pure fun _ h => h.symm
  | string v =>
    obtain ⟨s, rfl⟩ := htext
    refine (readBytes_reads hsize).bind_pure_eq ?_
    exact ⟨s, rfl, runtime.newString_utf8 s⟩
  | byteList v =>
    have hbytes : (v.map UInt8.ofBitVec).length < 2 ^ 31 := by
      rw [length_map]
      exact hsize
    have hread := readBytes_reads (e := e) hbytes
    rw [length_map, ← arrayBytes_one e] at hread
    rw [emitData, emitElements_true, pad_one, Emit.nil_append]
    refine hread.bind_pure_eq ?_
    rw [arrayBytes_one, map_map]
    exact (map_id v).symm
  | intList v | longList v =>
    have hlength : v.length < 2 ^ 31 := hsize
    exact (readArray_reads (by decide) rfl hlength).bind_pure fun _ h => h.symm
  | doubleList v =>
    have hlength : v.length < 2 ^ 31 := hsize
    refine (readArray_reads (by decide) rfl hlength).bind_pure_eq ?_
    exact forall₂_same.mpr fun _ _ => rfl

/-- Values that Java can hold: sizes are `int`s, strings are texts, and keys stay different. -/
def IsReadable (v : EncodableValue) : Prop :=
  EncodableValue.size v < 2 ^ 31 ∧
    match v with
    | .leaf l => IsText l
    | .list _ => True
    | .map m => m.Pairwise fun entry entry' => ∀ k k', Value.Rel (Corresponds Eq) entry.1 k →
        Value.Rel (Corresponds Eq) entry'.1 k' → JavaValue.equals k k' = false

/-- `readValue` reads the format with padding in front of no elements. -/
theorem readValue_reads (hv : v.All IsReadable) {fuel : ℕ} (hfuel : v.depth < fuel) :
    Parser.Reads (readValue e runtime fuel) (emit e true v) (Value.Rel (Corresponds Eq) v) := by
  refine reads_of_nodes ?leaf ?list ?map hv hfuel
  case leaf =>
    intro fuel l hl
    refine Reads.remaining_next ?_
    exact readValueOfType_reads_leaf hl.1 hl.2
  case list =>
    intro fuel l hl hmembers
    rw [emit_list, emitMembers, length_map]
    refine Reads.remaining_next ?_
    refine (readSize_reads hl.1).bind_eq ?_
    rw [Int.toNat_natCast]
    exact (Reads.times l hmembers).bind_pure fun _ => Value.rel_list.mpr
  case map =>
    intro fuel m hm hentries
    rw [emit_map, emitMembers, length_map]
    refine Reads.remaining_next ?_
    refine (readSize_reads hm.1).bind_eq ?_
    rw [Int.toNat_natCast]
    refine (Reads.times m hentries).bind_pure fun entries hentries => ?_
    -- Keys that stay different are all put into the map.
    have hput : putAll JavaValue.equals entries = entries :=
      putAll_of_distinct (pairwise_of_forall₂ hentries hm.2 fun h h' hne => hne _ _ h.1 h'.1)
    rw [hput]
    exact Value.rel_map.mpr ⟨entries, List.Perm.refl _, hentries⟩

/-- What the format writes is decoded. -/
lemma decodeMessage_emit (runtime : Runtime) (hv : v.All IsReadable) :
    ∃ j, decodeMessage e runtime (some (emit e true v 0)) = .ok j ∧ v.Rel (Corresponds Eq) j := by
  obtain ⟨j, hread, hrel⟩ := parse_emit (readValue e runtime) (readValue_reads hv)
  refine ⟨j, ?_, hrel⟩
  simp only [decodeMessage, hread]
  exact if_neg (lt_irrefl _)

end StandardMessageCodec

end Flutter.Java
