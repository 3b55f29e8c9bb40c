import FlutterEngine.Codec.Format
import FlutterEngine.Codec.WebCodec

/-!
# The Dart codec of the web engine and the message format

What the web engine's `StandardMessageCodec` writes and what it reads, in terms of the values of the
C++ wrapper.

* `writeValue_eq`: `writeValue` writes the format with padding in front of no elements.
* `readValue_reads`: `readValue` reads that format. `IsReadAs` says what becomes of a leaf.
-/

namespace Flutter.Web

open Lib Format WriteBuffer ReadBuffer List Parser Emit Nat Endian Value DartLeaf

/-- The C++ value that the encoding of a Dart value stands for. -/
def DartLeaf.toEncodable : DartLeaf → EncodableLeaf
  | .null => .null
  | .bool v => .bool v
  | .num v => .double v
  | .string v => .string (encodeUtf8 v)
  | .uint8List v => .byteList v
  | .int32List v => .intList v
  | .float64List v => .doubleList v

/-- What the web engine makes of an encoded leaf. It cannot read 64-bit integers. -/
def IsReadAs (l : EncodableLeaf) (l' : DartLeaf) : Prop :=
  match l with
  | .null => l' = .null
  | .bool v => l' = .bool v
  | .int v => l' = .num (Float64.ofInt v.toInt)
  | .double v => l' = .num v
  | .string v => ∃ s, v = utf8 s ∧ l' = .string (utf16 (dropBom s))
  | .byteList v => l' = .uint8List v
  | .intList v => l' = .int32List v
  | .doubleList v => l' = .float64List v
  | .long _ | .longList _ => False

/-- An encoded leaf that JavaScript has an object for. -/
def IsSupported : EncodableLeaf → Prop
  | .long _ | .longList _ => False
  | _ => True

namespace StandardMessageCodec

variable {e : Endian}

/-! ## Writing -/

/-- What aligning writes. -/
lemma alignTo_eq (alignment : ℕ) (buffer : List UInt8) :
    WriteBuffer.alignTo alignment buffer = run (pad 0 alignment) buffer :=
  (run_pad buffer (fun _ => rfl) alignment).symm

/-- What `writeSize` writes. -/
lemma writeSize_eq (n : ℕ) (buffer : List UInt8) :
    writeSize e n buffer = run (lit (sizeBytes e n)) buffer := by
  unfold writeSize sizeBytes
  split
  · rfl
  · split <;> simp [putWord, putUint8, run]

variable {n w : ℕ} {v : EncodableValue}

/-- A typed list is written with padding, whether it has elements or not. -/
theorem putList_eq (list : List (BitVec w)) (buffer : List UInt8) :
    putList e n list (writeSize e list.length buffer) =
      run (lit (sizeBytes e list.length) ++ emitElements e true n list) buffer := by
  rw [emitElements_true, run_append, run_append, ← writeSize_eq, ← alignTo_eq]
  rfl

/-- What is written for an object other than lists and maps. -/
lemma writeLeaf_eq (l : DartLeaf) (buffer : List UInt8) :
    writeLeaf e l buffer = run (emit e true (.leaf l.toEncodable)) buffer := by
  rw [emit_leaf, run_append]
  cases l with
  | null => exact (run_nil _).symm
  | bool v => cases v <;> exact (run_nil _).symm
  | num v =>
    simp only [writeLeaf, putFloat64, toEncodable, emitData, run_append, alignTo_eq]
    rfl
  | string v =>
    simp only [writeLeaf, toEncodable, emitData, run_append, writeSize_eq]
    rfl
  | uint8List v =>
    simp only [writeLeaf, toEncodable, emitData, emitElements_true, arrayBytes_one,
      pad_one, Emit.nil_append, run_append, writeSize_eq]
    rfl
  | int32List v | float64List v => exact putList_eq v _

/-- The C++ value that the encoding of a value stands for. -/
def toEncodable (v : DartValue) : EncodableValue := v.mapLeaves DartLeaf.toEncodable

/-- The writer follows the format. -/
lemma writer : Writer e (writeValue e) (writeItems e) (writeEntries e) where
  list l buffer := by
    rw [writeValue, writeSize_eq, run_append]
    rfl
  map m buffer := by
    rw [writeValue, writeSize_eq, run_append]
    rfl
  items_nil _ := rfl
  items_cons _ _ _ := rfl
  entries_nil _ := rfl
  entries_cons _ _ _ := rfl

/-- `writeValue` writes padding in front of no elements, too. -/
theorem writeValue_eq (v : DartValue) (buffer : List UInt8) :
    writeValue e v buffer = run (emit e true (toEncodable v)) buffer :=
  writer.write_eq (mapLeaves_list _) (mapLeaves_map _) (fun l _ => writeLeaf_eq l)
    (all_of_forall (fun _ => trivial) v) buffer

/-! ## Reading -/

/-- A word is read back. -/
lemma getWord_reads (hw : w = 8 * n) (v : BitVec w) :
    Parser.Reads (getWord e w n) (lit (e.bytes n v)) (· = v) := by
  refine (Reads.take _ (e.length_bytes n v)).bind_pure_eq ?_
  exact e.word_bytes hw v

/-- Aligning skips the padding. -/
lemma alignTo_parse (alignment : ℕ) (data : List UInt8) (position : ℕ) :
    (ReadBuffer.alignTo alignment).parse data position =
      .ok ((), position + padding alignment position) := by
  simp only [ReadBuffer.alignTo, padding]
  by_cases h : position % alignment = 0 <;> simp [h]

lemma alignTo_reads (alignment : ℕ) :
    Parser.Reads (ReadBuffer.alignTo alignment) (pad 0 alignment) fun _ => True := by
  intro data position _
  refine ⟨(), ?_, trivial⟩
  rw [alignTo_parse, pad, length_replicate]

/-- A size is read back. -/
lemma readSize_reads (hn : n < 2 ^ 32) :
    Parser.Reads (readSize e) (Emit.lit (sizeBytes e n)) (· = n) := by
  refine reads_sizeBytes (Reads.next _) (fun b hb hlt => ?_) (fun hle => ?_) ?_
  · have hne : ∀ b' : UInt8, 254 ≤ b'.toNat → b ≠ b' := by
      rintro _ hb' rfl
      omega
    rw [if_neg (hne 254 (by decide)), if_neg (hne 255 (by decide))]
    exact Reads.pure hb
  · rw [if_pos rfl]
    refine (getWord_reads rfl _).bind_pure_eq ?_
    rw [BitVec.toNat_ofNat, mod_eq_of_lt (by omega)]
  · rw [if_neg (by decide), if_pos rfl]
    refine (getWord_reads rfl _).bind_pure_eq ?_
    rw [BitVec.toNat_ofNat, Nat.mod_eq_of_lt hn]

/-- A view of the buffer is aligned if the data starts at an aligned offset. -/
theorem getList_reads {offsetInBytes : ℕ} (hn : 0 < n) (hoffset : n ∣ offsetInBytes)
    (hw : w = 8 * n) (list : List (BitVec w)) :
    Parser.Reads (getList e offsetInBytes w n list.length) (emitElements e true n list)
      (· = list) := by
  intro data position h
  rw [emitElements_true] at h ⊢
  obtain ⟨-, hdata⟩ := SliceAt.append_iff.mp h
  have hpad : (pad (0 : UInt8) n position).length = padding n position := length_replicate
  rw [hpad, lit_apply] at hdata
  have haligned : (offsetInBytes + (position + padding n position)) % n = 0 :=
    Nat.mod_eq_zero_of_dvd (Nat.dvd_add hoffset (dvd_add_padding hn position))
  have htake : (Parser.take DartException.rangeError (n * list.length)).parse data
      (position + padding n position) = .ok (e.arrayBytes n list, _) :=
    take_ok.mpr ⟨hdata, by rw [length_arrayBytes, Nat.mul_comm], rfl⟩
  refine ⟨list, ?_, rfl⟩
  rw [getList, bind_parse (alignTo_parse n data position),
    bind_parse position_parse, if_neg (not_not.mpr haligned),
    bind_parse htake, pure_parse, words_bytes e hw, Emit.length_append, hpad,
    lit_apply, length_arrayBytes, Nat.mul_comm, Nat.add_assoc]

variable {runtime : Runtime} {offsetInBytes : ℕ}

/-- A string is read back without its byte order mark. -/
lemma readString_reads (s : List Char) :
    Parser.Reads (readString runtime (utf8 s).length) (lit (utf8 s)) (· = utf16 (dropBom s)) := by
  rw [← append_nil (lit _)]
  refine (Reads.take _ rfl).bind_eq ?_
  rw [runtime.decodeUtf8_utf8]
  exact Reads.pure rfl

/-- The cases of `readValueOfType` for objects that are neither lists nor maps. -/
theorem readValueOfType_reads_leaf (hoffset : 8 ∣ offsetInBytes) {read : DataReader DartValue}
    {l : EncodableLeaf} (hsize : EncodableValue.size (.leaf l) < 2 ^ 32) (htext : IsText l)
    (hsupported : IsSupported l) :
    Parser.Reads (readValueOfType e runtime offsetInBytes read (typeByte l)) (emitData e true l)
      (Value.Rel IsReadAs (.leaf l)) := by
  cases l with
  | null => exact Reads.pure rfl
  | bool b => cases b <;> exact Reads.pure rfl
  | int v =>
    refine (getWord_reads (n := 4) rfl v).bind_pure_eq ?_
    rfl
  | long v | longList v => exact hsupported.elim
  | double v =>
    have hread : Parser.Reads (getFloat64 e) (pad 0 8 ++ lit (e.bytes 8 v)) (· = v) :=
      (alignTo_reads 8).bind fun _ _ => getWord_reads (n := 8) rfl v
    exact hread.bind_pure fun _ h => congrArg num h
  | string v =>
    obtain ⟨s, rfl⟩ := htext
    have hlength : (utf8 s).length < 2 ^ 32 := hsize
    refine (readSize_reads hlength).bind_eq ?_
    exact (readString_reads s).bind_pure fun _ h => ⟨s, rfl, congrArg string h⟩
  | byteList v =>
    have hlength : v.length < 2 ^ 32 := hsize
    refine (readSize_reads hlength).bind_eq ?_
    rw [emitElements_true, pad_one, Emit.nil_append, arrayBytes_one]
    refine (Reads.take _ (length_map _)).bind_pure_eq ?_
    exact congrArg uint8List (map_map.trans (map_id v))
  | intList v =>
    have hlength : v.length < 2 ^ 32 := hsize
    refine (readSize_reads hlength).bind_eq ?_
    have hoffset : 4 ∣ offsetInBytes := Nat.dvd_trans (by decide) hoffset
    exact (getList_reads (by decide) hoffset rfl v).bind_pure fun _ h => congrArg int32List h
  | doubleList v =>
    have hlength : v.length < 2 ^ 32 := hsize
    refine (readSize_reads hlength).bind_eq ?_
    exact (getList_reads (by decide) hoffset rfl v).bind_pure fun _ h => congrArg _ h

/-- Values that Dart can hold: sizes fit, strings are texts, there are no 64-bit integers, and keys
stay different. -/
def IsReadable (v : EncodableValue) : Prop :=
  EncodableValue.size v < 2 ^ 32 ∧
    match v with
    | .leaf l => IsText l ∧ IsSupported l
    | .list _ => True
    | .map m => m.Pairwise fun entry entry' => ∀ k k', Value.Rel IsReadAs entry.1 k →
        Value.Rel IsReadAs entry'.1 k' → DartValue.equals k k' = false

/-- `readValue` reads the format with padding in front of no elements. -/
theorem readValue_reads (hoffset : 8 ∣ offsetInBytes) (hv : v.All IsReadable) {fuel : ℕ}
    (hfuel : v.depth < fuel) :
    Parser.Reads (readValue e runtime offsetInBytes fuel) (emit e true v)
      (Value.Rel IsReadAs v) := by
  refine reads_of_nodes ?leaf ?list ?map hv hfuel
  case leaf =>
    intro fuel l hl
    refine Reads.remaining_next ?_
    exact readValueOfType_reads_leaf hoffset hl.1 hl.2.1 hl.2.2
  case list =>
    intro fuel l hl hmembers
    rw [emit_list, emitMembers, length_map]
    refine Reads.remaining_next ?_
    refine (readSize_reads hl.1).bind_eq ?_
    exact (Reads.times l hmembers).bind_pure fun _ => rel_list.mpr
  case map =>
    intro fuel m hm hentries
    rw [emit_map, emitMembers, length_map]
    refine Reads.remaining_next ?_
    refine (readSize_reads hm.1).bind_eq ?_
    refine (Reads.times m hentries).bind_pure fun entries hentries => ?_
    -- Keys that stay different are all put into the map.
    have hput : putAll DartValue.equals entries = entries :=
      putAll_of_distinct (pairwise_of_forall₂ hentries hm.2 fun h h' hne => hne _ _ h.1 h'.1)
    rw [hput]
    exact rel_map.mpr ⟨entries, List.Perm.refl _, hentries⟩

/-- What the format writes is decoded. -/
lemma decodeMessage_emit (runtime : Runtime) (hoffset : 8 ∣ offsetInBytes)
    (hv : v.All IsReadable) :
    ∃ d, decodeMessage e runtime (some ⟨offsetInBytes, emit e true v 0⟩) = .ok d ∧
      v.Rel IsReadAs d := by
  obtain ⟨d, hread, hrel⟩ :=
    parse_emit (readValue e runtime offsetInBytes) (readValue_reads hoffset hv)
  refine ⟨d, ?_, hrel⟩
  simp only [decodeMessage, hread]
  exact if_neg (lt_irrefl _)

end StandardMessageCodec

end Flutter.Web
