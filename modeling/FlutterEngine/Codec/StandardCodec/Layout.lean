import FlutterEngine.Codec.Format
import FlutterEngine.Codec.StandardCodec

/-!
# The C++ codec and the message format

What `StandardCodecSerializer` writes and what it reads.

* `writeValue_eq`: `WriteValue` writes the format without padding in front of no elements.
* `readValue_reads`: `ReadValue` reads the format with that padding. A map is read back as its
  entries emplaced at some addresses, so the rule leaves open what is known about maps.
-/

namespace Flutter

open Lib Format ByteBufferStreamReader ByteBufferStreamWriter List Parser Emit Nat

namespace StandardCodecSerializer

variable {e : Endian}

/-! ## Writing -/

lemma writeBytes_eq (data stream : List UInt8) :
    writeBytes data stream = run (lit data) stream := rfl

/-- What `WriteAlignment` writes. -/
lemma writeAlignment_eq (alignment : ℕ) (stream : List UInt8) :
    writeAlignment alignment stream = run (pad 0 alignment) stream :=
  (run_pad stream (fun _ => rfl) alignment).symm

/-- What `WriteSize` writes. -/
lemma writeSize_eq (size : ℕ) (stream : List UInt8) :
    writeSize e size stream = run (lit (sizeBytes e size)) stream := by
  unfold writeSize sizeBytes
  split
  · rfl
  · split <;> simp [writeBytes, writeByte, run]

variable {n w : ℕ} {data buffer : List UInt8}

/-- What `WriteVector` writes. -/
lemma writeVector_eq (hn : 0 < n) (vector : List (BitVec w)) (stream : List UInt8) :
    writeVector e n vector stream =
      run (lit (sizeBytes e vector.length) ++ emitElements e false n vector) stream := by
  rw [run_append, ← writeSize_eq]
  simp only [writeVector]
  cases vector with
  | nil => simp [emitElements]
  | cons v l =>
    have halign : ∀ stream, (if n > 1 then writeAlignment n stream else stream) =
        run (pad 0 n) stream := by
      intro stream
      split
      · exact writeAlignment_eq n stream
      · obtain rfl : n = 1 := by omega
        simp [run, pad, padding, mod_one]
    rw [if_neg (by simp), halign, writeBytes_eq, ← run_append]
    simp [emitElements]

/-- What is written for a value other than lists and maps. -/
lemma writeLeaf_eq (l : EncodableLeaf) (stream : List UInt8) :
    writeLeaf e l stream = run (emitData e false l) stream := by
  cases l with
  | null | bool => exact (run_nil stream).symm
  | int | long => rfl
  | double v => simp only [writeLeaf, emitData, run_append, writeAlignment_eq, writeBytes_eq]
  | string v =>
    simp only [writeLeaf, emitData, run_append, writeSize_eq]
    cases v with
    | nil => exact (List.append_nil _).symm
    | cons b v => exact if_pos (succ_pos _)
  | byteList v | intList v | longList v | doubleList v => exact writeVector_eq (by decide) v stream

/-- The writer follows the format. -/
lemma writer : Writer e (writeValue e) (writeItems e) (writePairs e) where
  list l stream := by
    rw [writeValue, writeSize_eq, run_append]
    rfl
  map m stream := by
    rw [writeValue, writeSize_eq, run_append]
    rfl
  items_nil _ := rfl
  items_cons _ _ _ := rfl
  entries_nil _ := rfl
  entries_cons _ _ _ := rfl

/-- `WriteValue` writes no padding in front of no elements. -/
theorem writeValue_eq (v : EncodableValue) (stream : List UInt8) :
    writeValue e v stream = run (emit e false v) stream := by
  refine writer.write_eq (f := id) (fun l => by rw [map_id, id]) (fun m => ?_)
    (fun l _ stream => ?_) (Value.all_of_forall (fun _ => trivial) v) stream
  · rw [Prod.map_id, map_id, id]
  · rw [writeValue, writeLeaf_eq, id, emit_leaf, run_append]
    cases l <;> rfl

/-! ## Reading -/

variable {memory : Memory}

/-- A slice is copied. -/
lemma copy_of_sliceAt {bytes : List UInt8} {location : ℕ} (h : SliceAt bytes location data) :
    copy bytes location data.length = .ok data := by
  induction data generalizing location with
  | nil => rfl
  | cons byte data ih =>
    rw [← singleton_append, SliceAt.append_iff] at h
    have hbyte : bytes[location]? = some byte := h.1.getElem? Nat.one_pos
    have hrest : copy bytes (location + 1) data.length = .ok data := ih h.2
    rw [length_cons, copy, byteAt, hbyte, hrest]
    rfl

/-- A byte is read back. -/
lemma readByte_reads (byte : UInt8) : Parser.Reads readByte (lit [byte]) (· = byte) := by
  intro bytes location h
  have hlt : location + 1 ≤ bytes.length := h.length_le
  have hbyte : bytes[location]? = some byte := h.getElem? Nat.one_pos
  refine ⟨byte, ?_, rfl⟩
  simp only [readByte, byteAt, hbyte]
  exact if_neg (by omega)

/-- Bytes are read back. -/
lemma readBytes_reads {length : ℕ} (hbuffer : buffer.length = length)
    (hdata : data.length = length) :
    Parser.Reads (readBytes buffer length) (lit data) (· = data) := by
  subst hdata
  intro bytes location h
  have hle : location + data.length ≤ bytes.length := h.length_le
  have hcopy : copy bytes location data.length = .ok data := copy_of_sliceAt h
  have hdrop : buffer.drop data.length = [] := drop_eq_nil_of_le hbuffer.le
  refine ⟨data, ?_, rfl⟩
  simp only [readBytes, hcopy, hdrop]
  rw [if_neg (by omega)]
  exact congrArg (fun data => Except.ok (data, _)) (List.append_nil data)

/-- A word is read back. -/
lemma readWord_reads (hw : w = 8 * n) (hbuffer : buffer.length = n) (v : BitVec w) :
    Parser.Reads (readBytes buffer n) (lit (e.bytes n v)) fun data => e.word w data = v := by
  refine (readBytes_reads hbuffer (e.length_bytes n v)).mono ?_
  rintro _ rfl
  exact e.word_bytes hw v

/-- Padding is skipped. -/
lemma readAlignment_reads (alignment : ℕ) :
    Parser.Reads (readAlignment alignment) (pad 0 alignment) fun _ => True := by
  intro bytes location _
  refine ⟨(), ?_, trivial⟩
  simp only [readAlignment, pad, padding, length_replicate]
  by_cases h : location % alignment = 0 <;> simp [h]

/-- A size is read back. -/
lemma readSize_reads (hn : n < 2 ^ 32) :
    Parser.Reads (readSize e memory) (lit (sizeBytes e n)) (· = n) := by
  refine Reads.position_bind fun location => ?_
  refine reads_sizeBytes readByte_reads (fun b hb hlt => ?_) (fun hle => ?_) ?_
  · rw [if_pos (UInt8.lt_iff_toNat_lt.mpr (hb ▸ hlt))]
    exact Reads.pure hb
  · rw [if_neg (by decide), if_pos rfl]
    refine (readWord_reads rfl (by simp) _).bind_pure fun data hdata => ?_
    rw [hdata, BitVec.toNat_ofNat, mod_eq_of_lt (by omega)]
  · rw [if_neg (by decide), if_neg (by decide)]
    refine (readWord_reads rfl (by simp) _).bind_pure fun data hdata => ?_
    rw [hdata, BitVec.toNat_ofNat, mod_eq_of_lt hn]

/-- A vector is read back. -/
lemma readVector_reads (hn : 0 < n) (hw : w = 8 * n) {vector : List (BitVec w)}
    (hlength : vector.length < 2 ^ 32) :
    Parser.Reads (readVector e memory w n)
      (lit (sizeBytes e vector.length) ++ emitElements e true n vector) (· = vector) := by
  have halign : Parser.Reads (if n > 1 then readAlignment n else pure ()) (pad 0 n)
      fun _ => True := by
    split
    · exact readAlignment_reads n
    · obtain rfl : n = 1 := by omega
      rw [pad_one]
      exact Reads.pure trivial
  refine (readSize_reads hlength).bind_eq ?_
  rw [emitElements_true]
  refine halign.bind fun _ _ => ?_
  refine (readBytes_reads (by simp) (by simp)).bind_pure_eq ?_
  exact Endian.words_bytes e hw vector

/-- The cases of `ReadValue` for values without nested values. -/
theorem readTyped_reads_leaf {read : StreamReader EncodableValue} {l : EncodableLeaf}
    (hsize : EncodableValue.size (.leaf l) < 2 ^ 32) :
    Parser.Reads (readTyped e memory read (typeByte l)) (emitData e true l) (· = .leaf l) := by
  cases l with
  | null => exact Reads.pure rfl
  | bool b => cases b <;> exact Reads.pure rfl
  | int v =>
    refine (readWord_reads (n := 4) rfl rfl v).bind_pure fun data hdata => ?_
    rw [hdata]
  | long v =>
    refine (readWord_reads (n := 8) rfl rfl v).bind_pure fun data hdata => ?_
    rw [hdata]
  | double v =>
    refine (readAlignment_reads 8).bind fun _ _ => ?_
    refine (readWord_reads (n := 8) rfl rfl v).bind_pure fun data hdata => ?_
    rw [hdata]
  | string v =>
    have hlength : v.length < 2 ^ 32 := hsize
    refine (readSize_reads hlength).bind_eq ?_
    refine (readBytes_reads (by simp) rfl).bind_pure_eq ?_
    rfl
  | byteList v | intList v | longList v | doubleList v =>
    have hlength : v.length < 2 ^ 32 := hsize
    refine (readVector_reads (by decide) rfl hlength).bind_pure_eq ?_
    rfl

/-! ## Maps -/

/-- The entries to be emplaced, with the addresses of their keys. -/
def keyed (address : ℕ → ℕ) (entries : List (EncodableValue × EncodableValue)) :
    List ((ℕ × EncodableValue) × EncodableValue) :=
  entries.zipIdx.map fun (entry, i) => ((address i, entry.1), entry.2)

section

variable (address : ℕ → ℕ) (entries : List (EncodableValue × EncodableValue))

/-- The entries with their keys. -/
lemma map_keyed : ((keyed address entries).map fun entry => (entry.1.2, entry.2)) = entries := by
  rw [keyed, map_map]
  exact zipIdx_map_fst 0 entries

/-- Every entry of a map was emplaced, and as often. -/
theorem emplaceEntries_subperm : (emplaceEntries address entries).Subperm entries := by
  have h : (emplaceAll EncodableValue.less (keyed address entries)).Subperm
      (keyed address entries) := emplaceAll_subperm
  obtain ⟨l, hperm, hsub⟩ := h
  refine ⟨l.map fun entry => (entry.1.2, entry.2), hperm.map _, ?_⟩
  have hmap := hsub.map fun entry => (entry.1.2, entry.2)
  rwa [map_keyed] at hmap

end

/-- A relation `Q` between what is written and what is read, for values that satisfy `P` at every
node: what has to be known about lists and maps for `ReadValue` to establish it. -/
structure ReadRelation (P : EncodableValue → Prop) (Q : EncodableValue → EncodableValue → Prop) :
    Prop where
  size_lt : ∀ v, P v → v.size < 2 ^ 32
  leaf : ∀ l, Q (.leaf l) (.leaf l)
  list : ∀ l l', List.Forall₂ Q l l' → Q (.list l) (.list l')
  map : ∀ m entries address, P (.map m) → Function.Injective address →
    List.Forall₂ (fun entry entry' => Q entry.1 entry'.1 ∧ Q entry.2 entry'.2) m entries →
    Q (.map m) (.map (emplaceEntries address entries))

/-- `ReadValue` reads the format with padding in front of no elements. -/
theorem readValue_reads {P : EncodableValue → Prop} {Q : EncodableValue → EncodableValue → Prop}
    (hQ : ReadRelation P Q) {v : EncodableValue} (hv : v.All P) {fuel : ℕ}
    (hfuel : v.depth < fuel) :
    Parser.Reads (readValue e memory fuel) (emit e true v) (Q v) := by
  refine reads_of_nodes ?leaf ?list ?map hv hfuel
  case leaf =>
    intro fuel l hl
    refine (readByte_reads _).bind_eq ?_
    refine (readTyped_reads_leaf (hQ.size_lt _ hl)).mono ?_
    rintro _ rfl
    exact hQ.leaf l
  case list =>
    intro fuel l hl hmembers
    rw [emit_list, emitMembers, length_map]
    refine (readByte_reads _).bind_eq ?_
    refine (readSize_reads (hQ.size_lt _ hl)).bind_eq ?_
    exact (Reads.times l hmembers).bind_pure (hQ.list l)
  case map =>
    intro fuel m hm hentries
    rw [emit_map, emitMembers, length_map]
    refine (readByte_reads _).bind_eq ?_
    refine Reads.position_bind fun location => ?_
    refine (readSize_reads (hQ.size_lt _ hm)).bind_eq ?_
    exact (Reads.times m hentries).bind_pure fun entries hentries =>
      hQ.map m entries _ hm (memory.keyAddress_injective location) hentries

end StandardCodecSerializer

/-- A message is encoded in the format, without padding for empty arrays. -/
lemma StandardMessageCodec.encodeMessage_eq (e : Endian) (v : EncodableValue) :
    StandardMessageCodec.encodeMessage e v = emit e false v 0 :=
  StandardCodecSerializer.writeValue_eq v []

end Flutter
