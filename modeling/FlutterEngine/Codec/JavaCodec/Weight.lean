import FlutterEngine.Codec.Format.Tracking
import FlutterEngine.Codec.JavaCodec.Layout

/-!
# What a value decoded by the Java codec has consumed

Every function of the Java `StandardMessageCodec` that reads returns only what it has paid for with
bytes that are not zero: `readValue_pays`. Together with what is known about reading the format,
this makes `readValue` a decoder that does not tolerate the end of the message (`decoder`).

Bytes that are not a text are decoded to the empty string here.
-/

namespace Flutter.Java

open Lib Format ByteBuffer List Parser Nat Value

/-- A runtime that makes nothing of bytes that are not a text. -/
def Runtime.strict : Runtime where
  newString bytes := ((utf8Decode? bytes).map utf16).getD []
  newString_utf8 s := by rw [utf8Decode?_utf8]; rfl
  newBigInteger _ := none

/-- A string has the bytes it is read from, or none. -/
lemma getBytes_newString_strict (bytes : List UInt8) :
    getBytes (Runtime.strict.newString bytes) = bytes ∨
      getBytes (Runtime.strict.newString bytes) = [] := by
  cases h : utf8Decode? bytes with
  | none =>
    right
    simp only [Runtime.strict, h]
    rfl
  | some s =>
    left
    simp only [Runtime.strict, h]
    exact (transcode_utf16 _ s).trans (utf8_of_utf8Decode? h)

namespace StandardMessageCodec

variable {e : Endian} {bytes : List UInt8}

/-- The C++ value that a Java value stands for, with the same bits for doubles. -/
def contents (v : JavaValue) : EncodableValue := v.mapLeaves (JavaLeaf.toEncodable id)

lemma contents_list (l : List JavaValue) : contents (.list l) = .list (l.map contents) :=
  mapLeaves_list _ l

lemma contents_map (m : List (JavaValue × JavaValue)) :
    contents (.map m) = .map (m.map (Prod.map contents contents)) :=
  mapLeaves_map _ m

/-! ## Paying -/

/-- A byte costs itself. -/
lemma get_pays : PaysNonzeros ByteBuffer.get bytes fun byte => nonzeros [byte] := Pays.next _

/-- An array costs its bytes. -/
lemma getArray_pays {length : ℕ} {w : List UInt8 → ℕ}
    (hw : ∀ data : List UInt8, data.length = length → w data ≤ nonzeros data) :
    PaysNonzeros (getArray length) bytes w :=
  (Pays.take _ length).mono fun _ data _ h => hw data (take_ok.mp h).2.1

variable {w n alignment : ℕ} {read : BufferReader JavaValue} {type : UInt8}

/-- A word costs its bytes. -/
lemma getWord_pays (hw : w = 8 * n) :
    PaysNonzeros (getWord e w n) bytes fun v => nonzeros (e.bytes n v) := by
  have htake : PaysNonzeros (getArray n) bytes fun data => nonzeros (e.bytes n (e.word w data)) :=
    getArray_pays fun data hdata => by rw [e.bytes_word hdata hw]
  exact htake.bind fun data => Pays.pure (Nat.sub_self _)

/-- A size costs its bytes. -/
lemma readSize_pays : PaysNonzeros (readSize e) bytes fun n => nonzeros (sizeBytes e n.toNat) := by
  -- A longer code of a size has no fewer bytes that are not zero than the shortest one.
  have hlong : ∀ {w k : ℕ} (v : BitVec w), k = 2 ∨ k = 4 → w = 8 * k →
      nonzeros (sizeBytes e v.toNat) ≤ 1 + nonzeros (e.bytes k v) := by
    intro w k v hk hw
    refine nonzeros_sizeBytes_le hk hw (e.length_bytes k v) ?_
    rw [e.word_bytes hw]
  refine Pays.remaining.bind fun remaining => ?_
  split
  · exact Pays.fail
  · refine get_pays.bind fun byte => ?_
    split
    · next h =>
      refine Pays.pure ?_
      have hbyte : byte.toNat < 254 := h
      rw [Int.toNat_natCast, sizeBytes, if_pos hbyte, UInt8.ofNat_toNat]
      omega
    · next h =>
      have hmarker : nonzeros [byte] = 1 := by
        have : ¬byte.toNat < 254 := h
        rw [nonzeros_singleton]
        omega
      split
      · refine (getWord_pays (n := 2) rfl).bind fun v => Pays.pure ?_
        have := hlong v (.inl rfl) rfl
        rw [Int.toNat_natCast]
        omega
      · refine (getWord_pays (n := 4) rfl).bind fun v => Pays.pure ?_
        have := hlong v (.inr rfl) rfl
        -- A negative size counts as none.
        rcases lt_or_ge v.toInt 0 with hneg | hnonneg
        · rw [Int.toNat_of_nonpos hneg.le]
          have : nonzeros (sizeBytes e 0) = 0 := rfl
          omega
        · have hv : v.toInt.toNat = v.toNat := by
            rw [BitVec.toInt_eq_toNat_cond] at hnonneg ⊢
            split at hnonneg <;> omega
          rw [hv]
          omega

/-- Bytes cost their size and themselves. -/
lemma readBytes_pays : PaysNonzeros (readBytes e) bytes fun data =>
      nonzeros (sizeBytes e data.length) + nonzeros data := by
  refine readSize_pays.bind fun length => ?_
  split
  · exact Pays.fail
  · refine getArray_pays fun data hdata => ?_
    rw [hdata]
    omega

/-- Padding costs nothing. -/
lemma readAlignment_pays (halignment : 0 < alignment) :
    PaysNonzeros (readAlignment alignment) bytes fun _ => 0 := by
  refine fun position _ next h => ?_
  rw [readAlignment, bind_parse position_parse] at h
  have hle : position ≤ next := by
    have := mod_lt position halignment
    split at h
    · dsimp only [setPosition] at h
      split at h
      · cases h
      · cases h
        omega
    · cases h
      exact le_rfl
  rw [zero_add]
  exact before_mono hle

/-- An array costs its size and its bytes. -/
lemma readArray_pays (hn : 0 < n) (hw : w = 8 * n) : PaysNonzeros (readArray e w n) bytes
      fun l => nonzeros (sizeBytes e l.length) + nonzeros (e.arrayBytes n l) := by
  refine readSize_pays.bind fun length => ?_
  split
  · exact Pays.fail
  · refine (readAlignment_pays hn).bind fun _ => ?_
    have hdata : PaysNonzeros (getArray (n * length.toNat)) bytes fun data =>
        nonzeros (e.arrayBytes n (e.words w n length.toNat data)) :=
      getArray_pays fun data hdata => by rw [e.bytes_words hw (by rw [hdata, mul_comm])]
    refine hdata.bind fun data => Pays.pure ?_
    rw [Endian.length_words]
    omega

/-- A map weighs no more than the entries it is made of. -/
lemma weight_map_putAll_le (entries : List (JavaValue × JavaValue)) :
    weight e (contents (.map (putAll JavaValue.equals entries))) ≤
      1 + min 1 entries.length +
        (entries.map fun entry =>
          weight e (contents entry.1) + weight e (contents entry.2)).sum := by
  have hsum := sum_putAll_le JavaValue.equals (fun k => weight e (contents k))
    (fun v => weight e (contents v)) (l := entries)
  have hlength : (putAll JavaValue.equals entries).length ≤ entries.length := length_putAll_le
  rw [contents_map, weight_map, length_map, map_map]
  have hentries : entryWeight e ∘ Prod.map contents contents =
      fun entry => weight e (contents entry.1) + weight e (contents entry.2) := rfl
  rw [hentries]
  omega

/-- A value costs its weight without the type byte. -/
lemma readValueOfType_pays (hread : PaysNonzeros read bytes fun v => weight e (contents v))
    (type : UInt8) :
    PaysNonzeros (readValueOfType e Runtime.strict read type) bytes
      fun v => weight e (contents v) - nonzeros [type] := by
  -- A value without nested values is paid for with its type byte and its data.
  have hleaf : ∀ (l : JavaLeaf) d, dataWeight e (l.toEncodable id) ≤ d →
      weight e (contents (.leaf l)) - 1 - d = 0 := by
    intro l d hd
    have : weight e (.leaf (l.toEncodable id)) ≤ _ := weight_leaf_le _
    change weight e (.leaf (l.toEncodable id)) - 1 - d = 0
    omega
  rw [nonzeros_singleton]
  unfold readValueOfType
  generalize type.toNat = t
  match t with
  | 0 | 1 | 2 => exact Pays.pure rfl
  | n + 14 => exact Pays.fail
  | 3 =>
    exact (getWord_pays (n := 4) rfl).bind fun v => Pays.pure (hleaf (.integer v) _ le_rfl)
  | 4 => exact (getWord_pays (n := 8) rfl).bind fun v => Pays.pure (hleaf (.long v) _ le_rfl)
  | 5 => exact readBytes_pays.bind fun _ => Pays.fail
  | 6 =>
    exact (readAlignment_pays (by decide)).bind fun _ => (getWord_pays (n := 8) rfl).bind fun v =>
      Pays.pure (hleaf (.double v) _ le_rfl)
  | 7 =>
    refine readBytes_pays.bind fun data => Pays.pure (hleaf (.string _) _ ?_)
    change nonzeros (sizeBytes e (getBytes _).length) + nonzeros (getBytes _) ≤ _
    rcases getBytes_newString_strict data with h | h
    · rw [h]
    · rw [h]
      exact zero_le _
  | 8 =>
    refine readBytes_pays.bind fun data => Pays.pure (hleaf (.byteArray _) _ ?_)
    change nonzeros (sizeBytes e (data.map UInt8.toBitVec).length) +
      nonzeros (e.arrayBytes 1 (data.map UInt8.toBitVec)) ≤ _
    rw [Endian.arrayBytes_one, map_map, length_map]
    exact (congrArg (fun l => nonzeros (sizeBytes e data.length) + nonzeros l) (map_id data)).le
  | 9 =>
    exact (readArray_pays (by decide) rfl).bind fun v => Pays.pure (hleaf (.intArray v) _ le_rfl)
  | 10 =>
    exact (readArray_pays (by decide) rfl).bind fun v => Pays.pure (hleaf (.longArray v) _ le_rfl)
  | 11 =>
    refine (readArray_pays (by decide) rfl).bind fun v => Pays.pure (hleaf (.doubleArray v) _ ?_)
    rw [JavaLeaf.toEncodable, map_id]
    exact le_rfl
  | 12 =>
    refine readSize_pays.bind fun n => ?_
    split
    · exact Pays.fail
    · refine ((hread.times n.toNat).mono fun _ l _ hl => ?_).bind fun l =>
        Pays.pure (Nat.sub_self _)
      rw [contents_list, weight_list, length_map, map_map, length_of_times_ok hl]
      have hmembers : weight e ∘ contents = fun v => weight e (contents v) := rfl
      rw [hmembers]
      omega
  | 13 =>
    refine readSize_pays.bind fun n =>
      ((hread.pair.times n.toNat).mono fun _ entries _ hentries => ?_).bind
        fun entries => Pays.pure (Nat.sub_self _)
    have hweight := weight_map_putAll_le (e := e) entries
    have hsize := min_one_le_nonzeros_sizeBytes (e := e) n.toNat
    rw [length_of_times_ok hentries] at hweight
    omega

/-- No value is returned for less than its weight. -/
theorem readValue_pays (fuel : ℕ) :
    PaysNonzeros (readValue e Runtime.strict fuel) bytes fun v => weight e (contents v) := by
  induction fuel with
  | zero => exact nofun
  | succ fuel ih =>
    refine Pays.remaining.bind fun remaining => ?_
    split
    · exact Pays.fail
    · exact get_pays.bind fun type => readValueOfType_pays ih type

/-! ## Decoding -/

variable {runtime : Runtime} {fuel location next : ℕ} {v : JavaValue}

/-- A value starts with its type byte. -/
lemma readValue_ok (h : (readValue e runtime (fuel + 1)).parse bytes location = .ok (v, next)) :
    ∃ byte, SliceAt bytes location [byte] ∧
      (readValueOfType e runtime (readValue e runtime fuel) byte).parse bytes (location + 1) =
        .ok (v, next) := by
  obtain ⟨remaining, mid, hremaining, h⟩ := bind_ok.mp h
  cases hremaining
  by_cases hlt : location < bytes.length
  · rw [decide_eq_true hlt, if_neg Bool.true_eq_false.mp] at h
    obtain ⟨byte, mid, hbyte, h⟩ := bind_ok.mp h
    obtain ⟨hslice, rfl⟩ := next_ok.mp hbyte
    exact ⟨byte, hslice, h⟩
  · rw [decide_eq_false hlt, if_pos rfl] at h
    cases h

/-- What was written as a type byte is what is read. -/
theorem readValue_of_typeByte (hslice : SliceAt bytes location [type])
    (h : (readValue e runtime fuel).parse bytes location = .ok (v, next)) :
    ∃ fuel', (readValueOfType e runtime (readValue e runtime fuel') type).parse bytes
      (location + 1) = .ok (v, next) := by
  cases fuel with
  | zero => cases h
  | succ fuel =>
    obtain ⟨byte, hbyte, h⟩ := readValue_ok h
    have htype := hslice.getElem? one_pos
    rw [hbyte.getElem? one_pos] at htype
    cases htype
    exact ⟨fuel, h⟩

/-- Padding leads to the next multiple. -/
lemma readAlignment_ok (halignment : 0 < alignment) {u : Unit}
    (h : (readAlignment alignment).parse bytes location = .ok (u, next)) :
    next = location + padding alignment location := by
  have := mod_lt location halignment
  rw [readAlignment, bind_parse position_parse] at h
  unfold padding
  split at h
  · next hmod =>
    rw [if_neg hmod]
    dsimp only [setPosition] at h
    split at h
    · cases h
    · cases h
      omega
  · next hmod =>
    rw [if_pos (not_not.mp hmod)]
    cases h
    rfl

/-- Where padding is missing, the reader skips it all the same. -/
theorem readArray_empty (hn : 0 < n) {array : List (BitVec w)} (hslice : SliceAt bytes location [0])
    (h : (readArray e w n).parse bytes location = .ok (array, next)) :
    next = location + 1 + padding n (location + 1) := by
  have hreads : Parser.Reads (readSize e) (Emit.lit (sizeBytes e 0)) (· = ((0 : ℕ) : ℤ)) :=
    readSize_reads (by decide)
  obtain ⟨_, hsize, rfl⟩ := hreads bytes location hslice
  rw [readArray, bind_parse hsize, if_neg (by decide)] at h
  obtain ⟨_, mid, halign, h⟩ := bind_ok.mp h
  obtain ⟨data, mid', hdata, h⟩ := bind_ok.mp h
  cases h
  obtain ⟨-, -, rfl⟩ := take_ok.mp hdata
  exact readAlignment_ok hn halign

/-- Behind the type byte and the size of a list or map, the reader is in step. -/
theorem readSize_of_emitMembers {members : List (Emit UInt8)}
    (hslice : SliceAt bytes location (emitMembers e type members location))
    (hsize : members.length < 2 ^ 31) :
    SliceAt bytes location [type] ∧ (readSize e).parse bytes (location + 1) =
      .ok ((members.length : ℤ), location + 1 + (sizeBytes e members.length).length) := by
  rw [emitMembers, Emit.append_apply, SliceAt.append_iff] at hslice
  obtain ⟨htype, hslice⟩ := hslice
  rw [Emit.append_apply, SliceAt.append_iff] at hslice
  obtain ⟨_, hread, rfl⟩ := readSize_reads hsize bytes (location + 1) hslice.1
  exact ⟨htype, hread⟩

/-- Corresponding leaves have the same contents. -/
lemma toEncodable_of_corresponds {l : EncodableLeaf} {l' : JavaLeaf} (h : Corresponds Eq l l') :
    l'.toEncodable id = l := by
  cases l <;> cases l' <;> first
    | exact h.elim
    | rfl
    | exact congrArg _ h.symm
    | skip
  · obtain ⟨s, rfl, rfl⟩ := h
    exact congrArg _ (transcode_utf16 _ s)
  · next v v' =>
    have hv : List.Forall₂ Eq v v' := h
    rw [forall₂_eq_eq_eq] at hv
    rw [JavaLeaf.toEncodable, map_id, hv]

/-- A corresponding value stands for the value itself. -/
theorem rel_contents {v : EncodableValue} {j : JavaValue} (h : Value.Rel (Corresponds Eq) v j) :
    Value.Rel Eq v (contents j) := by
  have hj : Value.Rel (fun l l' => JavaLeaf.toEncodable id l = l') j (contents j) := by
    refine rel_mapLeaves (all_of_forall (fun v => ?_) j)
    cases v <;> trivial
  refine h.trans (fun l l' l'' hl hl' => ?_) hj
  rw [← hl', toEncodable_of_corresponds hl]

/-- The keys of maps are scalars or strings. -/
def HasScalarKeys : EncodableValue → Prop
  | .map m => EncodableValue.IsKeyed m
  | _ => True

/-- A null weighs nothing or is one byte of zero. -/
lemma readValue_null (hnull : contents v = .leaf .null)
    (h : (readValue e Runtime.strict fuel).parse bytes location = .ok (v, next)) :
    Wasted bytes 0 location next ∨
      nonzerosBefore bytes next = nonzerosBefore bytes location ∧
        (next = location + 1 ∨ False ∧ bytes.length ≤ location ∧ next = location) := by
  cases fuel with
  | zero => cases h
  | succ fuel =>
    obtain ⟨byte, hslice, h⟩ := readValue_ok h
    have hbyte : nonzerosBefore bytes (location + 1) = _ := nonzerosBefore_sliceAt hslice
    by_cases hzero : byte = 0
    · subst hzero
      cases h
      exact .inr ⟨hbyte, .inl rfl⟩
    · -- A type byte that is not zero was spent on null.
      have hpays := readValueOfType_pays (readValue_pays fuel) byte _ _ _ h
      rw [nonzeros_cons, if_neg hzero, nonzeros_nil] at hbyte
      left
      change 0 + nonzerosBefore bytes location < nonzerosBefore bytes next
      change _ + nonzerosBefore bytes (location + 1) ≤ nonzerosBefore bytes next at hpays
      omega

/-- `readValue` is a decoder that does not tolerate the end of the message. -/
theorem decoder (e : Endian) (bytes : List UInt8) :
    Decoder False (fun v => IsReadable v ∧ HasScalarKeys v) e bytes contents
      (readValue e Runtime.strict) where
  keyed _ hm := hm.2
  pays := readValue_pays
  null hread hb := readValue_null hb hread
  leaf {fuel pos l b next} hl hslice hread := by
    cases fuel with
    | zero => cases hread
    | succ fuel =>
      obtain ⟨_, hread', hrel⟩ :=
        readValue_reads (v := .leaf l) hl.1 (succ_pos fuel) bytes pos hslice
      rw [hread'] at hread
      cases hread
      obtain ⟨l', hb, hl'⟩ := rel_leaf_left (rel_contents hrel)
      exact ⟨by rw [hb, hl'], rfl⟩
  unaligned {fuel pos l b next} hpad hslice hread := by
    have hone : padding 1 (pos + 2) = 0 := if_pos (mod_one _)
    obtain ⟨htype, hsize⟩ :=
      SliceAt.append_iff.mp (show SliceAt bytes pos ([typeByte l] ++ [0]) from hslice)
    obtain ⟨fuel', hread⟩ := readValue_of_typeByte htype hread
    cases l with
    | intList v | longList v | doubleList v =>
      cases v with
      | nil =>
        obtain ⟨array, mid, harray, hpure⟩ := bind_ok.mp hread
        cases hpure
        exact readArray_empty (by decide) hsize harray
      | cons x v => exact (hpad hone).elim
    | _ => exact (hpad hone).elim
  list {fuel pos l b next} hl hslice hread := by
    rw [emit_list] at hslice
    obtain ⟨htype, hsize⟩ := readSize_of_emitMembers hslice (by rw [length_map]; exact hl.1.1)
    obtain ⟨fuel', hread⟩ := readValue_of_typeByte htype hread
    rw [length_map] at hsize
    obtain ⟨_, _, hsize', hread⟩ := bind_ok.mp hread
    rw [hsize] at hsize'
    cases hsize'
    rw [if_neg (by omega)] at hread
    obtain ⟨items, mid, hitems, hpure⟩ := bind_ok.mp hread
    cases hpure
    exact ⟨fuel', items, contents_list items, hitems⟩
  map {fuel pos m b next} hm hslice hread := by
    rw [emit_map] at hslice
    obtain ⟨htype, hsize⟩ := readSize_of_emitMembers hslice (by rw [length_map]; exact hm.1.1)
    obtain ⟨fuel', hread⟩ := readValue_of_typeByte htype hread
    rw [length_map] at hsize
    obtain ⟨_, _, hsize', hread⟩ := bind_ok.mp hread
    rw [hsize] at hsize'
    cases hsize'
    obtain ⟨entries, mid, hentries, hpure⟩ := bind_ok.mp hread
    cases hpure
    refine ⟨fuel', entries, _, contents_map _, fun hlength => ?_, hentries⟩
    rw [length_map] at hlength
    rw [putAll_of_length_le hlength.ge]

end StandardMessageCodec

end Flutter.Java
