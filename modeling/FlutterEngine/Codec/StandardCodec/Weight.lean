import FlutterEngine.Codec.Format.Tracking
import FlutterEngine.Codec.StandardCodec.Layout
import FlutterEngine.Codec.StandardCodec.Malformed

/-!
# What a value decoded by the C++ codec has consumed

Every function of `StandardCodecSerializer` that reads returns only what it has paid for with bytes
that are not zero: `readValue_pays`. The reader is taken with its uninitialised locals at zero.
-/

namespace Flutter

open Lib Format ByteBufferStreamReader StandardCodecSerializer Parser Nat

variable {e : Endian} {bytes : List UInt8}

variable {length : ℕ} {read : StreamReader EncodableValue}

/-- What is copied is a slice. -/
lemma sliceAt_of_copy {location : ℕ} {data : List UInt8} (h : copy bytes location length = .ok data)
    (hle : location + length ≤ bytes.length) : SliceAt bytes location data := by
  induction length generalizing location data with
  | zero =>
    cases h
    exact ⟨bytes.take location, bytes.drop location, by simp, by simp; omega⟩
  | succ length ih =>
    obtain ⟨rest, hrest, -⟩ := copy_of_le (show location + 1 + length ≤ bytes.length by omega)
    rw [copy, byteAt_of_lt (by omega), hrest] at h
    cases h
    have htail : SliceAt bytes (location + 1) rest := ih hrest (by omega)
    exact SliceAt.append_iff.mpr ⟨SliceAt.of_lt _, htail⟩

/-- A byte costs itself. -/
lemma readByte_pays : PaysNonzeros readByte bytes fun byte => nonzeros [byte] := by
  intro location byte next h
  rcases lt_or_ge location bytes.length with hlt | hge
  · rw [readByte_of_lt hlt] at h
    cases h
    have := before_sliceAt (P := (· != 0)) (SliceAt.of_lt hlt)
    rw [add_comm]
    exact this.ge
  · rw [readByte_of_ge hge] at h
    cases h
    exact (zero_add _).le

/-- Bytes cost themselves. -/
lemma readBytes_pays {buffer : List UInt8} {w : List UInt8 → ℕ} (hbuffer : buffer.length = length)
    (hzero : nonzeros buffer = 0)
    (hw : ∀ data : List UInt8, data.length = length → w data ≤ nonzeros data) :
    PaysNonzeros (readBytes buffer length) bytes w := by
  intro location data next h
  have hlength := length_of_readBytes_ok hbuffer h
  have hdata := hw data hlength
  rcases lt_or_ge bytes.length (location + length) with hlt | hle
  · rw [readBytes_of_gt hlt] at h
    cases h
    omega
  · obtain ⟨copied, hcopy, hcopied, hread⟩ := readBytes_of_le buffer hle
    rw [hread, List.drop_eq_nil_of_le hbuffer.le, List.append_nil] at h
    cases h
    have hslice := before_sliceAt (P := (· != 0)) (sliceAt_of_copy hcopy hle)
    rw [hcopied] at hslice
    rw [hslice, Nat.add_comm]
    exact Nat.add_le_add_left hdata _

/-- Padding costs nothing. -/
lemma readAlignment_pays {alignment : ℕ} :
    PaysNonzeros (readAlignment alignment) bytes fun _ => 0 := by
  intro location _ next h
  obtain ⟨_, next', hread, hle⟩ := readAlignment_total location (zero_le _)
  rw [hread] at h
  cases h
  rw [zero_add]
  exact before_mono hle

/-- A size costs its bytes. -/
lemma readSize_pays :
    PaysNonzeros (readSize e (filled 0)) bytes fun n => nonzeros (sizeBytes e n) := by
  refine Pays.position_bind fun location => readByte_pays.bind fun byte => ?_
  split
  · next h =>
    refine Pays.pure ?_
    have hbyte : byte.toNat < 254 := h
    rw [sizeBytes, if_pos hbyte, UInt8.ofNat_toNat, Nat.sub_self]
  · next h =>
    have hmarker : nonzeros [byte] = 1 := by
      have : ¬byte.toNat < 254 := h
      rw [nonzeros_singleton]
      omega
    split
    · refine (readBytes_pays (w := fun data => nonzeros (sizeBytes e (e.word 16 data).toNat) - 1)
        (by simp) ?_ ?_).bind fun data => Pays.pure (by omega)
      · exact e.nonzeros_bytes_zero _ _
      · intro data hdata
        have := nonzeros_sizeBytes_le (e := e) (w := 16) (.inl rfl) rfl hdata rfl
        omega
    · refine (readBytes_pays (w := fun data => nonzeros (sizeBytes e (e.word 32 data).toNat) - 1)
        (by simp) ?_ ?_).bind fun data => Pays.pure (by omega)
      · exact e.nonzeros_bytes_zero _ _
      · intro data hdata
        have := nonzeros_sizeBytes_le (e := e) (w := 32) (.inr rfl) rfl hdata rfl
        omega

/-- A vector costs its size and its bytes. -/
lemma readVector_pays {w n : ℕ} (hw : w = 8 * n) : PaysNonzeros (readVector e (filled 0) w n) bytes
      fun l => nonzeros (sizeBytes e l.length) + nonzeros (e.arrayBytes n l) := by
  refine readSize_pays.bind fun count => ?_
  have halign : PaysNonzeros (if n > 1 then readAlignment n else pure ()) bytes fun _ => 0 := by
    split
    · exact readAlignment_pays
    · exact Pays.pure rfl
  refine halign.bind fun _ => Pays.bind (readBytes_pays (by simp) (by simp) ?_) fun data =>
    Pays.pure (Nat.sub_self _)
  intro data hdata
  rw [Endian.length_words, e.bytes_words hw hdata]
  omega

/-- A map weighs no more than the entries it is made of. -/
lemma weight_map_emplaceEntries_le (address : ℕ → ℕ)
    (entries : List (EncodableValue × EncodableValue)) :
    weight e (.map (emplaceEntries address entries)) ≤
      1 + min 1 entries.length + (entries.map (entryWeight e)).sum := by
  have hlength := (emplaceEntries_subperm address entries).length_le
  obtain ⟨l, hperm, hsub⟩ := emplaceEntries_subperm address entries
  have hsum : (l.map (entryWeight e)).sum ≤ (entries.map (entryWeight e)).sum :=
    (hsub.map (entryWeight e)).sum_le_sum fun _ _ => zero_le _
  rw [(hperm.map (entryWeight e)).sum_eq] at hsum
  rw [weight_map]
  omega

/-- A value costs its weight without the type byte. -/
lemma readTyped_pays (hread : PaysNonzeros read bytes (weight e)) (type : UInt8) :
    PaysNonzeros (readTyped e (filled 0) read type) bytes
      fun v => weight e v - nonzeros [type] := by
  -- A value without nested values is paid for with its type byte and its data.
  have hleaf : ∀ (l : EncodableLeaf) d, dataWeight e l ≤ d → weight e (.leaf l) - 1 - d = 0 := by
    intro l d hd
    have := weight_leaf_le (e := e) l
    omega
  have hword : ∀ {n w : ℕ}, w = 8 * n → PaysNonzeros (readBytes (List.replicate n 0) n) bytes
        fun data => nonzeros (e.bytes n (e.word w data)) := by
    intro n w hw
    refine readBytes_pays (by simp) (by simp) fun data hdata => ?_
    rw [e.bytes_word hdata hw]
  rw [nonzeros_singleton]
  unfold readTyped
  generalize type.toNat = t
  match t with
  | 0 | 1 | 2 | n + 14 => exact Pays.pure rfl
  | 3 => exact (hword rfl).bind fun data => Pays.pure (hleaf (.int _) _ le_rfl)
  | 4 => exact (hword rfl).bind fun data => Pays.pure (hleaf (.long _) _ le_rfl)
  | 6 =>
    exact readAlignment_pays.bind fun _ => (hword rfl).bind fun data =>
      Pays.pure (hleaf (.double _) _ le_rfl)
  | 5 | 7 =>
    have hstring : ∀ size, PaysNonzeros (readBytes (List.replicate size 0) size) bytes
        fun data => dataWeight e (.string data) - nonzeros (sizeBytes e size) := by
      intro size
      refine readBytes_pays (by simp) (by simp) fun data hdata => ?_
      rw [dataWeight, hdata]
      omega
    refine readSize_pays.bind fun size => (hstring size).bind fun data => Pays.pure ?_
    have := hleaf (.string data) _ le_rfl
    omega
  | 8 => exact (readVector_pays rfl).bind fun _ => Pays.pure (hleaf (.byteList _) _ le_rfl)
  | 9 => exact (readVector_pays rfl).bind fun _ => Pays.pure (hleaf (.intList _) _ le_rfl)
  | 10 => exact (readVector_pays rfl).bind fun _ => Pays.pure (hleaf (.longList _) _ le_rfl)
  | 11 => exact (readVector_pays rfl).bind fun _ => Pays.pure (hleaf (.doubleList _) _ le_rfl)
  | 12 =>
    refine readSize_pays.bind fun n => ((hread.times n).mono fun _ l _ hl => ?_).bind fun l =>
      Pays.pure (Nat.sub_self _)
    rw [weight_list, length_of_times_ok hl]
    omega
  | 13 =>
    have hentry : PaysNonzeros (do return (← read, ← read)) bytes (entryWeight e) := hread.pair
    refine Pays.position_bind fun location => readSize_pays.bind fun n =>
      ((hentry.times n).mono fun _ entries _ hentries => ?_).bind fun entries =>
        Pays.pure (Nat.sub_self _)
    have hweight := weight_map_emplaceEntries_le (e := e) ((filled 0).keyAddress location) entries
    have hsize := min_one_le_nonzeros_sizeBytes (e := e) n
    rw [length_of_times_ok hentries] at hweight
    omega

/-- No value is returned for less than its weight. -/
theorem readValue_pays (fuel : ℕ) :
    PaysNonzeros (readValue e (filled 0) fuel) bytes (weight e) := by
  induction fuel with
  | zero => exact nofun
  | succ fuel ih => exact readByte_pays.bind fun type => readTyped_pays ih type

end Flutter
