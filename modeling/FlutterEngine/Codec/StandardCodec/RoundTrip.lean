import FlutterEngine.Codec.StandardCodec.Recovery

/-!
# Round trips through the C++ codec

`decodeMessage_encodeMessage` says which messages round-trip: those in which nothing but nulls
follows the first empty typed list at an unaligned position. One direction is `recovers`. The other
is `Decoder.betrays` for the decoder `ReadValue`.
-/

namespace Flutter

open Lib Format ByteBufferStreamReader StandardCodecSerializer Parser

variable {e : Endian} {s : List UInt8}

/-! ## Getting ahead -/

/-- A type byte that is not zero was spent on null. -/
theorem readValue_null {fuel location next : ℕ}
    (hread : (readValue e (filled 0) fuel).parse s location = .ok (.leaf .null, next)) :
    Wasted s 0 location next ∨ nonzerosBefore s next = nonzerosBefore s location ∧
      (next = location + 1 ∨ True ∧ s.length ≤ location ∧ next = location) := by
  cases fuel with
  | zero => cases hread
  | succ fuel =>
    rcases lt_or_ge location s.length with hlt | hge
    · have hbyte : nonzerosBefore s (location + 1) = _ := nonzerosBefore_sliceAt (SliceAt.of_lt hlt)
      rw [readValue, bind_parse (readByte_of_lt hlt)] at hread
      by_cases hzero : s[location] = 0
      · rw [hzero] at hread hbyte
        cases hread
        exact .inr ⟨hbyte, .inl rfl⟩
      · have hpays := readTyped_pays (readValue_pays fuel) s[location] _ _ _ hread
        rw [nonzeros_cons, if_neg hzero, nonzeros_nil] at hbyte
        left
        change 0 + nonzerosBefore s location < nonzerosBefore s next
        change _ + nonzerosBefore s (location + 1) ≤ nonzerosBefore s next at hpays
        omega
    · rw [readValue, bind_parse (readByte_of_ge hge)] at hread
      cases hread
      exact .inr ⟨rfl, .inr ⟨trivial, hge, rfl⟩⟩

/-- `ReadValue` is a decoder that tolerates the end of the message. -/
theorem decoder (e : Endian) (s : List UInt8) :
    Decoder True IsEncodable e s id (readValue e (filled 0)) where
  keyed _ hm := hm.2
  pays := readValue_pays
  null hread hb := by
    rw [id] at hb
    rw [hb] at hread
    exact readValue_null hread
  leaf {fuel pos l b next} hl hslice hread := by
    cases fuel with
    | zero => cases hread
    | succ fuel =>
      obtain ⟨_, hread', rfl⟩ :=
        readValue_reads (v := .leaf l) readRelation_eq hl (Nat.succ_pos fuel) s pos hslice
      rw [hread'] at hread
      cases hread
      exact ⟨rfl, rfl⟩
  unaligned {fuel pos l b next} hpad hslice hread := by
    cases fuel with
    | zero => cases hread
    | succ fuel =>
      rw [readValue_of_unaligned _ _ hpad (by rwa [emit_of_unaligned hpad])] at hread
      cases hread
      rfl
  list {fuel pos l b next} hl hslice hread := by
    cases fuel with
    | zero => cases hread
    | succ fuel =>
      rw [(readValue_list (filled 0) fuel l hslice hl.1).1] at hread
      obtain ⟨items, mid, hitems, hpure⟩ := bind_ok.mp hread
      cases hpure
      exact ⟨fuel, items, by rw [List.map_id]; rfl, hitems⟩
  map {fuel pos m b next} hm hslice hread := by
    cases fuel with
    | zero => cases hread
    | succ fuel =>
      rw [(readValue_map (filled 0) fuel m hslice hm.1).1] at hread
      obtain ⟨entries, mid, hentries, hpure⟩ := bind_ok.mp hread
      obtain ⟨hb, rfl⟩ : .map (emplaceEntries ((filled 0).keyAddress (pos + 1)) entries) = b ∧
          mid = next := by
        cases hpure
        exact ⟨rfl, rfl⟩
      refine ⟨fuel, entries, _, hb.symm, fun hlength => ?_, hentries⟩
      rw [Prod.map_id, List.map_id]
      exact (emplaceEntries_subperm _ entries).perm_of_length_le hlength.ge

/-! ## Round trips -/

namespace StandardMessageCodec

/-- Decoding the encoded value gives it back and leaves no byte behind, whatever the memory. -/
def RoundTrips (e : Endian) (v : EncodableValue) : Prop :=
  ∀ memory, ∃ location, decodeMessage e memory (encodeMessage e v) = .ok (v, location) ∧
    (encodeMessage e v).length ≤ location

/-- A message round-trips if nothing but nulls follows the first empty list of 32-bit integers,
64-bit integers or doubles that is written at an unaligned position. For maps of less than 254
entries these are the only messages that do. -/
theorem decodeMessage_encodeMessage (e : Endian) (v : EncodableValue) (hv : v.All IsEncodable) :
    ((follow e v 0 .aligned).isSome → RoundTrips e v) ∧
    (SmallMaps v → RoundTrips e v → (follow e v 0 .aligned).isSome) := by
  have hself : SliceAt (encodeMessage e v) 0 (emit e false v 0) := by
    rw [encodeMessage_eq]
    exact SliceAt.self _
  have hinstep : Tracks True (encodeMessage e v) .aligned 0 0 := rfl
  constructor
  · intro hfollow memory
    obtain ⟨phase, hfollow⟩ := Option.isSome_iff_exists.mp hfollow
    have hfuel : v.depth < (encodeMessage e v).length + 1 := by
      have : v.depth < (emit e false v 0).length := depth_lt_length_emit v 0
      rw [encodeMessage_eq]
      omega
    have hend : ZerosFrom (encodeMessage e v) (0 + (emit e false v 0).length) := by
      rw [ZerosFrom, Nat.zero_add, encodeMessage_eq, nonzerosBefore, before, List.take_length]
      rfl
    obtain ⟨location, hread, htracks⟩ :=
      recovers hv hfuel hself hfollow hinstep fun _ => hend
    refine ⟨location, hread, ?_⟩
    rw [Nat.zero_add, ← encodeMessage_eq] at htracks
    cases phase with
    | aligned => exact htracks.ge
    | ahead => exact htracks.1.elim le_of_lt And.right
  · intro hsmall hround
    obtain ⟨location, hread, -⟩ := hround (filled 0)
    have hbetrays := (decoder e (encodeMessage e v)).betrays hv hsmall hself hinstep hread
    rcases hbetrays (Value.Rel.refl v) with hwasted | ⟨phase, hfollow, -⟩
    · -- There is nothing to waste: the message consists of what the value weighs.
      have hle : nonzerosBefore (encodeMessage e v) location ≤ nonzeros (encodeMessage e v) :=
        before_le
      rw [Wasted] at hwasted
      rw [encodeMessage_eq, nonzeros_emit hsmall] at hle
      rw [encodeMessage_eq] at hwasted
      omega
    · exact Option.isSome_iff_exists.mpr ⟨phase, hfollow⟩

/-- An empty list at an unaligned position, with only a null behind it. -/
theorem decodeMessage_encodeMessage_null :
    RoundTrips .little (.list [.leaf (.longList []), .leaf .null]) :=
  (decodeMessage_encodeMessage .little (.list [.leaf (.longList []), .leaf .null])
    (by decide)).1 (by decide)

/-- Behind an empty list at an unaligned position, the integer `5` comes back as null. -/
theorem decodeMessage_encodeMessage_lost :
    Value.All IsEncodable (.list [.leaf (.longList []), .leaf (.int 5)]) ∧
    decodeMessage .little (filled 0)
        (encodeMessage .little (.list [.leaf (.longList []), .leaf (.int 5)])) =
      .ok (.list [.leaf (.longList []), .leaf .null], 9) ∧
    ¬RoundTrips .little (.list [.leaf (.longList []), .leaf (.int 5)]) := by
  refine ⟨by decide, rfl, fun h => ?_⟩
  obtain ⟨location, hdecode, -⟩ := h (filled 0)
  have hlost : decodeMessage .little (filled 0)
      (encodeMessage .little (.list [.leaf (.longList []), .leaf (.int 5)])) =
    .ok (.list [.leaf (.longList []), .leaf .null], 9) := rfl
  rw [hlost] at hdecode
  simp at hdecode

end StandardMessageCodec

end Flutter
