import FlutterEngine.Codec.StandardCodec.Weight

/-!
# Reading back what was written

`WriteVector` writes no padding in front of the elements of an empty typed list, but `ReadVector`
skips it. Behind an empty list at an unaligned position the reader is therefore ahead of what was
written. `recovers` says that whatever `follow` does not find lost is read back nevertheless. A
reader that is ahead recovers nulls only: it reads zeros as nulls, and so it does with what is past
the end of the message.
-/

namespace Flutter

open Option

open Lib Format ByteBufferStreamReader StandardCodecSerializer List Parser Emit EncodableValue Nat

/-! ## Values that can be encoded -/

/-- The size fits into 32 bits, and the keys of a map are scalars or strings. -/
def IsEncodable (v : EncodableValue) : Prop :=
  size v < 2 ^ 32 ∧
    match v with
    | .map m => EncodableValue.IsKeyed m
    | _ => True

instance : DecidablePred IsEncodable
  | .leaf l => inferInstanceAs (Decidable (size (.leaf l) < 2 ^ 32 ∧ True))
  | .list l => inferInstanceAs (Decidable (l.length < 2 ^ 32 ∧ True))
  | .map m => inferInstanceAs (Decidable (m.length < 2 ^ 32 ∧ EncodableValue.IsKeyed m))

variable {e : Endian} {memory : Memory} {s : List UInt8}

variable {m : List (EncodableValue × EncodableValue)}

/-- Emplacing the entries of a map in their order gives the map back. -/
theorem emplaceEntries_of_isKeyed (hm : EncodableValue.IsKeyed m) (address : ℕ → ℕ) :
    emplaceEntries address m = m := by
  have hsorted : (keyed address m).Pairwise
      fun entry entry' => less entry.1 entry'.1 = true := by
    rw [keyed, pairwise_map]
    have hzip : m.zipIdx.Pairwise fun x y =>
        less (0, x.1.1) (0, y.1.1) = true ∧ EncodableValue.IsScalarKey x.1.1 := by
      have hfst : (m.zipIdx.map Prod.fst).Pairwise fun entry entry' =>
          less (0, entry.1) (0, entry'.1) = true ∧ EncodableValue.IsScalarKey entry.1 := by
        rw [zipIdx_map_fst]
        exact hm.2.imp_of_mem fun hmem _ hless => ⟨hless, hm.1 _ hmem⟩
      exact pairwise_map.mp hfst
    refine hzip.imp ?_
    rintro ⟨entry, i⟩ ⟨entry', j⟩ ⟨hless, hscalar⟩
    rw [less_address hscalar _ _ 0 0]
    exact hless
  have hemplace := emplaceAll_of_sorted hsorted
  change (emplaceAll less (keyed address m)).map _ = m
  rw [hemplace, map_keyed]

lemma readRelation_eq : ReadRelation IsEncodable Eq where
  size_lt _ hv := hv.1
  leaf _ := rfl
  list l l' h := by
    rw [forall₂_eq_eq_eq] at h
    rw [h]
  map m entries address hm _ h := by
    have hentries : m = entries := by
      rw [← forall₂_eq_eq_eq]
      exact h.imp fun entry entry' heq => Prod.ext heq.1 heq.2
    rw [← hentries, emplaceEntries_of_isKeyed hm.2]

/-! ## Reading in step -/

section InStep

variable {fuel pos : ℕ}

/-- Where padding is missing, the reader skips it all the same. -/
theorem readVector_empty {w n : ℕ} (hn : 1 < n) (hslice : SliceAt s pos [0]) :
    (readVector e memory w n).parse s pos = .ok ([], pos + 1 + padding n (pos + 1)) := by
  have hsize : (readSize e memory).parse s pos = .ok (0, pos + 1) := by
    have hreads : Parser.Reads (readSize e memory) (lit (sizeBytes e 0)) (· = 0) :=
      readSize_reads (by decide)
    obtain ⟨_, h, rfl⟩ := hreads s pos hslice
    exact h
  have halign : (if n > 1 then readAlignment n else pure ()).parse s (pos + 1) =
      .ok ((), pos + 1 + padding n (pos + 1)) := by
    rw [if_pos hn]
    simp only [readAlignment, padding]
    by_cases h : (pos + 1) % n = 0 <;> simp [h]
  have hdata : ∀ p, (readBytes (List.replicate (0 * n) 0) (0 * n)).parse s p = .ok ([], p) := by
    intro p
    rw [Nat.zero_mul]
    rcases lt_or_ge s.length (p + 0) with h | h
    · exact readBytes_of_gt h
    · obtain ⟨data, hcopy, hlength, hread⟩ := readBytes_of_le [] h
      cases hcopy
      exact hread
  rw [readVector, bind_parse hsize, bind_parse halign, bind_parse (hdata _)]
  rfl

section

variable (memory : Memory) (fuel : ℕ)

/-- An empty typed list at an unaligned position leaves the reader ahead. -/
theorem readValue_of_unaligned {l : EncodableLeaf} (hl : padding (emptyAlignment l) (pos + 2) ≠ 0)
    (hslice : SliceAt s pos (emit e false (.leaf l) pos)) :
    (readValue e memory (fuel + 1)).parse s pos =
      .ok (.leaf l, pos + 2 + padding (emptyAlignment l) (pos + 2)) := by
  have hone : padding 1 (pos + 2) = 0 := if_pos (mod_one _)
  rw [emit_of_unaligned hl] at hslice
  obtain ⟨htype, hsize⟩ := SliceAt.append_iff.mp
    (show SliceAt s pos ([typeByte l] ++ [0]) from hslice)
  obtain ⟨_, hbyte, rfl⟩ := readByte_reads (typeByte l) s pos htype
  rw [readValue, bind_parse hbyte]
  cases l with
  | intList v | longList v | doubleList v =>
    cases v with
    | nil => exact (bind_parse (readVector_empty (by decide) hsize)).trans rfl
    | cons x v => exact (hl hone).elim
  | _ => exact (hl hone).elim

/-- Behind the type byte and the size of a list or map, the reader is in step. -/
theorem readValue_of_emitMembers {type : UInt8} {members : List (Emit UInt8)}
    (hslice : SliceAt s pos (emitMembers e type members pos)) (hsize : members.length < 2 ^ 32) :
    (readValue e memory (fuel + 1)).parse s pos =
        (readTyped e memory (readValue e memory fuel) type).parse s (pos + 1) ∧
      (readSize e memory).parse s (pos + 1) =
        .ok (members.length, pos + 1 + (sizeBytes e members.length).length) ∧
      SliceAt s (pos + 1 + (sizeBytes e members.length).length)
        (concat members (pos + 1 + (sizeBytes e members.length).length)) := by
  rw [emitMembers, append_apply, SliceAt.append_iff] at hslice
  obtain ⟨htype, hslice⟩ := hslice
  rw [append_apply, SliceAt.append_iff] at hslice
  obtain ⟨_, hbyte, rfl⟩ := readByte_reads type s pos htype
  obtain ⟨_, hn, rfl⟩ := readSize_reads hsize s (pos + 1) hslice.1
  exact ⟨bind_parse hbyte, hn, hslice.2⟩

lemma readValue_list (l : List EncodableValue) (hslice : SliceAt s pos (emit e false (.list l) pos))
    (hsize : l.length < 2 ^ 32) :
    (readValue e memory (fuel + 1)).parse s pos =
        (do return .list (← (readValue e memory fuel).times l.length) :
          StreamReader EncodableValue).parse s (pos + 1 + (sizeBytes e l.length).length) ∧
      SliceAt s (pos + 1 + (sizeBytes e l.length).length)
        (concat (l.map (emit e false)) (pos + 1 + (sizeBytes e l.length).length)) := by
  rw [emit_list] at hslice
  obtain ⟨hread, hn, hmembers⟩ := readValue_of_emitMembers memory fuel hslice (by rwa [length_map])
  rw [length_map] at hn hmembers
  exact ⟨hread.trans (bind_parse hn), hmembers⟩

lemma readValue_map (m : List (EncodableValue × EncodableValue))
    (hslice : SliceAt s pos (emit e false (.map m) pos)) (hsize : m.length < 2 ^ 32) :
    (readValue e memory (fuel + 1)).parse s pos =
        (do
          let entries ← Parser.times
            (do return (← readValue e memory fuel, ← readValue e memory fuel)) m.length
          return .map (emplaceEntries (memory.keyAddress (pos + 1)) entries) :
          StreamReader EncodableValue).parse s (pos + 1 + (sizeBytes e m.length).length) ∧
      SliceAt s (pos + 1 + (sizeBytes e m.length).length)
        (concat (m.map (emitEntry e false)) (pos + 1 + (sizeBytes e m.length).length)) := by
  rw [emit_map] at hslice
  obtain ⟨hread, hn, hmembers⟩ := readValue_of_emitMembers memory fuel hslice (by rwa [length_map])
  rw [length_map] at hn hmembers
  refine ⟨hread.trans ?_, hmembers⟩
  exact (bind_parse position_parse).trans (bind_parse hn)

end

end InStep

/-! ## Values that are recovered -/

section Recovery

variable {pos location : ℕ}

/-- Everything from a position on is zero. -/
def ZerosFrom (s : List UInt8) (pos : ℕ) : Prop := nonzerosBefore s pos = nonzeros s

lemma zerosFrom_of_sliceAt {segment : List UInt8} (h : SliceAt s pos segment)
    (hsegment : nonzeros segment = 0) (hrest : ZerosFrom s (pos + segment.length)) :
    ZerosFrom s pos := by
  rw [ZerosFrom, nonzerosBefore_sliceAt h, hsegment] at hrest
  exact hrest

/-- Behind a position from which on everything is zero, the count does not change. -/
theorem nonzerosBefore_of_zerosFrom (h : ZerosFrom s pos) (hle : pos ≤ location) :
    nonzerosBefore s location = nonzerosBefore s pos :=
  (before_le.trans h.ge).antisymm (before_mono hle)

/-- A reader that is ahead reads zeros, or past the end, as null. -/
theorem readValue_null_ahead {fuel : ℕ} (hslice : SliceAt s pos [0])
    (htracks : Tracks True s .ahead pos location) (hzeros : ZerosFrom s (pos + 1)) :
    ∃ location', (readValue e memory (fuel + 1)).parse s location = .ok (.leaf .null, location') ∧
      Tracks True s .ahead (pos + 1) location' := by
  have hlength : pos + 1 ≤ s.length := hslice.length_le
  have hahead : pos < location ∨ s.length ≤ location := htracks.1.imp_right And.right
  rcases lt_or_ge location s.length with hlt | hge
  · have hpos : pos + 1 ≤ location := by omega
    have hbyte : s[location] = 0 := by
      have hcount := nonzerosBefore_sliceAt (SliceAt.of_lt hlt)
      have hsame := nonzerosBefore_of_zerosFrom hzeros hpos
      have hsame' : nonzerosBefore s (location + [s[location]].length) = _ :=
        nonzerosBefore_of_zerosFrom hzeros (hpos.trans (le_add_right _ _))
      rw [nonzeros_cons] at hcount
      by_contra hne
      rw [if_neg hne] at hcount
      omega
    have hread := readByte_of_lt hlt
    rw [hbyte] at hread
    refine ⟨location + 1, bind_parse hread, .inl (by omega), ?_⟩
    exact nonzerosBefore_of_zerosFrom hzeros (by omega)
  · refine ⟨location, bind_parse (readByte_of_ge hge), .inr ⟨trivial, hge⟩, ?_⟩
    exact nonzerosBefore_of_zerosFrom hzeros (by omega)

variable (e memory s) in
/-- A value is read back wherever `follow` does not find it lost, given that only zeros follow when
the reader is left ahead. -/
def Recovers (v : EncodableValue) : Prop :=
  ∀ {fuel pos location phase phase'}, v.depth < fuel → SliceAt s pos (emit e false v pos) →
    follow e v pos phase = some phase' → Tracks True s phase pos location →
    (phase' = .ahead → ZerosFrom s (pos + (emit e false v pos).length)) →
    ∃ location', (readValue e memory fuel).parse s location = .ok (v, location') ∧
      Tracks True s phase' (pos + (emit e false v pos).length) location'

variable {l : List EncodableValue} {phase phase' : Phase}

/-- What passes by a reader that is ahead is zero. -/
theorem nonzeros_of_followList_ahead (h : followList e l pos .ahead = some phase) :
    nonzeros (concat (l.map (emit e false)) pos) = 0 := by
  induction l generalizing pos with
  | nil => rfl
  | cons v l ih =>
    obtain ⟨phase', hv, hl⟩ := bind_eq_some_iff.mp h
    obtain ⟨rfl, rfl⟩ := follow_ahead hv
    rw [map_cons, Emit.concat, append_apply, nonzeros_append, ih hl]
    rfl

/-- Keys and values that are read one after the other are read as entries. -/
theorem times_pair {fuel : ℕ}
    (h : ((readValue e memory fuel).times (members m).length).parse s pos =
      .ok (members m, location)) :
    (Parser.times (do return (← readValue e memory fuel, ← readValue e memory fuel))
      m.length).parse s pos = .ok (m, location) := by
  induction m generalizing pos with
  | nil =>
    cases h
    rfl
  | cons entry m ih =>
    obtain ⟨_, _, mid, hk, h, heq⟩ := times_succ_ok.mp h
    cases heq
    obtain ⟨_, _, mid', hv, h, heq⟩ := times_succ_ok.mp h
    cases heq
    refine times_succ_ok.mpr ⟨entry, m, mid', ?_, ih h, rfl⟩
    rw [bind_parse hk, bind_parse hv]
    rfl

lemma times_recovers (hl : ∀ v ∈ l, Recovers e memory s v) {fuel : ℕ}
    (hfuel : ∀ v ∈ l, v.depth < fuel) (hslice : SliceAt s pos (concat (l.map (emit e false)) pos))
    (hfollow : followList e l pos phase = some phase') (htracks : Tracks True s phase pos location)
    (hzeros : phase' = .ahead → ZerosFrom s (pos + (concat (l.map (emit e false)) pos).length)) :
    ∃ location', ((readValue e memory fuel).times l.length).parse s location = .ok (l, location') ∧
      Tracks True s phase' (pos + (concat (l.map (emit e false)) pos).length) location' := by
  induction l generalizing pos location phase with
  | nil =>
    cases hfollow
    exact ⟨location, rfl, htracks⟩
  | cons v l ih =>
    obtain ⟨phase₁, hv, hrest⟩ := bind_eq_some_iff.mp hfollow
    obtain ⟨hv', hl'⟩ := forall_mem_cons.mp hl
    obtain ⟨hfuel', hfuels⟩ := forall_mem_cons.mp hfuel
    rw [map_cons, Emit.concat, append_apply, SliceAt.append_iff] at hslice
    rw [map_cons, Emit.concat, Emit.length_append, ← add_assoc] at hzeros ⊢
    -- If the reader is ahead behind `v`, then all the rest is null.
    have hzeros₁ : phase₁ = .ahead → ZerosFrom s (pos + (emit e false v pos).length) := by
      rintro rfl
      exact zerosFrom_of_sliceAt hslice.2 (nonzeros_of_followList_ahead hrest)
        (hzeros (followList_ahead hrest))
    obtain ⟨mid, hread, htracks₁⟩ := hv' hfuel' hslice.1 hv htracks hzeros₁
    obtain ⟨location', hreads, htracks'⟩ := ih hl' hfuels hslice.2 hrest htracks₁ hzeros
    exact ⟨location', times_succ_ok.mpr ⟨v, l, mid, hread, hreads, rfl⟩, htracks'⟩

lemma recovers {v : EncodableValue} (hv : v.All IsEncodable) : Recovers e memory s v := by
  intro fuel pos location phase phase' hfuel hslice hfollow htracks hzeros
  induction v using Value.induct generalizing fuel pos location phase phase' with
  | leaf l =>
    obtain ⟨fuel, rfl⟩ := exists_eq_succ_of_ne_zero (ne_zero_of_lt hfuel)
    cases phase with
    | ahead =>
      obtain ⟨hnull, rfl⟩ := follow_ahead hfollow
      cases hnull
      exact readValue_null_ahead hslice htracks (hzeros rfl)
    | aligned =>
      cases htracks
      by_cases hl : padding (emptyAlignment l) (pos + 2) = 0
      · rw [follow, followLeaf, if_pos hl] at hfollow
        cases hfollow
        have hfollow : follow e (.leaf l) pos .aligned = some .aligned := by
          rw [follow, followLeaf, if_pos hl]
        rw [emit_eq_of_follow hfollow] at hslice ⊢
        obtain ⟨_, hread, rfl⟩ := readValue_reads readRelation_eq hv hfuel s pos hslice
        exact ⟨_, hread, rfl⟩
      · rw [follow, followLeaf, if_neg hl] at hfollow
        cases hfollow
        have hread := readValue_of_unaligned memory fuel hl hslice
        rw [emit_of_unaligned hl] at hzeros ⊢
        refine ⟨_, hread, .inl (Nat.lt_add_of_pos_right (Nat.pos_of_ne_zero hl)), ?_⟩
        exact nonzerosBefore_of_zerosFrom (hzeros rfl) (le_add_right _ _)
  | list l ih =>
    obtain ⟨fuel, rfl⟩ := exists_eq_succ_of_ne_zero (ne_zero_of_lt hfuel)
    cases phase with
    | ahead => cases (follow_ahead hfollow).1
    | aligned =>
      cases htracks
      obtain ⟨hnode, hmembers⟩ := Value.all_list.mp hv
      obtain ⟨hread, htail⟩ := readValue_list memory fuel l hslice hnode.1
      have hdepth : ∀ v ∈ l, v.depth < fuel := by
        intro v hmem
        have := Value.depth_lt_list hmem
        omega
      rw [add_length_emit_list] at hzeros ⊢
      rw [follow] at hfollow
      obtain ⟨location', hreads, htracks⟩ :=
        times_recovers (fun v hmem => ih v hmem (hmembers v hmem)) hdepth htail hfollow rfl hzeros
      refine ⟨location', ?_, htracks⟩
      rw [hread, bind_parse hreads]
      rfl
  | map m ih =>
    obtain ⟨fuel, rfl⟩ := exists_eq_succ_of_ne_zero (ne_zero_of_lt hfuel)
    cases phase with
    | ahead => cases (follow_ahead hfollow).1
    | aligned =>
      cases htracks
      obtain ⟨hnode, hmembers⟩ := Value.all_map.mp hv
      obtain ⟨hread, htail⟩ := readValue_map memory fuel m hslice hnode.1
      -- the keys and values are recovered like the members of a list
      have hdepth : ∀ v ∈ members m, v.depth < fuel := by
        intro v hmem
        obtain ⟨entry, hentry, rfl | rfl⟩ := mem_members.mp hmem <;>
          have := Value.depth_lt_map hentry <;> omega
      have hrecovers : ∀ v ∈ members m, Recovers e memory s v := by
        intro v hmem
        obtain ⟨entry, hentry, rfl | rfl⟩ := mem_members.mp hmem
        · exact (ih entry hentry).1 (hmembers entry hentry).1
        · exact (ih entry hentry).2 (hmembers entry hentry).2
      rw [add_length_emit_map, concat_emitEntry] at hzeros ⊢
      rw [concat_emitEntry] at htail
      rw [follow, followEntries_eq] at hfollow
      obtain ⟨location', hreads, htracks⟩ :=
        times_recovers hrecovers hdepth htail hfollow rfl hzeros
      refine ⟨location', ?_, htracks⟩
      rw [hread, bind_parse (times_pair hreads), emplaceEntries_of_isKeyed hnode.2]
      rfl

end Recovery

end Flutter
