import FlutterEngine.Codec.Format.Weight

/-!
# Decoders that get ahead of the writer

A writer that writes no padding in front of no elements and a decoder that skips it: behind an empty
typed list at an unaligned position the decoder is ahead of what was written. `Tracks` relates the
positions of the two.

A decoder that is ahead can return nearly anything, but not for free: every byte that is not zero of
what it returns must have been read somewhere. So a decoder that returns what was written has
skipped zeros only, and in front of a value other than null it cannot have skipped anything. This is
`betrays`, for all decoders that have the properties collected in `Decoder`.
-/

namespace Flutter.Format

open Lib List Emit EncodableValue Value Parser Nat SliceAt

variable {e : Endian} {s : List UInt8} {pos location next : ℕ}

/-! ## Where the decoder is -/

/-- How many bytes before a position are not zero. -/
abbrev nonzerosBefore (s : List UInt8) (pos : ℕ) : ℕ := before (· != 0) s pos

lemma nonzerosBefore_sliceAt {segment : List UInt8} (h : SliceAt s pos segment) :
    nonzerosBefore s (pos + segment.length) = nonzerosBefore s pos + nonzeros segment :=
  before_sliceAt h

/-- The decoder is at `location` when the writer was at `pos`: at the same position, or further on
with only zeros in between. A tolerant decoder may also have reached the end. -/
def Tracks (tolerant : Prop) (s : List UInt8) : Phase → ℕ → ℕ → Prop
  | .aligned, pos, location => location = pos
  | .ahead, pos, location =>
    (pos < location ∨ tolerant ∧ s.length ≤ location) ∧
      nonzerosBefore s location = nonzerosBefore s pos

/-- More was consumed between two locations than the weight `w` accounts for. -/
def Wasted (s : List UInt8) (w location next : ℕ) : Prop :=
  w + nonzerosBefore s location < nonzerosBefore s next

variable {v k : EncodableValue} {l : EncodableLeaf} {m : List (EncodableValue × EncodableValue)}

/-- A value other than null that the writer writes behind the back of the decoder is lost. -/
theorem not_tracks_of_ne_null {tolerant : Prop} (hv : v ≠ .leaf .null)
    (hslice : SliceAt s pos (emit e false v pos)) : ¬Tracks tolerant s .ahead pos location := by
  rintro ⟨hahead, hzeros⟩
  obtain ⟨type, rest, hemit, htype⟩ :
      ∃ type rest, emit e false v pos = type :: rest ∧ type ≠ 0 := by
    cases v with
    | leaf l =>
      refine ⟨typeByte l, emitData e false l (pos + 1), rfl, ?_⟩
      cases l with
      | null => exact (hv rfl).elim
      | bool b => cases b <;> decide
      | _ => simp [typeByte]
    | list l =>
      rw [emit_list]
      exact ⟨12, _, rfl, by decide⟩
    | map m =>
      rw [emit_map]
      exact ⟨13, _, rfl, by decide⟩
  rw [hemit, ← singleton_append, append_iff] at hslice
  have hbyte := nonzerosBefore_sliceAt hslice.1
  have hlength : pos + 1 ≤ s.length := hslice.1.length_le
  rw [nonzeros_cons, if_neg htype] at hbyte
  have hmono : nonzerosBefore s (pos + 1) ≤ nonzerosBefore s location := by
    refine before_mono ?_
    rcases hahead with hlt | ⟨-, hge⟩ <;> omega
  have hlast : nonzerosBefore s (pos + [type].length) = nonzerosBefore s (pos + 1) := rfl
  omega

lemma emit_of_unaligned (hl : padding (emptyAlignment l) (pos + 2) ≠ 0) :
    emit e false (.leaf l) pos = [typeByte l, 0] := by
  have hone : padding 1 (pos + 2) = 0 := if_pos (mod_one _)
  cases l with
  | intList v | longList v | doubleList v =>
    cases v with
    | nil => rfl
    | cons x v => exact (hl hone).elim
  | _ => exact (hl hone).elim

lemma nonzerosBefore_header {type : UInt8} {members : List (Emit UInt8)}
    (hslice : SliceAt s pos (emitMembers e type members pos)) :
    nonzerosBefore s (pos + 1 + (sizeBytes e members.length).length) =
      nonzerosBefore s pos + nonzeros [type] + nonzeros (sizeBytes e members.length) := by
  rw [emitMembers, append_apply, append_iff] at hslice
  obtain ⟨htype, hslice⟩ := hslice
  rw [append_apply, append_iff] at hslice
  have hfirst : nonzerosBefore s (pos + 1) = _ := nonzerosBefore_sliceAt htype
  have hsecond : nonzerosBefore s (pos + 1 + (sizeBytes e members.length).length) = _ :=
    nonzerosBefore_sliceAt hslice.1
  rw [hsecond]
  exact congrArg (· + _) hfirst

/-! ## Scalar keys -/

/-- A key has one value. -/
theorem value_unique (hm : EncodableValue.IsKeyed m) {v' : EncodableValue} (hv : (k, v) ∈ m)
    (hv' : (k, v') ∈ m) : v = v' := by
  induction m with
  | nil => cases hv
  | cons entry m ih =>
    obtain ⟨hscalar, hsorted⟩ := hm
    obtain ⟨hless, hsorted⟩ := pairwise_cons.mp hsorted
    have hirrefl := less_irrefl (hscalar _ hv) 0 0
    rcases mem_cons.mp hv with rfl | hmem <;> rcases mem_cons.mp hv' with heq | hmem'
    · exact (Prod.mk.inj heq).2.symm
    · have hlt : less (0, k) (0, k) = true := hless _ hmem'
      rw [hirrefl] at hlt
      cases hlt
    · subst heq
      have hlt : less (0, k) (0, k) = true := hless _ hmem
      rw [hirrefl] at hlt
      cases hlt
    · have htail : EncodableValue.IsKeyed m :=
        ⟨fun entry hmem => hscalar entry (mem_cons_of_mem _ hmem), hsorted⟩
      exact ih htail hmem hmem'

lemma follow_of_isScalarKey (hk : EncodableValue.IsScalarKey k) (pos : ℕ) :
    follow e k pos .aligned = some .aligned := by
  have hone : padding 1 (pos + 2) = 0 := if_pos (mod_one _)
  cases k with
  | list | map => exact hk.elim
  | leaf l =>
    rw [follow, followLeaf, if_pos]
    cases l with
    | intList | longList | doubleList => exact hk.elim
    | _ => exact hone

lemma exists_leaf_of_isScalarKey (hk : EncodableValue.IsScalarKey k) : ∃ l, k = .leaf l := by
  cases k with
  | leaf l => exact ⟨l, rfl⟩
  | list | map => exact hk.elim

/-! ## Decoders -/

section Decoder

variable {β ε : Type}

/-- What has to be known about a decoder `read`, whose results stand for values through `abs`, to
tell from what it returns whether it got ahead. The values that are written satisfy `P` at every
node. -/
structure Decoder (tolerant : Prop) (P : EncodableValue → Prop) (e : Endian) (s : List UInt8)
    (abs : β → EncodableValue) (read : ℕ → Parser UInt8 ε β) : Prop where
  /-- The keys of maps are scalars. -/
  keyed : ∀ m, P (.map m) → EncodableValue.IsKeyed m
  /-- Nothing is returned for less than its weight. -/
  pays : ∀ fuel, (read fuel).Pays (· != 0) s fun b => weight e (abs b)
  /-- Null is read from a zero, for more than it is worth, or past the end. -/
  null : ∀ {fuel location b next}, (read fuel).parse s location = .ok (b, next) →
    abs b = .leaf .null → Wasted s 0 location next ∨
      nonzerosBefore s next = nonzerosBefore s location ∧
        (next = location + 1 ∨ tolerant ∧ s.length ≤ location ∧ next = location)
  /-- Leaves are read back from the format with padding in front of no elements. -/
  leaf : ∀ {fuel pos l b next}, P (.leaf l) → SliceAt s pos (emit e true (.leaf l) pos) →
    (read fuel).parse s pos = .ok (b, next) →
    abs b = .leaf l ∧ next = pos + (emit e true (.leaf l) pos).length
  /-- Padding is skipped where it was not written. -/
  unaligned : ∀ {fuel pos l b next}, padding (emptyAlignment l) (pos + 2) ≠ 0 →
    SliceAt s pos [typeByte l, 0] → (read fuel).parse s pos = .ok (b, next) →
    next = pos + 2 + padding (emptyAlignment l) (pos + 2)
  /-- A list is read member by member. -/
  list : ∀ {fuel pos l b next}, P (.list l) → SliceAt s pos (emit e false (.list l) pos) →
    (read fuel).parse s pos = .ok (b, next) → ∃ fuel' items, abs b = .list (items.map abs) ∧
      ((read fuel').times l.length).parse s (pos + 1 + (sizeBytes e l.length).length) =
        .ok (items, next)
  /-- A map is read entry by entry. Entries may be dropped, but not changed. -/
  map : ∀ {fuel pos m b next}, P (.map m) → SliceAt s pos (emit e false (.map m) pos) →
    (read fuel).parse s pos = .ok (b, next) → ∃ fuel' entries m', abs b = .map m' ∧
      (m'.length = entries.length → m'.Perm (entries.map (Prod.map abs abs))) ∧
      (times (do return (← read fuel', ← read fuel')) m.length).parse s
        (pos + 1 + (sizeBytes e m.length).length) = .ok (entries, next)

variable {tolerant : Prop} {P : EncodableValue → Prop} {abs : β → EncodableValue}
  {read : ℕ → Parser UInt8 ε β}

variable (e s tolerant abs read) in
/-- A decoder that returns what was written, up to the order of the entries of maps, has wasted
bytes, or has kept track. -/
def Betrays (v : EncodableValue) : Prop :=
  ∀ {fuel pos location next phase b}, SliceAt s pos (emit e false v pos) →
    Tracks tolerant s phase pos location → (read fuel).parse s location = .ok (b, next) →
    Value.Rel Eq v (abs b) →
    Wasted s (weight e v) location next ∨
      ∃ phase', follow e v pos phase = some phase' ∧
        Tracks tolerant s phase' (pos + (emit e false v pos).length) next

namespace Decoder

variable (D : Decoder tolerant P e s abs read)

include D

lemma betrays_leaf (hl : P (.leaf l)) : Betrays e s tolerant abs read (.leaf l) := by
  intro fuel pos location next phase b hslice htracks hread hrel
  obtain ⟨_, hb, rfl⟩ := rel_leaf_left hrel
  cases phase with
  | ahead =>
    by_cases hnull : l = .null
    · subst hnull
      have hlength : pos + 1 ≤ s.length := hslice.length_le
      have hpos : nonzerosBefore s (pos + 1) = nonzerosBefore s pos := nonzerosBefore_sliceAt hslice
      obtain ⟨hahead, hzeros⟩ := htracks
      rcases D.null hread hb with hwasted | ⟨hzero, hnext⟩
      · exact .inl hwasted
      · refine .inr ⟨.ahead, rfl, ?_, hzero.trans (hzeros.trans hpos.symm)⟩
        rcases hnext with rfl | ⟨htolerant, hge, rfl⟩
        · rcases hahead with hlt | ⟨htolerant, hge⟩
          · exact .inl (succ_lt_succ hlt)
          · exact .inr ⟨htolerant, le_succ_of_le hge⟩
        · exact .inr ⟨htolerant, hge⟩
    · exact (not_tracks_of_ne_null (fun h => hnull (leaf.inj h)) hslice htracks).elim
  | aligned =>
    cases htracks
    by_cases hpad : padding (emptyAlignment l) (pos + 2) = 0
    · have hfollow : follow e (.leaf l) pos .aligned = some .aligned := by
        rw [follow, followLeaf, if_pos hpad]
      have hemit := emit_eq_of_follow hfollow
      rw [hemit] at hslice ⊢
      exact .inr ⟨.aligned, hfollow, (D.leaf hl hslice hread).2⟩
    · have hweight : nonzerosBefore s (pos + 2) = nonzerosBefore s pos + weight e (.leaf l) := by
        have hemit := nonzerosBefore_sliceAt hslice
        rw [nonzeros_emit (smallMaps_leaf l), emit_of_unaligned hpad] at hemit
        exact hemit
      rw [emit_of_unaligned hpad] at hslice ⊢
      obtain rfl := D.unaligned hpad hslice hread
      have hmono : nonzerosBefore s (pos + 2) ≤
          nonzerosBefore s (pos + 2 + padding (emptyAlignment l) (pos + 2)) :=
        before_mono (le_add_right _ _)
      rcases hmono.lt_or_eq with hlt | heq
      · left
        rw [Wasted]
        omega
      · right
        refine ⟨.ahead, by rw [follow, followLeaf, if_neg hpad], ?_, heq.symm⟩
        exact .inl (Nat.lt_add_of_pos_right (Nat.pos_of_ne_zero hpad))

variable {phase : Phase}

/-- The members of a list are read one after the other, each in the phase that the one before
leaves. -/
theorem times_betrays {l : List EncodableValue} {items : List β}
    (hl : ∀ v ∈ l, Betrays e s tolerant abs read v) {fuel : ℕ}
    (hslice : SliceAt s pos (concat (l.map (emit e false)) pos))
    (htracks : Tracks tolerant s phase pos location)
    (hread : ((read fuel).times l.length).parse s location = .ok (items, next))
    (hrel : List.Forall₂ (fun v b => Value.Rel Eq v (abs b)) l items) :
    Wasted s (l.map (weight e)).sum location next ∨
      ∃ phase', followList e l pos phase = some phase' ∧
        Tracks tolerant s phase' (pos + (concat (l.map (emit e false)) pos).length) next := by
  induction l generalizing pos location phase items with
  | nil =>
    cases hread
    exact .inr ⟨phase, rfl, htracks⟩
  | cons v l ih =>
    obtain ⟨b, bs, mid, hv, hrest, rfl⟩ := times_succ_ok.mp hread
    obtain ⟨hrelv, hrell⟩ := forall₂_cons.mp hrel
    obtain ⟨hv', hl'⟩ := forall_mem_cons.mp hl
    rw [map_cons, Emit.concat, append_apply, append_iff] at hslice
    simp only [map_cons, Emit.concat, Emit.length_append, ← add_assoc, sum_cons]
    have hpays : weight e v + nonzerosBefore s location ≤ nonzerosBefore s mid := by
      rw [weight_congr hrelv]
      exact D.pays fuel location b mid hv
    have hpays' : (l.map (weight e)).sum + nonzerosBefore s mid ≤ nonzerosBefore s next := by
      have hweights : l.map (weight e) = bs.map fun b => weight e (abs b) := by
        rw [← forall₂_eq_eq_eq, forall₂_map_left_iff, forall₂_map_right_iff]
        exact hrell.imp fun v b hvb => weight_congr hvb
      rw [hweights]
      exact (D.pays fuel).times l.length mid bs next hrest
    rcases hv' hslice.1 htracks hv hrelv with hwasted | ⟨phase₁, hfollow, htracks₁⟩
    · left
      rw [Wasted] at hwasted ⊢
      omega
    rcases ih hl' hslice.2 htracks₁ hrest hrell with hwasted | ⟨phase', hfollow', htracks'⟩
    · left
      rw [Wasted] at hwasted ⊢
      omega
    · exact .inr ⟨phase', by rw [followList, hfollow]; exact hfollow', htracks'⟩

/-- The entries of the map `m` are read as entries of `m` in any order. As long as the decoder keeps
track, it reads them as they were written; behind the back of the decoder there is no further entry,
since no key but the first is null. -/
theorem entries_betray {r : List (EncodableValue × EncodableValue)} {entries : List (β × β)}
    (hm : EncodableValue.IsKeyed m) (hr : ∀ entry ∈ r, entry ∈ m)
    (hsorted : r.Pairwise fun entry entry' => less (0, entry.1) (0, entry'.1) = true)
    (hkeys : ∀ entry ∈ r, P entry.1) (hvalues : ∀ entry ∈ r, Betrays e s tolerant abs read entry.2)
    (hentries : ∀ entry ∈ entries, ∃ entry' ∈ m, Value.Rel Eq entry'.1 (abs entry.1) ∧
      Value.Rel Eq entry'.2 (abs entry.2))
    {fuel : ℕ} (hslice : SliceAt s pos (concat (r.map (emitEntry e false)) pos))
    (htracks : Tracks tolerant s phase pos location)
    (hahead : phase = .ahead → ∀ entry ∈ r, entry.1 ≠ .leaf .null)
    (hread : (times (do return (← read fuel, ← read fuel)) r.length).parse s location =
      .ok (entries, next)) :
    Wasted s (entries.map fun entry => weight e (abs entry.1) + weight e (abs entry.2)).sum
        location next ∨
      ∃ phase', followEntries e r pos phase = some phase' ∧ Tracks tolerant s phase'
        (pos + (concat (r.map (emitEntry e false)) pos).length) next := by
  induction r generalizing pos location phase entries with
  | nil =>
    cases hread
    exact .inr ⟨phase, rfl, htracks⟩
  | cons entry r ih =>
    obtain ⟨k, v⟩ := entry
    obtain ⟨entry', entries, mid, hentry, hrest, rfl⟩ := times_succ_ok.mp hread
    obtain ⟨k', mid₁, hk, hentry⟩ := bind_ok.mp hentry
    obtain ⟨v', mid₂, hv, hentry⟩ := bind_ok.mp hentry
    cases hentry
    obtain ⟨hmem, hr'⟩ := forall_mem_cons.mp hr
    obtain ⟨hkey, hkeys'⟩ := forall_mem_cons.mp hkeys
    obtain ⟨hvalue, hvalues'⟩ := forall_mem_cons.mp hvalues
    obtain ⟨⟨entry₀, hmem₀, hkey₀, hvalue₀⟩, hentries'⟩ := forall_mem_cons.mp hentries
    obtain ⟨hless, hsorted'⟩ := pairwise_cons.mp hsorted
    have hlength : (emitEntry e false (k, v) pos).length = (emit e false k pos).length +
        (emit e false v (pos + (emit e false k pos).length)).length := Emit.length_append _ _ _
    rw [map_cons, Emit.concat, append_apply, append_iff] at hslice
    simp only [map_cons, Emit.concat, Emit.length_append, ← add_assoc, sum_cons]
    obtain ⟨hslice, htail⟩ := hslice
    rw [emitEntry, append_apply, append_iff] at hslice
    cases phase with
    | ahead => exact (not_tracks_of_ne_null (hahead rfl _ mem_cons_self) hslice.1 htracks).elim
    | aligned =>
      cases htracks
      -- The key is read in step, and so the value is the one of this key.
      have hscalar := hm.1 _ hmem
      have hfollowk : follow e k pos .aligned = some .aligned := follow_of_isScalarKey hscalar pos
      obtain ⟨l, rfl⟩ := exists_leaf_of_isScalarKey hscalar
      have hslicek := hslice.1
      rw [emit_eq_of_follow hfollowk] at hslicek
      obtain ⟨habs, hmid⟩ := D.leaf hkey hslicek hk
      rw [← emit_eq_of_follow hfollowk] at hmid
      have hvalue₁ : Value.Rel Eq v (abs v') := by
        obtain ⟨k₀, v₀⟩ := entry₀
        rw [habs] at hkey₀
        obtain ⟨l₀, rfl⟩ := exists_leaf_of_isScalarKey (hm.1 _ hmem₀)
        cases (show l₀ = l from hkey₀)
        rwa [value_unique hm hmem hmem₀]
      have hpaysk : weight e (abs k') + nonzerosBefore s pos ≤ nonzerosBefore s mid₁ :=
        D.pays fuel pos k' mid₁ hk
      have hpaysv : weight e (abs v') + nonzerosBefore s mid₁ ≤ nonzerosBefore s mid :=
        D.pays fuel mid₁ v' mid hv
      have hpays : (entries.map fun entry => weight e (abs entry.1) + weight e (abs entry.2)).sum +
          nonzerosBefore s mid ≤ nonzerosBefore s next :=
        (D.pays fuel).pair.times r.length mid entries next hrest
      have hinstep : Tracks tolerant s .aligned _ mid₁ := hmid
      rcases hvalue hslice.2 hinstep hv hvalue₁ with hwasted | ⟨phase₁, hfollow, htracks₁⟩
      · left
        rw [weight_congr hvalue₁] at hwasted
        rw [Wasted] at hwasted ⊢
        omega
      rw [add_assoc, ← hlength] at htracks₁
      have hahead₁ : phase₁ = .ahead → ∀ entry ∈ r, entry.1 ≠ .leaf .null := by
        intro _ entry hentry hnull
        have := hless entry hentry
        rw [hnull, less_null] at this
        cases this
      rcases ih hr' hsorted' hkeys' hvalues' hentries' htail htracks₁ hahead₁ hrest with
        hwasted | ⟨phase', hfollow', htracks'⟩
      · left
        rw [Wasted] at hwasted ⊢
        omega
      · refine .inr ⟨phase', ?_, htracks'⟩
        rw [followEntries, hfollowk, Option.bind_some, hfollow]
        exact hfollow'

/-- A value that comes back was paid for with waste, or was followed by nothing but nulls from where
the decoder got ahead. -/
theorem betrays (hv : v.All P) (hsmall : SmallMaps v) : Betrays e s tolerant abs read v := by
  induction v using induct with
  | leaf l => exact D.betrays_leaf hv
  | list l ih =>
    intro fuel pos location next phase b hslice htracks hread hrel
    cases phase with
    | ahead => exact (not_tracks_of_ne_null (v := .list l) (by simp) hslice htracks).elim
    | aligned =>
      cases htracks
      obtain ⟨hnode, hmembers⟩ := all_list.mp hv
      have hsmalls := (all_list.mp hsmall).2
      obtain ⟨fuel', items, hb, hitems⟩ := D.list hnode hslice hread
      rw [hb, rel_list, forall₂_map_right_iff] at hrel
      rw [emit_list] at hslice
      have hheader := nonzerosBefore_header hslice
      rw [emitMembers, append_apply, append_iff, append_apply, append_iff, length_map] at hslice
      rw [length_map] at hheader
      have hinstep : Tracks tolerant s .aligned (pos + 1 + (sizeBytes e l.length).length) _ := rfl
      have hlist := D.times_betrays (fun v hmem => ih v hmem (hmembers v hmem) (hsmalls v hmem))
        hslice.2.2 hinstep hitems hrel
      rw [add_length_emit_list, weight_list, follow]
      rcases hlist with hwasted | hfollow
      · left
        rw [Wasted] at hwasted ⊢
        have : nonzeros [12] = 1 := rfl
        omega
      · exact .inr hfollow
  | map m ih =>
    intro fuel pos location next phase b hslice htracks hread hrel
    cases phase with
    | ahead => exact (not_tracks_of_ne_null (v := .map m) (by simp) hslice htracks).elim
    | aligned =>
      cases htracks
      obtain ⟨hnode, hmembers⟩ := all_map.mp hv
      obtain ⟨hsize, hsmalls⟩ := all_map.mp hsmall
      obtain ⟨fuel', entries, m', hb, hkept, hentries⟩ := D.map hnode hslice hread
      rw [hb] at hrel
      obtain ⟨n, hperm, hrel⟩ := rel_map.mp hrel
      -- As many entries were read as there are in the map, so none was dropped.
      have hperm' : n.Perm (entries.map (Prod.map abs abs)) := by
        refine hperm.trans (hkept ?_)
        rw [← hperm.length_eq, ← hrel.length_eq, length_of_times_ok hentries]
      have hmem : ∀ entry ∈ entries, ∃ entry' ∈ m,
          Value.Rel Eq entry'.1 (abs entry.1) ∧ Value.Rel Eq entry'.2 (abs entry.2) := by
        intro entry hentry
        have hn : Prod.map abs abs entry ∈ n := hperm'.mem_iff.mpr (mem_map_of_mem hentry)
        exact exists_mem_of_forall₂ hrel hn
      have hweights : (m.map (entryWeight e)).sum =
          (entries.map fun entry => weight e (abs entry.1) + weight e (abs entry.2)).sum := by
        have hsame : m.map (entryWeight e) = n.map (entryWeight e) := by
          rw [← forall₂_eq_eq_eq, forall₂_map_left_iff, forall₂_map_right_iff]
          refine hrel.imp fun entry entry' hentry => ?_
          rw [entryWeight, entryWeight, weight_congr hentry.1, weight_congr hentry.2]
        rw [hsame, (hperm'.map (entryWeight e)).sum_eq, map_map]
        rfl
      have hlt : m.length < 254 := hsize rfl
      rw [emit_map] at hslice
      have hheader := nonzerosBefore_header hslice
      rw [emitMembers, append_apply, append_iff, append_apply, append_iff, length_map] at hslice
      rw [length_map, nonzeros_sizeBytes_of_lt hlt] at hheader
      have hinstep : Tracks tolerant s .aligned (pos + 1 + (sizeBytes e m.length).length) _ := rfl
      have hkeyed := D.keyed m hnode
      have hkeys : ∀ entry ∈ m, P entry.1 := by
        intro entry hentry
        obtain ⟨l, hl⟩ := exists_leaf_of_isScalarKey (hkeyed.1 entry hentry)
        have hkey := (hmembers entry hentry).1
        rw [hl] at hkey ⊢
        exact hkey
      have hmap := D.entries_betray hkeyed (fun _ hmem => hmem) hkeyed.2 hkeys
        (fun entry hmem => (ih entry hmem).2 (hmembers entry hmem).2 (hsmalls entry hmem).2)
        hmem hslice.2.2 hinstep (by simp) hentries
      rw [add_length_emit_map, weight_map, hweights, follow]
      rcases hmap with hwasted | hfollow
      · left
        rw [Wasted] at hwasted ⊢
        have : nonzeros [13] = 1 := rfl
        omega
      · exact .inr hfollow

end Decoder

end Decoder

end Flutter.Format
