import FlutterEngine.Window.PointerDataPacketConverter.History

/-!
# Pointer identifiers

Every down event gets a new identifier, and all events of the contact are to carry it until the
device is up again or canceled. They do, but for moves that are synthesized for a scroll event of a
device that is down: `ConvertPointerData` does not update their identifier.

* `down_identifiers`: down events are numbered in the order of the output.
* `carriesIdentifiers_iff`: whether all events of all contacts carry their identifier.
-/

namespace Flutter.PointerDataPacketConverter

open Lib List Option

variable {R : Type} {c c' : PointerDataPacketConverter R} {x : PointerData R}
  {output : List (PointerData R)}

/-- A down event. -/
def isDownEvent (x : PointerData R) : Bool := x.signalKind = .none && x.change = .down

/-- The identifiers of the down events, in the order of the output. -/
def downIdentifiers (output : List (PointerData R)) : List (BitVec 64) :=
  (output.filter isDownEvent).map PointerData.pointerIdentifier

/-- The latest down event of a device. -/
def latestDown (device : ℤ) (output : List (PointerData R)) : Option (PointerData R) :=
  lastOf (fun x => isDownEvent x && x.device = device) output

/-- A move, up or cancel event carries the identifier of the latest down event of its device. -/
def CarriesIdentifier (before : List (PointerData R)) (x : PointerData R) : Prop :=
  x.signalKind = .none → x.change = .move ∨ x.change = .up ∨ x.change = .cancel →
    ∃ y, latestDown x.device before = some y ∧ x.pointerIdentifier = y.pointerIdentifier

/-! ## Numbering -/

variable {ids locs : Prop} {device : ℤ}

/-- A down event starts a contact with the next identifier. No other event does, or changes the
identifier of a contact. -/
theorem Emits.contact [Sub R] (h : Emits ids locs c x c') :
    (isDownEvent x = true ∧ x.pointerIdentifier = c.pointer + 1 ∧ c'.pointer = c.pointer + 1 ∧
      ∃ state, c'.states x.device = some state ∧ state.pointerIdentifier = x.pointerIdentifier) ∨
    (isDownEvent x = false ∧ c'.pointer = c.pointer ∧
      ∀ state', c'.states x.device = some state' → state'.isDown = true →
        ∃ state, c.states x.device = some state ∧ state.isDown = true ∧
          state.pointerIdentifier = state'.pointerIdentifier) := by
  cases h with
  | down signal change known isUp location identifier =>
    exact .inl ⟨by simp [isDownEvent, signal, change], identifier, rfl, _, states_setState,
      identifier.symm⟩
  | move signal change known isDown =>
    refine .inr ⟨by simp [isDownEvent, change], rfl, fun state' hstate' _ => ?_⟩
    rw [states_setState, some.injEq] at hstate'
    subst hstate'
    exact ⟨_, known, isDown, rfl⟩
  | scroll signal known =>
    exact .inr ⟨by simp [isDownEvent, signal], rfl, fun state' h' hd => ⟨state', h', hd, rfl⟩⟩
  | add signal change =>
    refine .inr ⟨by simp [isDownEvent, change], rfl, fun state' hstate' hdown => ?_⟩
    rw [states_setState, some.injEq] at hstate'
    rw [← hstate'] at hdown
    cases hdown
  | hover signal change known isUp =>
    refine .inr ⟨by simp [isDownEvent, change], rfl, fun state' hstate' hdown => ?_⟩
    rw [states_setState, some.injEq] at hstate'
    rw [← hstate', PointerState.moveTo, isUp] at hdown
    cases hdown
  | release signal change =>
    refine .inr ⟨by rcases change with change | change <;> simp [isDownEvent, change], rfl, ?_⟩
    intro state' hstate' hdown
    rw [states_setState, some.injEq] at hstate'
    rw [← hstate'] at hdown
    cases hdown
  | remove signal change =>
    refine .inr ⟨by simp [isDownEvent, change], rfl, fun state' hstate' => ?_⟩
    rw [states_eraseState] at hstate'
    cases hstate'

/-- Down events are numbered, and devices that are down have the identifier of their latest down
event. -/
structure Numbered (c : PointerDataPacketConverter R) (output : List (PointerData R)) : Prop where
  pointer : c.pointer = BitVec.ofNat 64 (downIdentifiers output).length
  identifiers : downIdentifiers output =
    (List.range (downIdentifiers output).length).map fun k => BitVec.ofNat 64 (k + 1)
  latest : ∀ device state, c.states device = some state → state.isDown = true →
    ∃ y, latestDown device output = some y ∧ state.pointerIdentifier = y.pointerIdentifier

/-- The identifiers of presses with one more event. -/
lemma downIdentifiers_snoc : downIdentifiers (output ++ [x]) =
    downIdentifiers output ++ if isDownEvent x then [x.pointerIdentifier] else [] := by
  rw [downIdentifiers, downIdentifiers, filter_append, map_append]
  split <;> simp_all

/-- The latest press with one more event. -/
lemma latestDown_snoc : latestDown device (output ++ [x]) =
    if isDownEvent x && x.device = device then some x else latestDown device output :=
  lastOf_snoc

/-- At first no pointer has a number. -/
lemma numbered_init : Numbered (init : PointerDataPacketConverter R) [] where
  pointer := rfl
  identifiers := rfl
  latest := nofun

/-- Each event keeps the numbers. -/
lemma Numbered.emits [Sub R] (hc : Numbered c output) (h : Emits ids locs c x c') :
    Numbered c' (output ++ [x]) := by
  rcases h.contact with ⟨hdown, hid, hpointer, state, hstate, hstateId⟩ | ⟨hdown, hpointer, hsame⟩
  · refine ⟨?_, ?_, fun device state' hstate' hdown' => ?_⟩
    · rw [downIdentifiers_snoc, if_pos hdown, hpointer, hc.pointer, List.length_append]
      exact (BitVec.ofNat_add _ _).symm
    · rw [downIdentifiers_snoc, if_pos hdown, List.length_append, length_singleton,
        range_succ, map_append, ← hc.identifiers, hid, hc.pointer]
      rw [map_singleton, BitVec.ofNat_add]
      rfl
    · rw [latestDown_snoc]
      by_cases hdevice : x.device = device
      · subst hdevice
        rw [if_pos (by simp [hdown])]
        rw [hstate] at hstate'
        cases hstate'
        exact ⟨x, rfl, hstateId⟩
      · rw [if_neg (by simp [hdevice])]
        rw [h.states_of_ne (Ne.symm hdevice)] at hstate'
        exact hc.latest device state' hstate' hdown'
  · refine ⟨?_, ?_, fun device state' hstate' hdown' => ?_⟩
    · rw [downIdentifiers_snoc, hdown, hpointer]
      simpa using hc.pointer
    · rw [downIdentifiers_snoc, hdown]
      simpa using hc.identifiers
    · rw [latestDown_snoc, hdown]
      by_cases hdevice : x.device = device
      · subst hdevice
        obtain ⟨state, hstate, hstateDown, hid⟩ := hsame state' hstate' hdown'
        rw [← hid]
        exact hc.latest x.device state hstate hstateDown
      · rw [h.states_of_ne (Ne.symm hdevice)] at hstate'
        exact hc.latest device state' hstate' hdown'

/-- All events keep the numbers. -/
lemma EmitsAll.numbered [Sub R] (h : EmitsAll ids locs init output c) : Numbered c output := by
  induction h with
  | nil => exact numbered_init
  | snoc _ hx ih => exact ih.emits hx

lemma toInt_ofNat_of_lt {n : ℕ} (h : n < 2 ^ 63) : (BitVec.ofNat 64 n).toInt = n := by
  have hmod : (BitVec.ofNat 64 n).toNat = n := Nat.mod_eq_of_lt (by omega)
  rw [BitVec.toInt_eq_toNat_of_lt (by omega), hmod]

/-- The identifiers of down events are distinct and increase. -/
theorem Numbered.increasing (hc : Numbered c output)
    (hdowns : (downIdentifiers output).length < 2 ^ 63) :
    (downIdentifiers output).Pairwise fun a b => a.toInt < b.toInt := by
  rw [hc.identifiers, pairwise_map]
  refine pairwise_lt_range.imp_of_mem fun {i j} hi hj hij => ?_
  rw [mem_range] at hi hj
  rw [toInt_ofNat_of_lt (by omega), toInt_ofNat_of_lt (by omega)]
  omega

/-- No down event has the identifier `0`. -/
theorem Numbered.ne_zero (hc : Numbered c output)
    (hdowns : (downIdentifiers output).length < 2 ^ 63) {y : PointerData R}
    (hy : latestDown device output = some y) : y.pointerIdentifier ≠ 0 := by
  have hmem : y ∈ output.filter fun x => isDownEvent x && x.device = device := mem_of_getLast? hy
  rw [mem_filter, Bool.and_eq_true] at hmem
  have hid : y.pointerIdentifier ∈ downIdentifiers output :=
    mem_map_of_mem (mem_filter.mpr ⟨hmem.1, hmem.2.1⟩)
  rw [hc.identifiers] at hid
  obtain ⟨k, hk, hk'⟩ := mem_map.mp hid
  rw [mem_range] at hk
  intro hzero
  have hint := toInt_ofNat_of_lt (show k + 1 < 2 ^ 63 by omega)
  rw [hk', hzero] at hint
  have : (0 : BitVec 64).toInt = 0 := rfl
  omega

/-! ## Contacts -/

/-- Unless a scroll event moves a device that is down, what is emitted carries its identifier. -/
theorem Numbered.carriesIdentifier [Sub R] (hc : Numbered c output) (h : Emits True locs c x c') :
    CarriesIdentifier output x := by
  intro hsignal hchange
  cases h with
  | move signal change known isDown delta identifier =>
    rw [identifier trivial]
    exact hc.latest _ _ known isDown
  | release signal change known isDown location identifier =>
    rw [identifier]
    exact hc.latest _ _ known isDown
  | scroll signal => simp [signal] at hsignal
  | add signal change | hover signal change | down signal change | remove signal change =>
    simp [change] at hchange

/-- All events carry the identifier of the press. -/
lemma EmitsAll.throughout_carriesIdentifier [Sub R] (h : EmitsAll True locs init output c) :
    Throughout CarriesIdentifier output := by
  induction h with
  | nil => exact throughout_nil
  | snoc hxs hx ih => exact throughout_snoc.mpr ⟨ih, hxs.numbered.carriesIdentifier hx⟩

/-- What a scroll event that moves a device that is down is converted to. -/
theorem convertPointerData_of_scroll [Sub R] [BEq R] {xs : List (PointerData R)}
    (hsignal : x.signalKind = .scroll) (haway : isAway c x = true)
    (h : convertPointerData c x = some (c', xs)) :
    ∃ y, xs = [y, x] ∧ y.signalKind = .none ∧ y.change = .move ∧ y.device = x.device ∧
      y.pointerIdentifier = x.pointerIdentifier ∧
      ∃ state, c.states x.device = some state ∧ state.isDown = true := by
  simp only [convertPointerData, hsignal, Option.bind_eq_bind, Option.bind_eq_some_iff] at h
  obtain ⟨state, hknown, h⟩ := h
  simp only [isAway, hknown, Bool.and_eq_true] at haway
  simp only [synthesizeAtLocation, haway.1, haway.2, if_true, Option.pure_def, Option.some.injEq,
    Prod.mk.injEq] at h
  obtain ⟨-, rfl⟩ := h
  exact ⟨_, rfl, rfl, rfl, rfl, rfl, state, hknown, haway.1⟩

/-- All events of all contacts carry the identifier of their down event, and down events are
numbered in the order of the output, exactly if no scroll event moves a device that is down. -/
theorem carriesIdentifiers_iff [Sub R] [BEq R] (packets : List (List (PointerData R)))
    (h : convertAll packets = some (c, output))
    (hraw : ∀ packet ∈ packets, ∀ x ∈ packet, x.pointerIdentifier = 0)
    (hdowns : (downIdentifiers output).length < 2 ^ 63) :
    (Throughout CarriesIdentifier output ∧
      (downIdentifiers output).Pairwise fun a b => a.toInt < b.toInt) ↔
    Run step (fun s x => KeepsIdentifier s.1 x) (init, []) packets.flatten (c, output) := by
  rw [convertAll_eq_some] at h
  constructor
  · rintro ⟨hcarries, -⟩
    refine (h.guarded_or).resolve_right ?_
    rintro ⟨before, x, after, ⟨c₁, output₁⟩, ⟨c₂, output₂⟩, heq, hbefore, hkeeps, hstep, hafter⟩
    rw [KeepsIdentifier, Classical.not_imp, Bool.not_eq_false] at hkeeps
    obtain ⟨xs, hconvert, rfl⟩ := step_eq_some.mp hstep
    obtain ⟨y, rfl, hsignal, hchange, hdevice, hid, state, hstate, hdown⟩ :=
      convertPointerData_of_scroll hkeeps.1 hkeeps.2 hconvert
    have hemits : EmitsAll False False init output₁ c₁ := emitsAll_of_run nofun nofun hbefore
    -- The move carries the identifier of the scroll event, which is `0`.
    obtain ⟨rest, hrest⟩ := output_prefix_of_run hafter
    have houtput : output = output₁ ++ y :: (x :: rest) := by
      rw [← show output₁ ++ [y, x] ++ rest = output from hrest, append_assoc]
      rfl
    obtain ⟨z, hz, hyz⟩ := hcarries output₁ y (x :: rest) houtput hsignal (.inl hchange)
    have hx : x.pointerIdentifier = 0 := by
      obtain ⟨packet, hpacket, hmem⟩ := mem_flatten.mp (show x ∈ packets.flatten by simp [heq])
      exact hraw packet hpacket x hmem
    have hle : (downIdentifiers output₁).length < 2 ^ 63 := by
      have hsub : (downIdentifiers output₁).length ≤ (downIdentifiers output).length := by
        rw [houtput, downIdentifiers, downIdentifiers, filter_append, map_append,
          List.length_append]
        exact Nat.le_add_right _ _
      omega
    exact hemits.numbered.ne_zero hle hz (by rw [← hyz, hid, hx])
  · intro hrun
    have hemits : EmitsAll True False init output c :=
      emitsAll_of_run (fun _ _ _ hkeeps => hkeeps) nofun hrun
    exact ⟨hemits.throughout_carriesIdentifier, hemits.numbered.increasing hdowns⟩

instance [BEq R] (c : PointerDataPacketConverter R) (x : PointerData R) :
    Decidable (KeepsIdentifier c x) :=
  inferInstanceAs (Decidable (x.signalKind = .scroll → isAway c x = false))

/-- A device that is up somewhere else than it is down. -/
def dragPackets : List (List (PointerData ℤ)) :=
  [[rawEvent .none .down 1 0 0], [rawEvent .none .up 1 3 4, rawEvent .scroll .hover 1 5 5]]

theorem carriesIdentifiers_iff_dragPackets : ∃ c output,
    convertAll dragPackets = some (c, output) ∧
    output.map PointerData.pointerIdentifier = [0, 1, 1, 1, 0, 0] ∧
    Throughout CarriesIdentifier output := by
  refine ⟨_, _, rfl, rfl, ((carriesIdentifiers_iff dragPackets rfl ?_ ?_).mpr ?_).1⟩
  · decide
  · decide
  · exact run_iff_exec.mpr rfl

/-- The move that is synthesized for the scroll event carries no identifier, while that of the down
event is `1`. -/
theorem scrollPackets_not_carriesIdentifier : ∃ c output,
    convertAll scrollPackets = some (c, output) ∧
    (∀ packet ∈ scrollPackets, ∀ x ∈ packet, x.pointerIdentifier = 0) ∧
    ¬Throughout CarriesIdentifier output := by
  refine ⟨_, _, rfl, by decide, fun h => ?_⟩
  obtain ⟨y, hy, hid⟩ := h [_, _, _] _ [_, _, _] rfl rfl (.inl rfl)
  cases hy
  exact absurd hid (by decide)

end Flutter.PointerDataPacketConverter
