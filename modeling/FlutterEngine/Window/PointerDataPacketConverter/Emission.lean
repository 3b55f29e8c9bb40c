import FlutterEngine.Window.PointerDataPacketConverter

/-!
# What the converter emits

The output of the converter, event by event. `Emits` says for each kind of event in which state of
its device it is emitted, and how the state changes with it. `convertPointerData_emitsAll` says that
every conversion is a sequence of such steps, and `emitsAll_of_convertAll` that every run is.

Two things do not always hold, and are parameters:

* `ids`: a move carries the identifier of the contact. A move that is synthesized for a scroll event
  carries the identifier of the scroll event instead.
* `locs`: events that are not moves have the location of the state. A cancel event that is
  synthesized for a remove event is emitted before the location is corrected.
-/

namespace Flutter.PointerDataPacketConverter

open Lib List Option Bool Function

variable {R : Type} {c c' c'' : PointerDataPacketConverter R} {x : PointerData R}
  {xs ys : List (PointerData R)} {device : ℤ} {state state' : PointerState R}

variable {d : ℤ} {s : PointerDataPacketConverter R × List (PointerData R)}

/-! ## Updating states -/

@[simp] lemma states_setState : (c.setState device state).states device = some state :=
  update_self ..

lemma states_setState_of_ne (h : d ≠ device) : (c.setState device state).states d = c.states d :=
  update_of_ne h ..

@[simp] lemma setState_setState :
    (c.setState device state).setState device state' = c.setState device state' := by
  simp [setState]

@[simp] lemma states_eraseState : (c.eraseState device).states device = none := update_self ..

lemma states_eraseState_of_ne (h : d ≠ device) : (c.eraseState device).states d = c.states d :=
  update_of_ne h ..

/-! ## Steps -/

/-- An event has the location of a state. -/
def IsAt (state : PointerState R) (x : PointerData R) : Prop :=
  state.physicalX = x.physicalX ∧ state.physicalY = x.physicalY

/-- The state at the location of an event. -/
def PointerState.moveTo (state : PointerState R) (x : PointerData R) : PointerState R :=
  { state with physicalX := x.physicalX, physicalY := x.physicalY }

/-- The delta of an event is relative to the location of a state. -/
def IsRelativeTo [Sub R] (state : PointerState R) (x : PointerData R) : Prop :=
  x.physicalDeltaX = x.physicalX - state.physicalX ∧
    x.physicalDeltaY = x.physicalY - state.physicalY

/-- An event is emitted. -/
inductive Emits [Sub R] (ids locs : Prop) :
    PointerDataPacketConverter R → PointerData R → PointerDataPacketConverter R → Prop
  | add {c : PointerDataPacketConverter R} {x : PointerData R} (signal : x.signalKind = .none)
      (change : x.change = .add) (unknown : c.states x.device = none) :
      Emits ids locs c x (c.setState x.device ⟨0, false, x.physicalX, x.physicalY⟩)
  | hover {c : PointerDataPacketConverter R} {x : PointerData R} {state : PointerState R}
      (signal : x.signalKind = .none) (change : x.change = .hover)
      (known : c.states x.device = some state) (isUp : state.isDown = false)
      (delta : IsRelativeTo state x) :
      Emits ids locs c x (c.setState x.device (PointerState.moveTo state x))
  | move {c : PointerDataPacketConverter R} {x : PointerData R} {state : PointerState R}
      (signal : x.signalKind = .none) (change : x.change = .move)
      (known : c.states x.device = some state) (isDown : state.isDown = true)
      (delta : IsRelativeTo state x)
      (identifier : ids → x.pointerIdentifier = state.pointerIdentifier) :
      Emits ids locs c x (c.setState x.device (PointerState.moveTo state x))
  | down {c : PointerDataPacketConverter R} {x : PointerData R} {state : PointerState R}
      (signal : x.signalKind = .none) (change : x.change = .down)
      (known : c.states x.device = some state) (isUp : state.isDown = false)
      (location : locs → IsAt state x) (identifier : x.pointerIdentifier = c.pointer + 1) :
      Emits ids locs c x ({ c with pointer := c.pointer + 1 }.setState x.device
        { state with pointerIdentifier := c.pointer + 1, isDown := true })
  | release {c : PointerDataPacketConverter R} {x : PointerData R} {state : PointerState R}
      (signal : x.signalKind = .none) (change : x.change = .up ∨ x.change = .cancel)
      (known : c.states x.device = some state) (isDown : state.isDown = true)
      (location : locs → IsAt state x)
      (identifier : x.pointerIdentifier = state.pointerIdentifier) :
      Emits ids locs c x (c.setState x.device { state with isDown := false })
  | remove {c : PointerDataPacketConverter R} {x : PointerData R} {state : PointerState R}
      (signal : x.signalKind = .none) (change : x.change = .remove)
      (known : c.states x.device = some state) (isUp : state.isDown = false)
      (location : locs → IsAt state x) :
      Emits ids locs c x (c.eraseState x.device)
  | scroll {c : PointerDataPacketConverter R} {x : PointerData R} {state : PointerState R}
      (signal : x.signalKind = .scroll) (known : c.states x.device = some state)
      (location : locs → IsAt state x) :
      Emits ids locs c x c

/-- A sequence of events is emitted. -/
inductive EmitsAll [Sub R] (ids locs : Prop) :
    PointerDataPacketConverter R → List (PointerData R) → PointerDataPacketConverter R → Prop
  | nil {c : PointerDataPacketConverter R} : EmitsAll ids locs c [] c
  | snoc {c c' c'' : PointerDataPacketConverter R} {xs : List (PointerData R)} {x : PointerData R} :
      EmitsAll ids locs c xs c' → Emits ids locs c' x c'' → EmitsAll ids locs c (xs ++ [x]) c''

section Steps

variable [Sub R] {ids locs : Prop}

/-- One event. -/
lemma Emits.emitsAll (h : Emits ids locs c x c') : EmitsAll ids locs c [x] c' :=
  EmitsAll.snoc .nil h

/-- Events one after the other. -/
lemma EmitsAll.append (h : EmitsAll ids locs c xs c') (h' : EmitsAll ids locs c' ys c'') :
    EmitsAll ids locs c (xs ++ ys) c'' := by
  induction h' with
  | nil => rwa [List.append_nil]
  | snoc _ hx ih =>
    rw [← append_assoc]
    exact .snoc ih hx

/-- Only the state of the device changes. -/
theorem Emits.states_of_ne (h : Emits ids locs c x c') (hd : d ≠ x.device) :
    c'.states d = c.states d := by
  cases h with
  | remove => exact states_eraseState_of_ne hd
  | scroll => rfl
  | down => exact states_setState_of_ne hd
  | _ => exact states_setState_of_ne hd

end Steps

/-! ## The cases of the conversion -/

/-- If no update is needed, the pointer is where it was. -/
lemma isAt_of_locationNeedsUpdate [BEq R] [LawfulBEq R]
    (h : locationNeedsUpdate x state = false) : IsAt state x := by
  simpa [locationNeedsUpdate, IsAt] using h

section Cases

variable [Sub R] {ids locs : Prop}

/-- A move or hover event is emitted. -/
theorem updateDeltaAndState_emits (hsignal : x.signalKind = .none)
    (hknown : c.states x.device = some state)
    (hchange : x.change = if state.isDown then .move else .hover)
    (hids : ids → state.isDown = true → x.pointerIdentifier = state.pointerIdentifier) :
    Emits ids locs c (updateDeltaAndState c x state).2.1 (updateDeltaAndState c x state).1 := by
  rcases eq_false_or_eq_true state.isDown with hdown | hdown
  · rw [hdown] at hchange
    exact .move (x := (updateDeltaAndState c x state).2.1) hsignal hchange hknown hdown ⟨rfl, rfl⟩
      fun h => hids h hdown
  · rw [hdown] at hchange
    exact .hover (x := (updateDeltaAndState c x state).2.1) hsignal hchange hknown hdown ⟨rfl, rfl⟩

/-- An event is synthesized, or the location matches already. -/
theorem synthesizeAtLocation_spec [BEq R] (ids : Prop) (change : Change)
    (hlocs : locs → LawfulBEq R) (hknown : c.states x.device = some state)
    (hids : ids → state.isDown = true → locationNeedsUpdate x state = true →
      x.pointerIdentifier = state.pointerIdentifier)
    (hchange : change = if state.isDown then .move else .hover) :
    ∃ c' state' events, synthesizeAtLocation c x change state = (c', state', events) ∧
      EmitsAll ids locs c events c' ∧ c'.states x.device = some state' ∧
      state'.isDown = state.isDown ∧ state'.pointerIdentifier = state.pointerIdentifier ∧
      (locs → IsAt state' x) := by
  unfold synthesizeAtLocation
  split
  · next hneeded =>
    refine ⟨_, _, _, rfl, ?_, states_setState, rfl, rfl, fun _ => ⟨rfl, rfl⟩⟩
    exact (updateDeltaAndState_emits
      (x := { x with change := change, signalKind := .none, synthesized := 1 })
      rfl hknown hchange fun h hdown => hids h hdown hneeded).emitsAll
  · next h =>
    refine ⟨c, state, [], rfl, .nil, hknown, rfl, rfl, fun hl => ?_⟩
    have := hlocs hl
    exact isAt_of_locationNeedsUpdate (eq_false_iff.mpr h)

/-- An add event is synthesized, or the device is known. -/
theorem synthesizeAdd_spec (ids locs : Prop) (c : PointerDataPacketConverter R)
    (hsignal : x.signalKind = .none) :
    ∃ c' state events, synthesizeAdd c x = (c', state, events) ∧ EmitsAll ids locs c events c' ∧
      c'.states x.device = some state := by
  unfold synthesizeAdd
  split
  · next hunknown =>
    refine ⟨_, _, _, rfl, Emits.emitsAll ?_, states_setState⟩
    exact .add (x := { x with change := .add, synthesized := 1 }) hsignal rfl hunknown
  · next state hknown => exact ⟨c, state, [], rfl, .nil, hknown⟩

/-- A cancel event is synthesized, or the device is up already. -/
theorem synthesizeCancel_spec (ids : Prop) (hsignal : x.signalKind = .none)
    (hknown : c.states x.device = some state)
    (hlocs : locs → state.isDown = true → IsAt state x) :
    ∃ c' state' events, synthesizeCancel c x state = (c', state', events) ∧
      EmitsAll ids locs c events c' ∧ c'.states x.device = some state' ∧
      state'.isDown = false := by
  unfold synthesizeCancel
  split
  · next hdown =>
    refine ⟨_, _, _, rfl, Emits.emitsAll ?_, states_setState, rfl⟩
    exact .release (x := { x with change := .cancel, synthesized := 1,
                                  pointerIdentifier := state.pointerIdentifier })
      hsignal (.inr rfl) hknown hdown (fun hl => hlocs hl hdown) rfl
  · next hup => exact ⟨c, state, [], rfl, .nil, hknown, eq_false_iff.mpr hup⟩

/-- A release in another place is preceded by a move. -/
lemma release_emitsAll [BEq R] (hlocs : locs → LawfulBEq R) (hsignal : x.signalKind = .none)
    (hchange : x.change = .up ∨ x.change = .cancel) (hknown : c.states x.device = some state)
    (hdown : state.isDown = true) :
    EmitsAll ids locs c (release c x state).2 (release c x state).1 := by
  obtain ⟨c', state', events, heq, hevents, hknown', hdown', hid, hloc⟩ :=
    synthesizeAtLocation_spec (x := { x with pointerIdentifier := state.pointerIdentifier })
      ids .move hlocs hknown (fun _ _ _ => rfl) (if_pos hdown).symm
  simp only [release, updatePointerIdentifier, false_eq_true, if_false, heq]
  refine .snoc hevents ?_
  exact .release (x := { x with pointerIdentifier := state.pointerIdentifier }) hsignal hchange
    hknown' (hdown'.trans hdown) hloc hid.symm

/-- An assertion passes if its condition holds. -/
lemma dcheck_eq_some {condition : Bool} : dcheck condition = some () ↔ condition = true := by
  unfold dcheck
  split <;> simp_all

/-- The device is down, and the event is not at its location. -/
def isAway [BEq R] (c : PointerDataPacketConverter R) (x : PointerData R) : Bool :=
  match c.states x.device with
  | some state => state.isDown && locationNeedsUpdate x state
  | none => false

/-- A scroll event does not move a device that is down. -/
def KeepsIdentifier [BEq R] (c : PointerDataPacketConverter R) (x : PointerData R) : Prop :=
  x.signalKind = .scroll → isAway c x = false

/-- A remove event does not move a device that is down. -/
def KeepsLocation [BEq R] (c : PointerDataPacketConverter R) (x : PointerData R) : Prop :=
  x.signalKind = .none → x.change = .remove → isAway c x = false

variable [BEq R]

section Changes

variable (hsignal : x.signalKind = .none) (h : convertPointerData c x = some (c', xs))

include hsignal h

/-- What is sent for a cancellation. -/
lemma cancel_emitsAll (hlocs : locs → LawfulBEq R) (hchange : x.change = .cancel) :
    EmitsAll ids locs c xs c' := by
  simp only [convertPointerData, hsignal, hchange] at h
  split at h
  · cases h
    exact .nil
  · next state hknown =>
    simp only [bind_eq_bind, bind_eq_some_iff] at h
    obtain ⟨_, hdown, h⟩ := h
    cases h
    exact release_emitsAll hlocs hsignal (.inr hchange) hknown (dcheck_eq_some.mp hdown)

/-- What is sent for a new pointer. -/
lemma add_emitsAll (hchange : x.change = .add) : EmitsAll ids locs c xs c' := by
  simp only [convertPointerData, hsignal, hchange, bind_eq_bind, bind_eq_some_iff] at h
  obtain ⟨_, hunknown, h⟩ := h
  cases h
  rw [dcheck_eq_some, isNone_iff_eq_none] at hunknown
  exact (Emits.add hsignal hchange hunknown).emitsAll

/-- What is sent for a pointer that is removed. -/
lemma remove_emitsAll (hlocs : locs → LawfulBEq R ∧ KeepsLocation c x)
    (hchange : x.change = .remove) : EmitsAll ids locs c xs c' := by
  simp only [convertPointerData, hsignal, hchange, bind_eq_bind, bind_eq_some_iff] at h
  obtain ⟨state, hknown, h⟩ := h
  have hcontact : locs → state.isDown = true → IsAt state x := by
    intro hl hdown
    have haway := (hlocs hl).2 hsignal hchange
    simp only [isAway, hknown, hdown, Bool.true_and] at haway
    have := (hlocs hl).1
    exact isAt_of_locationNeedsUpdate haway
  obtain ⟨c₁, state₁, cancel, heq, hcancel, hknown₁, hup⟩ :=
    synthesizeCancel_spec ids hsignal hknown hcontact
  obtain ⟨c₂, state₂, hover, heq', hhover, hknown₂, hup₂, -, hloc⟩ :=
    synthesizeAtLocation_spec ids .hover (fun hl => (hlocs hl).1) hknown₁
      (by rw [hup]; nofun) (by rw [hup]; rfl)
  simp only [heq, heq', Option.pure_def, some.injEq, Prod.mk.injEq] at h
  obtain ⟨rfl, rfl⟩ := h
  exact .snoc (hcancel.append hhover) (.remove hsignal hchange hknown₂ (hup₂.trans hup) hloc)

/-- What is sent for a hover. -/
lemma hover_emitsAll (hchange : x.change = .hover) : EmitsAll ids locs c xs c' := by
  obtain ⟨c₁, state, add, heq, hadd, hknown⟩ := synthesizeAdd_spec ids locs c hsignal
  simp only [convertPointerData, hsignal, hchange, heq, bind_eq_bind, bind_eq_some_iff] at h
  obtain ⟨_, hup, h⟩ := h
  rw [dcheck_eq_some, not_eq_true'] at hup
  split at h
  · cases h
    exact .snoc hadd (updateDeltaAndState_emits hsignal hknown (by rw [hchange, hup]; rfl)
      (by rw [hup]; nofun))
  · cases h
    exact hadd

/-- What is sent for a press. -/
lemma down_emitsAll (hlocs : locs → LawfulBEq R) (hchange : x.change = .down) :
    EmitsAll ids locs c xs c' := by
  obtain ⟨c₁, state₁, add, heq, hadd, hknown₁⟩ := synthesizeAdd_spec ids locs c hsignal
  simp only [convertPointerData, hsignal, hchange, heq, bind_eq_bind, bind_eq_some_iff] at h
  obtain ⟨_, hup, h⟩ := h
  rw [dcheck_eq_some, not_eq_true'] at hup
  obtain ⟨c₂, state₂, hover, heq', hhover, hknown₂, hup₂, -, hloc⟩ :=
    synthesizeAtLocation_spec ids .hover hlocs hknown₁ (by rw [hup]; nofun) (by rw [hup]; rfl)
  simp only [heq', updatePointerIdentifier, if_true, setState_setState, Option.pure_def,
    some.injEq, Prod.mk.injEq] at h
  obtain ⟨rfl, rfl⟩ := h
  refine .snoc (hadd.append hhover) ?_
  exact .down (x := { x with pointerIdentifier := c₂.pointer + 1 }) hsignal hchange hknown₂
    (hup₂.trans hup) hloc rfl

/-- What is sent for a move. -/
lemma move_emitsAll (hchange : x.change = .move) : EmitsAll ids locs c xs c' := by
  simp only [convertPointerData, hsignal, hchange, bind_eq_bind, bind_eq_some_iff] at h
  obtain ⟨state, hknown, _, hdown, h⟩ := h
  rw [dcheck_eq_some] at hdown
  split at h
  · cases h
    exact (updateDeltaAndState_emits
      (x := { x with pointerIdentifier := state.pointerIdentifier }) hsignal hknown
      (hchange.trans (if_pos hdown).symm) fun _ _ => rfl).emitsAll
  · cases h
    exact .nil

/-- What is sent for a release. -/
lemma up_emitsAll (hlocs : locs → LawfulBEq R) (hchange : x.change = .up) :
    EmitsAll ids locs c xs c' := by
  simp only [convertPointerData, hsignal, hchange, bind_eq_bind, bind_eq_some_iff] at h
  obtain ⟨state, hknown, _, hdown, h⟩ := h
  cases h
  exact release_emitsAll hlocs hsignal (.inl hchange) hknown (dcheck_eq_some.mp hdown)

end Changes

/-- What is sent for a scroll. -/
lemma scroll_emitsAll (hids : ids → KeepsIdentifier c x) (hlocs : locs → LawfulBEq R)
    (hsignal : x.signalKind = .scroll) (h : convertPointerData c x = some (c', xs)) :
    EmitsAll ids locs c xs c' := by
  simp only [convertPointerData, hsignal, bind_eq_bind, bind_eq_some_iff] at h
  obtain ⟨state, hknown, h⟩ := h
  have hcontact : ids → state.isDown = true → locationNeedsUpdate x state = true →
      x.pointerIdentifier = state.pointerIdentifier := by
    intro hi hdown hneeded
    have haway := hids hi hsignal
    simp [isAway, hknown, hdown, hneeded] at haway
  obtain ⟨c₁, state₁, events, heq, hevents, hknown₁, -, -, hloc⟩ :=
    synthesizeAtLocation_spec ids _ hlocs hknown hcontact rfl
  simp only [heq, Option.pure_def, some.injEq, Prod.mk.injEq] at h
  obtain ⟨rfl, rfl⟩ := h
  exact .snoc hevents (.scroll hsignal hknown₁ hloc)

/-- Every conversion emits events one by one. -/
theorem convertPointerData_emitsAll (hids : ids → KeepsIdentifier c x)
    (hlocs : locs → LawfulBEq R ∧ KeepsLocation c x)
    (h : convertPointerData c x = some (c', xs)) : EmitsAll ids locs c xs c' := by
  cases hsignal : x.signalKind with
  | none =>
    cases hchange : x.change with
    | cancel => exact cancel_emitsAll hsignal h (fun hl => (hlocs hl).1) hchange
    | add => exact add_emitsAll hsignal h hchange
    | remove => exact remove_emitsAll hsignal h hlocs hchange
    | hover => exact hover_emitsAll hsignal h hchange
    | down => exact down_emitsAll hsignal h (fun hl => (hlocs hl).1) hchange
    | move => exact move_emitsAll hsignal h hchange
    | up => exact up_emitsAll hsignal h (fun hl => (hlocs hl).1) hchange
  | scroll => exact scroll_emitsAll hids (fun hl => (hlocs hl).1) hsignal h
  | unknown =>
    simp only [convertPointerData, hsignal] at h
    cases h
    exact .nil

end Cases

/-! ## Runs -/

section Runs

variable [Sub R] [BEq R] {ids locs : Prop}

variable {t : PointerDataPacketConverter R × List (PointerData R)}
  {guard : PointerDataPacketConverter R × List (PointerData R) → PointerData R → Prop}
  {raw : List (PointerData R)}

/-- A step converts one event. -/
lemma step_eq_some :
    step s x = some t ↔ ∃ xs, convertPointerData s.1 x = some (t.1, xs) ∧ t.2 = s.2 ++ xs := by
  obtain ⟨c, output⟩ := t
  simp only [step, bind_eq_bind, bind_eq_some_iff, Option.pure_def, some.injEq,
    Prod.mk.injEq, Prod.exists]
  constructor
  · rintro ⟨c, xs, h, rfl, rfl⟩
    exact ⟨xs, h, rfl⟩
  · rintro ⟨xs, h, rfl⟩
    exact ⟨c, xs, h, rfl, rfl⟩

/-- The output so far does not matter. -/
theorem foldlM_step (packet : List (PointerData R)) (c : PointerDataPacketConverter R)
    (output : List (PointerData R)) :
    packet.foldlM step (c, output) =
      (convert c packet).map fun (c', events) => (c', output ++ events) := by
  rw [convert]
  induction packet using List.reverseRecOn with
  | nil => simp
  | append_singleton packet x ih =>
    rw [foldlM_append, foldlM_append, ih]
    cases packet.foldlM step (c, []) with
    | none => rfl
    | some s =>
      obtain ⟨c', events⟩ := s
      cases h : convertPointerData c' x <;> simp [step, h]

/-- Packets do not matter: the events are converted one after another. -/
theorem convertAll_eq (packets : List (List (PointerData R))) :
    convertAll packets = packets.flatten.foldlM step (init, []) := by
  rw [convertAll]
  induction packets using List.reverseRecOn with
  | nil => rfl
  | append_singleton packets packet ih =>
    rw [foldlM_append, ih, flatten_append, foldlM_append]
    cases packets.flatten.foldlM step (init, []) with
    | none => rfl
    | some s =>
      obtain ⟨c, output⟩ := s
      simp only [foldlM_cons, foldlM_nil, flatten_cons, flatten_nil,
        List.append_nil, bind_eq_bind, bind_some, foldlM_step]
      cases convert c packet <;> rfl

/-- Converting packets is a run over their events. -/
lemma convertAll_eq_some {packets : List (List (PointerData R))} :
    convertAll packets = some s ↔ Run step unguarded (init, []) packets.flatten s := by
  have hstep : guardedStep (step (R := R)) unguarded = step := by
    funext s x
    simp [guardedStep, unguarded]
  rw [run_iff_exec, exec, hstep, convertAll_eq]

/-- Every run emits events one by one. -/
theorem emitsAll_of_run (hids : ids → ∀ s x, guard s x → KeepsIdentifier s.1 x)
    (hlocs : locs → LawfulBEq R ∧ ∀ s x, guard s x → KeepsLocation s.1 x)
    (h : Run step guard (init, []) raw s) : EmitsAll ids locs init s.2 s.1 := by
  refine Run.invariant (P := fun s => EmitsAll ids locs init s.2 s.1) .nil ?_ h
  intro s x t hs hguard hstep
  obtain ⟨xs, hconvert, houtput⟩ := step_eq_some.mp hstep
  rw [houtput]
  refine hs.append (convertPointerData_emitsAll (fun hi => hids hi s x hguard) (fun hl => ?_)
    hconvert)
  exact ⟨(hlocs hl).1, (hlocs hl).2 s x hguard⟩

/-- The output only grows. -/
theorem output_prefix_of_run (h : Run step guard s raw t) : s.2 <+: t.2 := by
  refine Run.invariant (P := fun t => s.2 <+: t.2) (prefix_refl _) ?_ h
  intro t x u ht _ hstep
  obtain ⟨xs, -, hu⟩ := step_eq_some.mp hstep
  exact ht.trans ⟨xs, hu.symm⟩

end Runs

end Flutter.PointerDataPacketConverter
