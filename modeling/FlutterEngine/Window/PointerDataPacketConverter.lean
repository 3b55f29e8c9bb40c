import FlutterEngine.Lib.Run
import Mathlib.Data.Int.Notation

/-!
# The pointer data packet converter

`PointerDataPacketConverter` turns the pointer events of the platform into a stream that the
framework understands. It keeps a state for each device and synthesizes the events that are missing.

Coordinates are of an arbitrary type with a subtraction and a comparison: doubles, among which a NaN
is not equal to itself, or exact numbers. The asserted preconditions (`FML_DCHECK`) make the
conversion a partial function. The fields of `PointerData` that the converter copies and does not
look at are left out.
-/

namespace Flutter

/-- `PointerData::Change` -/
inductive Change
  | cancel
  | add
  | remove
  | hover
  | down
  | move
  | up
deriving DecidableEq, Repr

/-- `PointerData::SignalKind` -/
inductive SignalKind
  | none
  | scroll
  /-- Any other value of the underlying type. -/
  | unknown
deriving DecidableEq, Repr

/-- `PointerData` -/
structure PointerData (R : Type) where
  change : Change
  signalKind : SignalKind
  device : ℤ
  pointerIdentifier : BitVec 64
  physicalX : R
  physicalY : R
  physicalDeltaX : R
  physicalDeltaY : R
  synthesized : ℤ
deriving DecidableEq, Repr

/-- `PointerState` -/
structure PointerState (R : Type) where
  pointerIdentifier : BitVec 64
  isDown : Bool
  physicalX : R
  physicalY : R
deriving DecidableEq, Repr

/-- `PointerDataPacketConverter` -/
structure PointerDataPacketConverter (R : Type) where
  states : ℤ → Option (PointerState R)
  pointer : BitVec 64

namespace PointerDataPacketConverter

variable {R : Type}

/-- `PointerDataPacketConverter::PointerDataPacketConverter` -/
def init : PointerDataPacketConverter R := ⟨fun _ => none, 0⟩

section States

variable (c : PointerDataPacketConverter R) (x : PointerData R)

/-- `states_[device] = state` -/
def setState (device : ℤ) (state : PointerState R) : PointerDataPacketConverter R :=
  { c with states := Function.update c.states device (some state) }

/-- `states_.erase(device)` -/
def eraseState (device : ℤ) : PointerDataPacketConverter R :=
  { c with states := Function.update c.states device none }

/-- `FML_DCHECK` -/
def dcheck (condition : Bool) : Option Unit := if condition then some () else none

/-- `EnsurePointerState` -/
def ensurePointerState : PointerDataPacketConverter R × PointerState R :=
  let state : PointerState R := ⟨0, false, x.physicalX, x.physicalY⟩
  (c.setState x.device state, state)

/-- `UpdatePointerIdentifier` -/
def updatePointerIdentifier (state : PointerState R) (startNewPointer : Bool) :
    PointerDataPacketConverter R × PointerData R × PointerState R :=
  if startNewPointer then
    let pointer := c.pointer + 1
    let state := { state with pointerIdentifier := pointer }
    ({ c with pointer := pointer }.setState x.device state,
      { x with pointerIdentifier := pointer }, state)
  else
    (c, { x with pointerIdentifier := state.pointerIdentifier }, state)

/-- The state of the device of a hover or down event. An add event is synthesized if the pointer is
not previously added. -/
def synthesizeAdd : PointerDataPacketConverter R × PointerState R × List (PointerData R) :=
  match c.states x.device with
  | none =>
    let synthesizedAddEvent := { x with change := .add, synthesized := 1 }
    let (c, state) := ensurePointerState c synthesizedAddEvent
    (c, state, [synthesizedAddEvent])
  | some state => (c, state, [])

/-- Synthesizes a cancel event for a remove event if the pointer is down. -/
def synthesizeCancel (state : PointerState R) :
    PointerDataPacketConverter R × PointerState R × List (PointerData R) :=
  if state.isDown then
    let synthesizedCancelEvent := { x with change := .cancel, synthesized := 1 }
    let (c, synthesizedCancelEvent, state) :=
      updatePointerIdentifier c synthesizedCancelEvent state false
    let state := { state with isDown := false }
    (c.setState x.device state, state, [synthesizedCancelEvent])
  else
    (c, state, [])

end States

variable [Sub R] [BEq R] (c : PointerDataPacketConverter R) (x : PointerData R)

/-- `UpdateDeltaAndState` -/
def updateDeltaAndState (state : PointerState R) :
    PointerDataPacketConverter R × PointerData R × PointerState R :=
  let x' := { x with
    physicalDeltaX := x.physicalX - state.physicalX
    physicalDeltaY := x.physicalY - state.physicalY }
  let state' := { state with physicalX := x.physicalX, physicalY := x.physicalY }
  (c.setState x.device state', x', state')

/-- `LocationNeedsUpdate` -/
def locationNeedsUpdate (x : PointerData R) (state : PointerState R) : Bool :=
  state.physicalX != x.physicalX || state.physicalY != x.physicalY

/-- Synthesizes an event with the given change if the location does not match. The event has no
signal, as have all events for which one is synthesized, but for scroll events. -/
def synthesizeAtLocation (change : Change) (state : PointerState R) :
    PointerDataPacketConverter R × PointerState R × List (PointerData R) :=
  if locationNeedsUpdate x state then
    let synthesizedEvent := { x with change := change, signalKind := .none, synthesized := 1 }
    let (c, synthesizedEvent, state) := updateDeltaAndState c synthesizedEvent state
    (c, state, [synthesizedEvent])
  else
    (c, state, [])

/-- The cases of an up event and of a cancel event for a known device. -/
def release (state : PointerState R) : PointerDataPacketConverter R × List (PointerData R) :=
  let (c, x, state) := updatePointerIdentifier c x state false
  let (c, state, events) := synthesizeAtLocation c x .move state
  (c.setState x.device { state with isDown := false }, events ++ [x])

/-- `ConvertPointerData`, with the events that are pushed back as a result. The default case of the
changes is for values that are not of the enumeration. -/
def convertPointerData : Option (PointerDataPacketConverter R × List (PointerData R)) :=
  match x.signalKind with
  | .none =>
    match x.change with
    | .cancel =>
      -- Android's three finger gesture will send a cancel event to a non-existing pointer.
      match c.states x.device with
      | none => some (c, [])
      | some state => do
        dcheck state.isDown
        return release c x state
    | .add => do
      dcheck (c.states x.device).isNone
      let (c, _) := ensurePointerState c x
      return (c, [x])
    | .remove => do
      let state ← c.states x.device
      let (c, state, cancel) := synthesizeCancel c x state
      let (c, _, hover) := synthesizeAtLocation c x .hover state
      return (c.eraseState x.device, cancel ++ hover ++ [x])
    | .hover => do
      let (c, state, add) := synthesizeAdd c x
      dcheck (!state.isDown)
      if locationNeedsUpdate x state then
        let (c, x, _) := updateDeltaAndState c x state
        return (c, add ++ [x])
      else
        return (c, add)
    | .down => do
      let (c, state, add) := synthesizeAdd c x
      dcheck (!state.isDown)
      let (c, state, hover) := synthesizeAtLocation c x .hover state
      let (c, x, state) := updatePointerIdentifier c x state true
      return (c.setState x.device { state with isDown := true }, add ++ hover ++ [x])
    | .move => do
      let state ← c.states x.device
      dcheck state.isDown
      if locationNeedsUpdate x state then
        let (c, x, state) := updatePointerIdentifier c x state false
        let (c, x, _) := updateDeltaAndState c x state
        return (c, [x])
      else
        return (c, [])
    | .up => do
      let state ← c.states x.device
      dcheck state.isDown
      return release c x state
  | .scroll => do
    let state ← c.states x.device
    let (c, _, events) := synthesizeAtLocation c x (if state.isDown then .move else .hover) state
    return (c, events ++ [x])
  -- Ignores unknown signal kind.
  | .unknown => some (c, [])

/-- One iteration of the loop in `Convert`: convert an event, and push back what is emitted. -/
def step (s : PointerDataPacketConverter R × List (PointerData R)) (x : PointerData R) :
    Option (PointerDataPacketConverter R × List (PointerData R)) := do
  let (c, events) ← convertPointerData s.1 x
  return (c, s.2 ++ events)

/-- `Convert`, for a packet given by its pointer data. -/
def convert (packet : List (PointerData R)) :
    Option (PointerDataPacketConverter R × List (PointerData R)) :=
  packet.foldlM step (c, [])

/-- Convert packet after packet, and concatenate the output. -/
def convertAll (packets : List (List (PointerData R))) :
    Option (PointerDataPacketConverter R × List (PointerData R)) :=
  packets.foldlM (fun (c, output) packet => do
    let (c, convertedPacket) ← convert c packet
    return (c, output ++ convertedPacket)) (init, [])

/-! ## Preconditions -/

/-- The asserted preconditions of an event: only unknown devices are added; what is removed, moved,
up or scrolled is known; hover and down events are for devices that are not down; and a known device
that is moved, up or canceled is down. -/
def MeetsPreconditions : Prop :=
  match x.signalKind with
  | .none =>
    match x.change with
    | .add => c.states x.device = none
    | .remove => ∃ state, c.states x.device = some state
    | .hover | .down => ∀ state, c.states x.device = some state → state.isDown = false
    | .move | .up => ∃ state, c.states x.device = some state ∧ state.isDown = true
    | .cancel => ∀ state, c.states x.device = some state → state.isDown = true
  | .scroll => ∃ state, c.states x.device = some state
  | .unknown => True

lemma isSome_dcheck_bind {α : Type} {condition : Bool} {f : Unit → Option α} :
    ((dcheck condition).bind f).isSome ↔ condition = true ∧ (f ()).isSome := by
  cases condition <;> simp [dcheck]

/-- These are the preconditions that the conversion asserts. -/
theorem convertPointerData_isSome {c : PointerDataPacketConverter R} {x : PointerData R} :
    (convertPointerData c x).isSome ↔ MeetsPreconditions c x := by
  unfold convertPointerData MeetsPreconditions
  cases x.signalKind with
  | none =>
    cases x.change with
    | add | cancel | remove | up => cases h : c.states x.device <;> simp [isSome_dcheck_bind]
    | down =>
      cases h : c.states x.device <;>
        simp [isSome_dcheck_bind, synthesizeAdd, ensurePointerState, h]
    | hover | move =>
      -- Whether the location matches makes no difference to whether there is an output.
      cases h : c.states x.device <;>
        simp [isSome_dcheck_bind, synthesizeAdd, ensurePointerState, h, apply_ite Option.isSome]
  | scroll => cases h : c.states x.device <;> simp
  | unknown => simp

end PointerDataPacketConverter

end Flutter
