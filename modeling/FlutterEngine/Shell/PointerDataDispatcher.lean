import FlutterEngine.Shell.VsyncWaiter

/-!
# The smooth pointer data dispatcher

`shell/common/pointer_data_dispatcher.cc`: packets of pointer data may arrive irregularly, several
between two vsyncs or none at all. The dispatcher holds back one packet at a time, so that it can
release it at a vsync at which none has arrived. It asks for that vsync by a secondary callback of
the `VsyncWaiter`.

The dispatcher and its callback run on the UI thread. A packet is a value of any type; the second
component of what is dispatched is the id for the trace, which is cut down to an `int` while the
packet is held back.
-/

namespace Flutter

/-- `SmoothPointerDataDispatcher` with the waiter and what it has dispatched. Callbacks other than
those of the dispatcher are of type `κ`. -/
structure SmoothPointerDataDispatcher (κ π : Type) where
  /-- `pending_packet_` -/
  pendingPacket : Option π
  /-- `pending_trace_flow_id_` -/
  pendingTraceFlowId : BitVec 32
  /-- `is_pointer_data_in_progress_` -/
  isPointerDataInProgress : Bool
  /-- The waiter that the delegate reaches through its animator. -/
  waiter : VsyncWaiter κ Unit
  /-- The arguments of the calls of `DoDispatchPacket`. -/
  dispatched : List (Option π × BitVec 64)
  /-- An `FML_DCHECK` has failed. -/
  dcheckFailed : Bool

namespace SmoothPointerDataDispatcher

variable {κ π : Type}

def init : SmoothPointerDataDispatcher κ π where
  pendingPacket := none
  pendingTraceFlowId := -1
  isPointerDataInProgress := false
  waiter := .init
  dispatched := []
  dcheckFailed := false

variable (s : SmoothPointerDataDispatcher κ π)

def dcheck (condition : Bool) : SmoothPointerDataDispatcher κ π :=
  { s with dcheckFailed := s.dcheckFailed || !condition }

def doDispatchPacket (packet : Option π) (traceFlowId : BitVec 64) :
    SmoothPointerDataDispatcher κ π :=
  { s with dispatched := s.dispatched ++ [(packet, traceFlowId)] }

def scheduleSecondaryVsyncCallback : Option (SmoothPointerDataDispatcher κ π) := do
  let waiter ← s.waiter.scheduleSecondary ()
  some { s with waiter }

def dispatchPendingPacket : Option (SmoothPointerDataDispatcher κ π) :=
  let s := s.dcheck s.pendingPacket.isSome
  let s := s.dcheck s.isPointerDataInProgress
  -- the id comes back as an `int` and becomes a `uint64_t` again
  let s := s.doDispatchPacket s.pendingPacket (s.pendingTraceFlowId.signExtend 64)
  let s := { s with pendingPacket := none, pendingTraceFlowId := -1 }
  s.scheduleSecondaryVsyncCallback

/-- The first part of `DispatchPacket`: a packet is held back or dispatched. -/
def holdOrDispatch (packet : π) (traceFlowId : BitVec 64) :
    Option (SmoothPointerDataDispatcher κ π) :=
  if s.isPointerDataInProgress then
    -- the packet before this one has waited long enough
    let released := if s.pendingPacket.isSome then s.dispatchPendingPacket else some s
    released.map fun s =>
      { s with pendingPacket := packet, pendingTraceFlowId := traceFlowId.setWidth 32 }
  else some ((s.dcheck s.pendingPacket.isNone).doDispatchPacket packet traceFlowId)

def dispatchPacket (packet : π) (traceFlowId : BitVec 64) :
    Option (SmoothPointerDataDispatcher κ π) := do
  let s ← s.holdOrDispatch packet traceFlowId
  scheduleSecondaryVsyncCallback { s with isPointerDataInProgress := true }

/-- The secondary callback. -/
def onSecondaryVsync : Option (SmoothPointerDataDispatcher κ π) :=
  if s.isPointerDataInProgress then
    if s.pendingPacket.isSome then s.dispatchPendingPacket
    -- nothing has arrived since the last vsync
    else some { s with isPointerDataInProgress := false }
  else some s

inductive Action (κ π : Type) where
  | dispatchPacket (packet : π) (traceFlowId : BitVec 64)
  /-- The locked region of `AsyncWaitForVsync`. -/
  | asyncWaitForVsync (callback : Option κ)
  /-- `AsyncWaitForVsync` calls `AwaitVSync` and returns. -/
  | asyncAwaitVSync
  /-- The locked region of `FireCallback`. -/
  | fireCallback
  /-- A call of `FireCallback` posts a task. -/
  | postTask (index : ℕ)
  /-- The UI task runner runs a task that was posted by `FireCallback`. -/
  | runTask (index : ℕ)

def step : Action κ π → Option (SmoothPointerDataDispatcher κ π)
  | .dispatchPacket packet traceFlowId => s.dispatchPacket packet traceFlowId
  | .asyncWaitForVsync callback => do
    let waiter ← s.waiter.step (.asyncWaitForVsync callback)
    some { s with waiter }
  | .asyncAwaitVSync => do
    let waiter ← s.waiter.step .asyncAwaitVSync
    some { s with waiter }
  | .fireCallback => do
    let waiter ← s.waiter.step .fireCallback
    some { s with waiter }
  | .postTask index => do
    let waiter ← s.waiter.step (.postTask index)
    some { s with waiter }
  | .runTask index => do
    let task ← s.waiter.queue[index]?
    let waiter ← s.waiter.step (.runTask index)
    match task.2 with
    | .inl _ => some { s with waiter }
    | .inr () => onSecondaryVsync { s with waiter }

/-- The packets that have arrived. -/
def arrived (actions : List (Action κ π)) : List π :=
  actions.filterMap fun
    | .dispatchPacket packet _ => some packet
    | _ => none

end SmoothPointerDataDispatcher

end Flutter
