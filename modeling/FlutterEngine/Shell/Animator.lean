import FlutterEngine.Shell.Pipeline
import FlutterEngine.Shell.VsyncWaiter

/-!
# The animator

`shell/common/animator.cc`: frames are requested from anywhere in the engine, and a request leads to
one vsync, at which the framework is asked for a frame (`BeginFrame`) or the last layer tree is
drawn again (`DrawLastLayerTree`). A semaphore with one token makes sure that there is at most one
request.

All methods run on the UI thread. What the pipeline answers, and what the framework does while it is
asked for a frame, is up to the environment. Times, traces and the delegate's own work are left out.
-/

namespace Flutter

open Fml

/-- `Animator`, with the tasks it has posted to the UI task runner. -/
structure Animator where
  /-- `pending_frame_semaphore_` -/
  pendingFrameSemaphore : Semaphore
  /-- Whether `producer_continuation_` is valid. -/
  producerContinuation : Bool
  /-- `frame_number_` -/
  frameNumber : ℕ
  /-- `paused_` -/
  paused : Bool
  /-- `regenerate_layer_tree_` -/
  regenerateLayerTree : Bool
  /-- `frame_scheduled_` -/
  frameScheduled : Bool
  /-- `notify_idle_task_id_` -/
  notifyIdleTaskId : ℕ
  /-- `dimension_change_pending_` -/
  dimensionChangePending : Bool
  /-- `last_layer_tree_size_` -/
  lastLayerTreeSize : ℤ × ℤ
  /-- The number of tasks that call `AwaitVSync`. -/
  awaitTasks : ℕ
  /-- The tasks that notify the delegate when it is idle, with the `notify_idle_task_id_` each of
  them has captured. -/
  idleTasks : List ℕ

namespace Animator

def init : Animator where
  pendingFrameSemaphore := ⟨1⟩
  producerContinuation := false
  frameNumber := 1
  paused := false
  regenerateLayerTree := false
  frameScheduled := false
  notifyIdleTaskId := 0
  dimensionChangePending := false
  lastLayerTreeSize := (0, 0)
  awaitTasks := 0
  idleTasks := []

variable (s : Animator)

def requestFrame (regenerateLayerTree : Bool) : Animator :=
  let s := if regenerateLayerTree then { s with regenerateLayerTree := true } else s
  -- a change of the dimensions is rendered even while paused
  if s.paused && !s.dimensionChangePending then s
  else
    match s.pendingFrameSemaphore.tryWait with
    -- there is a request that has not been answered
    | none => s
    | some semaphore =>
      { s with
        pendingFrameSemaphore := semaphore
        awaitTasks := s.awaitTasks + 1
        frameScheduled := true }

def stop : Animator := { s with paused := true }

def start : Animator := if !s.paused then s else { s with paused := false }.requestFrame true

def setDimensionChangePending : Animator := { s with dimensionChangePending := true }

/-- `Render`, with the size of the layer tree. -/
def render (frameSize : ℤ × ℤ) : Animator :=
  let dimensionChangePending := s.dimensionChangePending && frameSize == s.lastLayerTreeSize
  -- `Complete` leaves an invalid continuation
  { s with dimensionChangePending, lastLayerTreeSize := frameSize, producerContinuation := false }

/-- The public methods that the rest of the engine calls. -/
inductive Call where
  | requestFrame (regenerateLayerTree : Bool)
  | start
  | stop
  | setDimensionChangePending
  | render (frameSize : ℤ × ℤ)

def perform : Call → Animator
  | .requestFrame regenerateLayerTree => s.requestFrame regenerateLayerTree
  | .start => s.start
  | .stop => s.stop
  | .setDimensionChangePending => s.setDimensionChangePending
  | .render frameSize => s.render frameSize

/-- The end of `BeginFrame`: the delegate is notified after a while, if no frame is scheduled. -/
def postIdleTask : Animator :=
  if s.frameScheduled then s else { s with idleTasks := s.idleTasks ++ [s.notifyIdleTaskId] }

/-- `BeginFrame`: `produced` is the answer of the pipeline, and `calls` are made by the framework
during `OnAnimatorBeginFrame`. -/
def beginFrame (produced : Bool) (calls : List Call) : Animator :=
  let s := { s with
    frameNumber := s.frameNumber + 1
    frameScheduled := false
    notifyIdleTaskId := s.notifyIdleTaskId + 1
    regenerateLayerTree := false
    pendingFrameSemaphore := s.pendingFrameSemaphore.signal
    -- the pipeline is only asked for a continuation if there is none
    producerContinuation := s.producerContinuation || produced }
  -- the pipeline is full: try again at the next vsync
  if !s.producerContinuation then s.requestFrame true
  else (calls.foldl perform s).postIdleTask

def drawLastLayerTree : Animator :=
  { s with pendingFrameSemaphore := s.pendingFrameSemaphore.signal }

def canReuseLastLayerTree : Bool := !s.regenerateLayerTree

/-- The callback that `AwaitVSync` registers. -/
def onVsync (produced : Bool) (calls : List Call) : Animator :=
  if s.canReuseLastLayerTree then s.drawLastLayerTree else s.beginFrame produced calls

end Animator

/-- The animator and its `waiter_`; secondary callbacks are of type `σ`. -/
structure AnimatorWithWaiter (σ : Type) where
  animator : Animator
  waiter : VsyncWaiter Unit σ

namespace AnimatorWithWaiter

variable {σ : Type}

def init : AnimatorWithWaiter σ := ⟨.init, .init⟩

inductive Action (σ : Type) where
  | call (call : Animator.Call)
  /-- The UI task runner runs a task that calls `AwaitVSync`. -/
  | awaitVSync
  /-- `ScheduleSecondaryVsyncCallback` -/
  | scheduleSecondaryVsyncCallback (callback : σ)
  /-- The locked region of `FireCallback`. -/
  | fireCallback
  /-- A call of `FireCallback` posts a task. -/
  | postTask (index : ℕ)
  /-- The UI task runner runs a task that was posted by `FireCallback`. -/
  | runTask (index : ℕ) (produced : Bool) (calls : List Animator.Call)
  /-- The UI task runner runs one of the idle tasks. -/
  | idleTask (index : ℕ)

def step (s : AnimatorWithWaiter σ) : Action σ → Option (AnimatorWithWaiter σ)
  | .call call => some { s with animator := s.animator.perform call }
  | .awaitVSync =>
    match s.animator.awaitTasks with
    | 0 => none
    | awaitTasks + 1 => do
      let waiter ← s.waiter.asyncWait ()
      some { animator := { s.animator with awaitTasks }, waiter }
  | .scheduleSecondaryVsyncCallback callback => do
    let waiter ← s.waiter.scheduleSecondary callback
    some { s with waiter }
  | .fireCallback => do
    let waiter ← s.waiter.step .fireCallback
    some { s with waiter }
  | .postTask index => do
    let waiter ← s.waiter.step (.postTask index)
    some { s with waiter }
  | .runTask index produced calls => do
    let task ← s.waiter.queue[index]?
    let waiter ← s.waiter.step (.runTask index)
    -- the secondary callbacks do not concern the animator
    match task.2 with
    | .inl () => some { animator := s.animator.onVsync produced calls, waiter }
    | .inr _ => some { s with waiter }
  | .idleTask index =>
    if index < s.animator.idleTasks.length then
      some { s with
        animator := { s.animator with idleTasks := s.animator.idleTasks.eraseIdx index } }
    else none

end AnimatorWithWaiter

end Flutter
