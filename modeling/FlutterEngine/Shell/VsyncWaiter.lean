import FlutterEngine.Lib.Run

/-!
# The vsync waiter

`shell/common/vsync_waiter.cc`: at most one callback and one secondary callback are registered
until the next vsync. The first registration calls `AwaitVSync`, and whoever implements that answers
every such call by one call of `FireCallback`, which posts what is registered to the UI task runner.

All three methods hold `callback_mutex_` while they look at the callbacks, and act on what they have
seen after it has been released. The machine `step` has one action for each locked region, and one
for each thing that is done outside: to call `AwaitVSync`, or to post a task. Callbacks that are
moved from are empty.
-/

namespace Flutter

/-- `VsyncWaiter`, with the threads that use it and the tasks of the UI task runner. Tasks are
numbered by the call of `FireCallback` that posts them. -/
structure VsyncWaiter (κ σ : Type) where
  /-- `callback_` -/
  callback : Option κ
  /-- `secondary_callback_` -/
  secondaryCallback : Option σ
  /-- A call of `AsyncWaitForVsync` is about to call `AwaitVSync`. -/
  asyncCalling : Bool
  /-- A call of `ScheduleSecondaryCallback` is about to call `AwaitVSync`. -/
  secondaryCalling : Bool
  /-- The number of calls of `AwaitVSync`. -/
  awaits : ℕ
  /-- The number of calls of `FireCallback`. -/
  fires : ℕ
  /-- What each call of `FireCallback` has still to post. -/
  firing : List (List (ℕ × (κ ⊕ σ)))
  /-- The tasks that have been posted and not been run. -/
  queue : List (ℕ × (κ ⊕ σ))
  /-- The tasks that have been run. -/
  ran : List (ℕ × (κ ⊕ σ))
  /-- The callbacks that were accepted, with the number of calls of `FireCallback` before. -/
  accepted : List (ℕ × (κ ⊕ σ))

namespace VsyncWaiter

variable {κ σ : Type}

def init : VsyncWaiter κ σ where
  callback := none
  secondaryCallback := none
  asyncCalling := false
  secondaryCalling := false
  awaits := 0
  fires := 0
  firing := []
  queue := []
  ran := []
  accepted := []

variable (s : VsyncWaiter κ σ)

/-- A callback of either kind is registered. -/
def isSet : Bool := s.callback.isSome || s.secondaryCallback.isSome

/-- The registered callbacks, as the next call of `FireCallback` posts them. -/
def registered : List (ℕ × (κ ⊕ σ)) :=
  s.callback.toList.map (fun callback => (s.fires, .inl callback)) ++
    s.secondaryCallback.toList.map (fun callback => (s.fires, .inr callback))

inductive Action (κ σ : Type) where
  /-- The locked region of `AsyncWaitForVsync`. -/
  | asyncWaitForVsync (callback : Option κ)
  /-- `AsyncWaitForVsync` calls `AwaitVSync` and returns. -/
  | asyncAwaitVSync
  /-- The locked region of `ScheduleSecondaryCallback`. -/
  | scheduleSecondaryCallback (callback : Option σ)
  /-- `ScheduleSecondaryCallback` calls `AwaitVSync` and returns. -/
  | secondaryAwaitVSync
  /-- The locked region of `FireCallback`. -/
  | fireCallback
  /-- One of the calls of `FireCallback` posts a task. -/
  | postTask (index : ℕ)
  /-- The UI task runner runs a task. -/
  | runTask (index : ℕ)

/-- One action, if its thread is ready for it. `AsyncWaitForVsync` and `ScheduleSecondaryCallback`
are called on one thread each, and there is one call of `FireCallback` for each of `AwaitVSync`. -/
def step : Action κ σ → Option (VsyncWaiter κ σ)
  | .asyncWaitForVsync callback =>
    if s.asyncCalling then none
    else match callback with
      -- without a callback there is nothing to schedule
      | none => some s
      | some callback =>
        -- the animator requests a frame more than once within a frame interval
        if s.callback.isSome then some s
        else some { s with
          callback := some callback
          -- a secondary callback has requested the vsync already
          asyncCalling := s.secondaryCallback.isNone
          accepted := s.accepted ++ [(s.fires, .inl callback)] }
  | .asyncAwaitVSync =>
    if s.asyncCalling then some { s with asyncCalling := false, awaits := s.awaits + 1 } else none
  | .scheduleSecondaryCallback callback =>
    if s.secondaryCalling then none
    else match callback with
      | none => some s
      | some callback =>
        -- as do multiple schedules of the secondary callback
        if s.secondaryCallback.isSome then some s
        else some { s with
          secondaryCallback := some callback
          -- here `AsyncWaitForVsync` has
          secondaryCalling := s.callback.isNone
          accepted := s.accepted ++ [(s.fires, .inr callback)] }
  | .secondaryAwaitVSync =>
    if s.secondaryCalling then some { s with secondaryCalling := false, awaits := s.awaits + 1 }
    else none
  | .fireCallback =>
    if s.fires < s.awaits then
      some { s with
        callback := none
        secondaryCallback := none
        fires := s.fires + 1
        firing := s.firing ++ [s.registered] }
    else none
  | .postTask index =>
    match s.firing[index]? with
    -- the callback before the secondary one, and other threads in between
    | some (task :: tasks) =>
      some { s with firing := s.firing.set index tasks, queue := s.queue ++ [task] }
    | _ => none
  | .runTask index =>
    match s.queue[index]? with
    | some task => some { s with queue := s.queue.eraseIdx index, ran := s.ran ++ [task] }
    | none => none

/-- A whole call of `AsyncWaitForVsync`, with nothing in between. -/
def asyncWait (callback : κ) : Option (VsyncWaiter κ σ) := do
  let s ← s.step (.asyncWaitForVsync (some callback))
  if s.asyncCalling then s.step .asyncAwaitVSync else some s

/-- A whole call of `ScheduleSecondaryCallback`, with nothing in between. -/
def scheduleSecondary (callback : σ) : Option (VsyncWaiter κ σ) := do
  let s ← s.step (.scheduleSecondaryCallback (some callback))
  if s.secondaryCalling then s.step .secondaryAwaitVSync else some s

end VsyncWaiter

end Flutter
