import FlutterEngine.Fml.MessageLoopTaskQueues.Pending

/-!
# Task queues with their history

The state of the task queues together with what has happened to them: the tasks registered, the
tasks handed out, and the queues that were given their wakeable in time. The history only records
(`TaskHistory.step_queues`); no call reads it.
-/

namespace Fml

open Lib MessageLoopTaskQueues Option

variable {α : Type}

/-- Task queues and their history. -/
structure TaskHistory (α : Type) where
  queues : MessageLoopTaskQueues α
  /-- The tasks registered, each with the queue it was registered on, in order. -/
  registered : List (TaskQueueId × DelayedTask α)
  /-- The tasks handed out, each with the queue it was taken off, in order. -/
  delivered : List (TaskQueueId × DelayedTask α)
  /-- The queues whose wakeable was set before a task was registered on them. -/
  early : List TaskQueueId

namespace TaskHistory

/-- No queue has been created. -/
def init : TaskHistory α where
  queues := .init
  registered := []
  delivered := []
  early := []

/-- One call and its record. -/
def step (h : TaskHistory α) : Op α → Option (TaskHistory α)
  | .registerTask id task targetTime => do
    let queues ← h.queues.registerTask id task targetTime
    return { h with
      queues
      registered := h.registered ++ [(id, h.queues.newTask task targetTime)] }
  | .getTasksToRunNow id type now => do
    let (out, queues) ← h.queues.getTasksToRunNow id type now
    return { h with queues, delivered := h.delivered ++ out }
  | .setWakeable id wakeable => do
    let queues ← h.queues.setWakeable id wakeable
    return { h with
      queues
      early := if h.registered.any (·.1 = id) then h.early else id :: h.early }
  | op => do
    let queues ← h.queues.step op
    return { h with queues }

/-- The history follows the calls. -/
theorem step_queues {h h' : TaskHistory α} {op : Op α} (hstep : h.step op = some h') :
    h.queues.step op = some h'.queues := by
  cases op <;>
    simp only [step, MessageLoopTaskQueues.step, bind_eq_bind, bind_eq_some_iff,
      map_eq_some_iff, pure_def, some.injEq] at hstep ⊢ <;>
    grind

end TaskHistory

end Fml
