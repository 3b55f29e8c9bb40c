import FlutterEngine.Fml.DelayedTask
import FlutterEngine.Lib.Run

/-!
# Message loop task queues

`fml/message_loop_task_queues.h`: the task queues of all message loops, keyed by `TaskQueueId`.
Two queues can be merged. The owner then hands out the tasks of both, the subsumed queue none.

Every method runs under the mutexes of the queues it touches, and a sequence of method calls is
a run of `step`. A call is `none` when the program aborts: `std::map::at` on a missing key, a
failed `FML_CHECK`, or a failed `FML_DCHECK` (calls on dead queues, disposing of a subsumed
queue, setting a wakeable twice).

A `TaskQueueId` wraps a `size_t`, but its only accessor is `operator int`: the comparisons with
`_kUnmerged` and the keys of `queue_entries_` all go through the 32-bit value. It is therefore
modelled by that value, and `_kUnmerged`, which wraps `ULONG_MAX`, is `-1`.
-/

namespace Fml

open Lib

/-- `fml::TaskQueueId`, as seen through `operator int`. -/
abbrev TaskQueueId := BitVec 32

/-- `_kUnmerged`, that is `TaskQueueId(ULONG_MAX)`. -/
def kUnmerged : TaskQueueId := -1

/-- A `Wakeable*`, by identity. -/
abbrev Wakeable := ℕ

/-- `fml::FlushType` -/
inductive FlushType
  | kSingle
  | kAll
deriving DecidableEq, Repr

/-- `fml::TaskQueueEntry`, without the task observers. -/
structure TaskQueueEntry (α : Type) where
  /-- `wakeable`, `none` for `NULL`. -/
  wakeable : Option Wakeable
  /-- `delayed_tasks` -/
  delayedTasks : DelayedTaskQueue α
  /-- `owner_of` -/
  ownerOf : TaskQueueId
  /-- `subsumed_by` -/
  subsumedBy : TaskQueueId

/-- The state of `fml::MessageLoopTaskQueues`, for closures `α`, together with the times its
wakeables are armed at. -/
structure MessageLoopTaskQueues (α : Type) where
  /-- `queue_entries_` -/
  queueEntries : TaskQueueId → Option (TaskQueueEntry α)
  /-- `task_queue_id_counter_` -/
  taskQueueIdCounter : ℕ
  /-- `order_`, an `atomic_int`. -/
  order : BitVec 32
  /-- The time of the last `WakeUp` call on each wakeable. A wakeable has a single timer, which
  every call rearms. -/
  armed : Wakeable → Option ℤ

namespace MessageLoopTaskQueues

variable {α : Type}

/-- The instance before any queue is created. -/
def init : MessageLoopTaskQueues α where
  queueEntries _ := none
  taskQueueIdCounter := 0
  order := 0
  armed _ := none

variable (s : MessageLoopTaskQueues α) (id : TaskQueueId)

/-- Store the entry of a queue. -/
def setEntry (entry : TaskQueueEntry α) : MessageLoopTaskQueues α :=
  { s with queueEntries := Function.update s.queueEntries id (some entry) }

/-- `queue_entries_.erase(id)` -/
def eraseEntry : MessageLoopTaskQueues α :=
  { s with queueEntries := Function.update s.queueEntries id none }

/-- `TaskQueueEntry()` -/
def newEntry : TaskQueueEntry α where
  wakeable := none
  delayedTasks := .empty
  ownerOf := kUnmerged
  subsumedBy := kUnmerged

/-- The id `CreateTaskQueue` hands out next. -/
def nextId : TaskQueueId := BitVec.ofNat 32 s.taskQueueIdCounter

/-- `CreateTaskQueue`. Storing under a key in use replaces its entry. -/
def createTaskQueue : TaskQueueId × MessageLoopTaskQueues α :=
  (s.nextId, { s with taskQueueIdCounter := s.taskQueueIdCounter + 1 }.setEntry s.nextId newEntry)

/-- `Dispose` -/
def dispose : Option (MessageLoopTaskQueues α) := do
  let entry ← s.queueEntries id
  if entry.subsumedBy ≠ kUnmerged then
    none
  else
    let subsumed := entry.ownerOf
    let s := s.eraseEntry id
    return if subsumed ≠ kUnmerged then s.eraseEntry subsumed else s

/-- `DisposeTasks` -/
def disposeTasks : Option (MessageLoopTaskQueues α) := do
  let entry ← s.queueEntries id
  if entry.subsumedBy ≠ kUnmerged then
    none
  else
    let subsumed := entry.ownerOf
    let s := s.setEntry id { entry with delayedTasks := .empty }
    if subsumed ≠ kUnmerged then
      let subsumedEntry ← s.queueEntries subsumed
      return s.setEntry subsumed { subsumedEntry with delayedTasks := .empty }
    else
      return s

/-- `WakeUpUnlocked` -/
def wakeUpUnlocked (time : ℤ) : Option (MessageLoopTaskQueues α) := do
  let entry ← s.queueEntries id
  match entry.wakeable with
  | none => return s
  | some wakeable => return { s with armed := Function.update s.armed wakeable (some time) }

/-- `RegisterTask`: the queue that runs the task is woken at the target time of the first task
of the queue it was registered on. -/
def registerTask (task : α) (targetTime : ℤ) : Option (MessageLoopTaskQueues α) := do
  let entry ← s.queueEntries id
  let entry := { entry with
    delayedTasks := entry.delayedTasks.push ⟨s.order.signExtend 64, task, targetTime⟩ }
  let s := { s with order := s.order + 1 }.setEntry id entry
  let loopToWake := if entry.subsumedBy ≠ kUnmerged then entry.subsumedBy else id
  let top ← entry.delayedTasks.top?
  s.wakeUpUnlocked loopToWake top.targetTime

/-- `HasPendingTasksUnlocked`: a subsumed queue has no pending task, an owner also has those of
its subsumed queue. -/
def hasPendingTasksUnlocked : Option Bool := do
  let entry ← s.queueEntries id
  if entry.subsumedBy ≠ kUnmerged then
    return false
  else if entry.delayedTasks.isEmpty = false then
    return true
  else if entry.ownerOf = kUnmerged then
    return false
  else
    let subsumedEntry ← s.queueEntries entry.ownerOf
    return !subsumedEntry.delayedTasks.isEmpty

/-- `PeekNextTaskUnlocked`: the next task to run and the queue it is in. `top()` on an empty
queue is undefined. -/
def peekNextTaskUnlocked (owner : TaskQueueId) : Option (TaskQueueId × DelayedTask α) := do
  let entry ← s.queueEntries owner
  let subsumed := entry.ownerOf
  if subsumed = kUnmerged then
    let top ← entry.delayedTasks.top?
    return (owner, top)
  else
    let subsumedEntry ← s.queueEntries subsumed
    match entry.delayedTasks.top?, subsumedEntry.delayedTasks.top? with
    | some ownerTask, some subsumedTask =>
      if ownerTask.gt subsumedTask then
        return (subsumed, subsumedTask)
      else
        return (owner, ownerTask)
    | some ownerTask, none => return (owner, ownerTask)
    | none, some subsumedTask => return (subsumed, subsumedTask)
    | none, none => none

/-- `GetNextWakeTimeUnlocked` -/
def getNextWakeTimeUnlocked : Option ℤ := (s.peekNextTaskUnlocked id).map (·.2.targetTime)

/-- `queue_entries_[id]->delayed_tasks.pop()` -/
def popTask : Option (MessageLoopTaskQueues α) := do
  let entry ← s.queueEntries id
  return s.setEntry id { entry with delayedTasks := entry.delayedTasks.pop }

/-- The loop of `GetTasksToRunNow`. It takes one task in every round but the last, so the number
of tasks the queue can hand out bounds the rounds. -/
def takeTasks (id : TaskQueueId) (type : FlushType) (now : ℤ) :
    ℕ → MessageLoopTaskQueues α →
      Option (List (TaskQueueId × DelayedTask α) × MessageLoopTaskQueues α)
  | 0, s => some ([], s)
  | rounds + 1, s => do
    if (← s.hasPendingTasksUnlocked id) = false then
      return ([], s)
    let (topQueue, top) ← s.peekNextTaskUnlocked id
    if top.targetTime > now then
      return ([], s)
    let s ← s.popTask topQueue
    if type = .kSingle then
      return ([(topQueue, top)], s)
    let (rest, s) ← takeTasks id type now rounds s
    return ((topQueue, top) :: rest, s)

/-- The number of tasks in a queue. -/
def numTasks : ℕ :=
  match s.queueEntries id with
  | none => 0
  | some entry => entry.delayedTasks.toList.length

/-- The number of tasks in a queue and in the queue it owns. -/
def numTasksWithSubsumed : ℕ :=
  match s.queueEntries id with
  | none => 0
  | some entry => s.numTasks id + s.numTasks entry.ownerOf

/-- `GetTasksToRunNow` at the clock reading `now`. It returns the tasks it takes, each with the
queue it was in; `invocations` are their closures. -/
def getTasksToRunNow (type : FlushType) (now : ℤ) :
    Option (List (TaskQueueId × DelayedTask α) × MessageLoopTaskQueues α) := do
  if (← s.hasPendingTasksUnlocked id) = false then
    return ([], s)
  let (tasks, s) ← takeTasks id type now (s.numTasksWithSubsumed id) s
  if (← s.hasPendingTasksUnlocked id) = false then
    return (tasks, ← s.wakeUpUnlocked id TimePoint.max)
  else
    return (tasks, ← s.wakeUpUnlocked id (← s.getNextWakeTimeUnlocked id))

/-- `SetWakeable` -/
def setWakeable (wakeable : Wakeable) : Option (MessageLoopTaskQueues α) := do
  let entry ← s.queueEntries id
  if entry.wakeable ≠ none then
    none
  else
    return s.setEntry id { entry with wakeable := some wakeable }

/-- Wake a queue at its next wake time, if it has pending tasks. -/
def wakeUpIfPending : Option (MessageLoopTaskQueues α) := do
  if (← s.hasPendingTasksUnlocked id) then
    s.wakeUpUnlocked id (← s.getNextWakeTimeUnlocked id)
  else
    return s

/-- `Merge` -/
def merge (owner subsumed : TaskQueueId) : Option (Bool × MessageLoopTaskQueues α) :=
  if owner = subsumed then some (true, s)
  else do
    let ownerEntry ← s.queueEntries owner
    let subsumedEntry ← s.queueEntries subsumed
    if ownerEntry.ownerOf = subsumed then
      return (true, s)
    let keys := [ownerEntry.ownerOf, ownerEntry.subsumedBy, subsumedEntry.ownerOf,
      subsumedEntry.subsumedBy]
    if keys.any (· ≠ kUnmerged) then
      return (false, s)
    let s := (s.setEntry owner { ownerEntry with ownerOf := subsumed }).setEntry subsumed
      { subsumedEntry with subsumedBy := owner }
    return (true, ← s.wakeUpIfPending owner)

/-- `Unmerge` -/
def unmerge (owner : TaskQueueId) : Option (Bool × MessageLoopTaskQueues α) := do
  let ownerEntry ← s.queueEntries owner
  let subsumed := ownerEntry.ownerOf
  if subsumed = kUnmerged then
    return (false, s)
  let subsumedEntry ← s.queueEntries subsumed
  let s := (s.setEntry subsumed { subsumedEntry with subsumedBy := kUnmerged }).setEntry owner
    { ownerEntry with ownerOf := kUnmerged }
  let s ← s.wakeUpIfPending owner
  return (true, ← s.wakeUpIfPending subsumed)

/-- `Owns` -/
def owns (owner subsumed : TaskQueueId) : Option Bool := do
  let entry ← s.queueEntries owner
  return subsumed = entry.ownerOf || owner = subsumed

/-- The calls on `MessageLoopTaskQueues`. `now` is the clock reading a call makes. -/
inductive Op (α : Type)
  | createTaskQueue
  | dispose (id : TaskQueueId)
  | disposeTasks (id : TaskQueueId)
  | registerTask (id : TaskQueueId) (task : α) (targetTime : ℤ)
  | getTasksToRunNow (id : TaskQueueId) (type : FlushType) (now : ℤ)
  | setWakeable (id : TaskQueueId) (wakeable : Wakeable)
  | merge (owner subsumed : TaskQueueId)
  | unmerge (owner : TaskQueueId)

/-- One call. -/
def step : Op α → Option (MessageLoopTaskQueues α)
  | .createTaskQueue => some s.createTaskQueue.2
  | .dispose id => s.dispose id
  | .disposeTasks id => s.disposeTasks id
  | .registerTask id task targetTime => s.registerTask id task targetTime
  | .getTasksToRunNow id type now => (s.getTasksToRunNow id type now).map Prod.snd
  | .setWakeable id wakeable => s.setWakeable id wakeable
  | .merge owner subsumed => (s.merge owner subsumed).map Prod.snd
  | .unmerge owner => (s.unmerge owner).map Prod.snd

end MessageLoopTaskQueues

end Fml
