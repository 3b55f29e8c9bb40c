import FlutterEngine.Lib.Run
import Mathlib.Algebra.BigOperators.Group.Finset.Basic
import Mathlib.Data.Fintype.Basic

/-!
# The concurrent message loop

`fml/concurrent_message_loop.cc`: any thread may post tasks, which are taken from a queue by several
workers. Both sides hold a mutex while they look at the queue, and workers that find nothing to do
wait for a condition variable.

The machine `step` has one action for each region that is locked, and for whatever a thread does in
between: to notify a worker after the mutex has been released, or to execute a task. Its runs are
the interleavings of these actions. A worker may also wake up without being notified. Tasks are
taken to return; they may post others while they are executed.
-/

namespace Fml

/-- Where a worker is. -/
inductive WorkerState (α : Type) where
  /-- It is about to lock the mutex, in order to see whether there is something to do. -/
  | checking
  /-- It waits for the condition variable. -/
  | waiting
  /-- It has taken a task from the queue. -/
  | running (task : α)
  /-- `WorkerMain` has returned. -/
  | exited
deriving DecidableEq, Repr

/-- Workers that are notified look again. -/
def WorkerState.notified {α : Type} : WorkerState α → WorkerState α
  | .waiting => .checking
  | state => state

def WorkerState.isWaiting {α : Type} : WorkerState α → Bool
  | .waiting => true
  | _ => false

/-- The task that a worker has taken. -/
def WorkerState.held {α : Type} : WorkerState α → List α
  | .running task => [task]
  | _ => []

/-- `ConcurrentMessageLoop`, with the threads that use it and what they have executed. -/
structure ConcurrentMessageLoop (workerCount : ℕ) (α : Type) where
  /-- `tasks_` -/
  tasks : List α
  /-- `shutdown_` -/
  shutdown : Bool
  /-- `workers_`, at least one. -/
  workers : Fin (max workerCount 1) → WorkerState α
  /-- The number of threads that have posted a task and are about to call `notify_one`. -/
  notifications : ℕ
  /-- Tasks that were posted too late and are about to be executed by the threads that did it. -/
  callers : List α
  /-- The tasks that have been executed. -/
  executed : List α

namespace ConcurrentMessageLoop

variable {n : ℕ} {α : Type}

/-- `Create` -/
def init (n : ℕ) (α : Type) : ConcurrentMessageLoop n α where
  tasks := []
  shutdown := false
  workers _ := .checking
  notifications := 0
  callers := []
  executed := []

inductive Action (n : ℕ) (α : Type) where
  /-- The locked region of `PostTask`. -/
  | postTask (task : Option α)
  /-- `notify_one`, with the worker that wakes up. -/
  | notifyOne (worker : Option (Fin (max n 1)))
  /-- A worker wakes up without a reason. -/
  | wake (worker : Fin (max n 1))
  /-- The locked region of `WorkerMain`. -/
  | check (worker : Fin (max n 1))
  /-- A worker executes its task. -/
  | execute (worker : Fin (max n 1))
  /-- A thread executes the task that it has posted. -/
  | executeCaller (index : ℕ)
  /-- `Terminate` -/
  | terminate

def setWorker (s : ConcurrentMessageLoop n α) (worker : Fin (max n 1)) (state : WorkerState α) :
    ConcurrentMessageLoop n α :=
  { s with workers := Function.update s.workers worker state }

/-- One action, if the thread that takes it is there. -/
def step (s : ConcurrentMessageLoop n α) : Action n α → Option (ConcurrentMessageLoop n α)
  | .postTask none => some s
  | .postTask (some task) =>
    -- after `Terminate` the thread that posts a task executes it, without the mutex
    if s.shutdown then some { s with callers := s.callers ++ [task] }
    else some { s with tasks := s.tasks ++ [task], notifications := s.notifications + 1 }
  | .notifyOne (some worker) =>
    -- the mutex has been released, so that anything may have happened since the task was posted
    match s.notifications, s.workers worker with
    | notifications + 1, .waiting => some ({ s with notifications }.setWorker worker .checking)
    | _, _ => none
  | .notifyOne none =>
    match s.notifications with
    | notifications + 1 =>
      -- a notification is lost only if nobody waits
      if ∃ worker, (s.workers worker).isWaiting then none else some { s with notifications }
    | 0 => none
  | .wake worker =>
    match s.workers worker with
    | .waiting => some (s.setWorker worker .checking)
    | _ => none
  | .check worker =>
    match s.workers worker with
    | .checking =>
      -- `shutdown_` does not matter as long as there are tasks
      match s.tasks with
      | task :: tasks => some ({ s with tasks }.setWorker worker (.running task))
      | [] => some (s.setWorker worker (if s.shutdown then .exited else .waiting))
    | _ => none
  | .execute worker =>
    match s.workers worker with
    | .running task => some ({ s with executed := s.executed ++ [task] }.setWorker worker .checking)
    | _ => none
  | .executeCaller index =>
    match s.callers[index]? with
    | some task =>
      some { s with callers := s.callers.eraseIdx index, executed := s.executed ++ [task] }
    | none => none
  | .terminate =>
    some { s with shutdown := true, workers := fun worker => (s.workers worker).notified }

/-- The tasks that have been posted. -/
def posted (actions : List (Action n α)) : List α :=
  actions.filterMap fun
    | .postTask task => task
    | _ => none

end ConcurrentMessageLoop

end Fml
