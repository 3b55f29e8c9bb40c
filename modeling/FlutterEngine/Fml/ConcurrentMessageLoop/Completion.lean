import FlutterEngine.Fml.ConcurrentMessageLoop
import FlutterEngine.Lib.Multiset

/-!
# Every task is executed once

A task that has been posted is in one place at any time: in the queue, with a worker, with the
thread that posted it, or it has been executed (`conserved_of_run`). While there is a task in the
queue, there is a worker that will look at it or a thread that will notify one (`Attended`). Threads
that only go on with what they have begun come to an end, and then every task has been executed.

* `Moves` lists what each step does, and everything below is derived from it.
* `remaining` bounds the number of steps without new posts.
* `executed_exactly_once` puts these together.
-/

namespace Fml.ConcurrentMessageLoop

open Lib Function List Multiset Finset WorkerState

variable {n : ℕ} {α : Type} {s t : ConcurrentMessageLoop n α} {a : Action n α}
  {actions : List (Action n α)}

/-! ## What an action does -/

/-- The actions with their effects. -/
inductive Moves (s : ConcurrentMessageLoop n α) :
    Action n α → ConcurrentMessageLoop n α → Prop
  | postNull : Moves s (.postTask none) s
  | postLate (task : α) : s.shutdown = true →
      Moves s (.postTask (some task)) { s with callers := s.callers ++ [task] }
  | post (task : α) : s.shutdown = false →
      Moves s (.postTask (some task))
        { s with tasks := s.tasks ++ [task], notifications := s.notifications + 1 }
  | notify (worker : Fin (max n 1)) (notifications : ℕ) :
      s.notifications = notifications + 1 → s.workers worker = .waiting →
      Moves s (.notifyOne (some worker)) ({ s with notifications }.setWorker worker .checking)
  | notifyNone (notifications : ℕ) : s.notifications = notifications + 1 →
      (∀ worker, s.workers worker ≠ .waiting) →
      Moves s (.notifyOne none) { s with notifications }
  | wake (worker : Fin (max n 1)) : s.workers worker = .waiting →
      Moves s (.wake worker) (s.setWorker worker .checking)
  | take (worker : Fin (max n 1)) (task : α) (tasks : List α) : s.workers worker = .checking →
      s.tasks = task :: tasks →
      Moves s (.check worker) ({ s with tasks }.setWorker worker (.running task))
  | wait (worker : Fin (max n 1)) : s.workers worker = .checking → s.tasks = [] →
      s.shutdown = false → Moves s (.check worker) (s.setWorker worker .waiting)
  | exit (worker : Fin (max n 1)) : s.workers worker = .checking → s.tasks = [] →
      s.shutdown = true → Moves s (.check worker) (s.setWorker worker .exited)
  | execute (worker : Fin (max n 1)) (task : α) : s.workers worker = .running task →
      Moves s (.execute worker)
        ({ s with executed := s.executed ++ [task] }.setWorker worker .checking)
  | executeCaller (index : ℕ) (task : α) : s.callers[index]? = some task →
      Moves s (.executeCaller index)
        { s with callers := s.callers.eraseIdx index, executed := s.executed ++ [task] }
  | terminate : Moves s .terminate
      { s with shutdown := true, workers := fun worker => (s.workers worker).notified }

variable {state : WorkerState α} {worker : Fin (max n 1)}

lemma isWaiting_iff : state.isWaiting = true ↔ state = .waiting := by
  cases state <;> simp [isWaiting]

/-- What each step does. -/
lemma moves_of_step (h : step s a = some t) : Moves s a t := by
  cases a with
  | postTask task =>
    cases task with
    | none =>
      cases h
      exact .postNull
    | some task =>
      simp only [step] at h
      split at h
      · next hshutdown =>
        cases h
        exact .postLate task hshutdown
      · next hshutdown =>
        cases h
        exact .post task (Bool.eq_false_iff.mpr hshutdown)
  | notifyOne worker =>
    cases worker with
    | some worker =>
      simp only [step] at h
      split at h
      · next notifications hnotifications hwaiting =>
        cases h
        exact .notify worker notifications hnotifications hwaiting
      · cases h
    | none =>
      simp only [step] at h
      split at h
      · next notifications hnotifications =>
        split at h
        · cases h
        · next hnone =>
          cases h
          exact .notifyNone notifications hnotifications fun worker hwaiting =>
            hnone ⟨worker, isWaiting_iff.mpr hwaiting⟩
      · cases h
  | wake worker =>
    simp only [step] at h
    split at h
    · next hwaiting =>
      cases h
      exact .wake worker hwaiting
    · cases h
  | check worker =>
    simp only [step] at h
    split at h
    · next hchecking =>
      split at h
      · next task tasks htasks =>
        cases h
        exact .take worker task tasks hchecking htasks
      · next htasks =>
        cases h
        cases hshutdown : s.shutdown with
        | true => exact .exit worker hchecking htasks hshutdown
        | false => exact .wait worker hchecking htasks hshutdown
    · cases h
  | execute worker =>
    simp only [step] at h
    split at h
    · next task hrunning =>
      cases h
      exact .execute worker task hrunning
    · cases h
  | executeCaller index =>
    simp only [step] at h
    split at h
    · next task htask =>
      cases h
      exact .executeCaller index task htask
    · cases h
  | terminate =>
    cases h
    exact .terminate

/-! ## No task is lost or doubled -/

/-- The sum over all workers after one of them has moved. -/
theorem sum_update {M : Type} [AddCommMonoid M] (g : WorkerState α → M)
    (workers : Fin (max n 1) → WorkerState α) (worker : Fin (max n 1)) (state : WorkerState α) :
    (∑ w, g (update workers worker state w)) + g (workers worker) =
      (∑ w, g (workers w)) + g state := by
  have hrest : ∑ w ∈ univ.erase worker, g (update workers worker state w) =
      ∑ w ∈ univ.erase worker, g (workers w) :=
    sum_congr rfl fun w hw => by rw [update_of_ne (ne_of_mem_erase hw)]
  rw [← add_sum_erase _ _ (mem_univ worker),
    ← add_sum_erase _ (fun w => g (workers w)) (mem_univ worker), hrest,
    update_self]
  abel

lemma held_checking : (checking : WorkerState α).held = [] := rfl

lemma held_running (task : α) : (running task).held = [task] := rfl

/-- The tasks that are with a worker. -/
def running (s : ConcurrentMessageLoop n α) : Multiset α :=
  ∑ worker, ((s.workers worker).held : Multiset α)

/-- What is run after a worker has changed. -/
lemma running_setWorker (worker : Fin (max n 1)) (state : WorkerState α) :
    (s.setWorker worker state).running + ((s.workers worker).held : Multiset α) =
      s.running + (state.held : Multiset α) :=
  sum_update (fun state => (state.held : Multiset α)) s.workers worker state

/-- A worker moves between states in which it has no task. -/
theorem running_setWorker_of_nil (hbefore : (s.workers worker).held = [])
    (hafter : state.held = []) : (s.setWorker worker state).running = s.running := by
  have hrunning := running_setWorker (s := s) worker state
  rwa [hbefore, hafter, coe_nil, add_zero, add_zero] at hrunning

/-- Everything that is somewhere. -/
def inventory (s : ConcurrentMessageLoop n α) : Multiset α :=
  s.executed + s.tasks + s.callers + s.running

/-- Each step keeps all tasks, and a post adds one. -/
lemma inventory_of_moves (h : Moves s a t) :
    t.inventory = s.inventory + (posted [a] : Multiset α) := by
  cases h with
  | postNull | notifyNone => exact (add_zero _).symm
  | postLate task =>
    -- the new task is with the thread that has posted it
    change _ + _ + ((s.callers ++ [task] : List α) : Multiset α) + s.running =
      s.executed + s.tasks + s.callers + s.running + ([task] : Multiset α)
    rw [← coe_add]
    abel
  | post task =>
    -- the new task is in the queue
    change _ + ((s.tasks ++ [task] : List α) : Multiset α) + _ + s.running =
      s.executed + s.tasks + s.callers + s.running + ([task] : Multiset α)
    rw [← coe_add]
    abel
  | notify worker notifications _ hwaiting =>
    have hrunning : ({ s with notifications }.setWorker worker .checking).running = s.running :=
      running_setWorker_of_nil (s := { s with notifications }) (by rw [hwaiting]; rfl) rfl
    rw [inventory, hrunning]
    exact (add_zero _).symm
  | wake _ hidle | wait _ hidle | exit _ hidle =>
    rw [inventory, running_setWorker_of_nil (by rw [hidle]; rfl) rfl]
    exact (add_zero _).symm
  | take worker task tasks hchecking htasks =>
    -- the task goes from the queue to the worker
    have hrunning : ({ s with tasks }.setWorker worker (.running task)).running =
        s.running + ([task] : Multiset α) := by
      have h := running_setWorker (s := { s with tasks }) worker (.running task)
      rwa [hchecking, held_checking, coe_nil, add_zero] at h
    have hsplit : (s.tasks : Multiset α) = ([task] : Multiset α) + (tasks : Multiset α) := by
      rw [htasks, coe_add, singleton_append]
    rw [inventory, inventory, hrunning, hsplit]
    change (s.executed : Multiset α) + tasks + s.callers + _ = _ + _ + _ + _ + 0
    abel
  | execute worker task hrunning =>
    -- the task goes from the worker to those that have been executed
    have hrest : ({ s with executed := s.executed ++ [task] }.setWorker worker .checking).running +
        ([task] : Multiset α) = s.running := by
      have h := running_setWorker
        (s := { s with executed := s.executed ++ [task] }) worker .checking
      rwa [hrunning, held_running, held_checking, coe_nil, add_zero] at h
    rw [inventory, inventory, ← hrest]
    change ((s.executed ++ [task] : List α) : Multiset α) + s.tasks + s.callers + _ =
      s.executed + s.tasks + s.callers + _ + 0
    rw [← coe_add]
    abel
  | executeCaller index task htask =>
    rw [inventory, inventory, coe_eraseIdx htask]
    change ((s.executed ++ [task] : List α) : Multiset α) + s.tasks + _ + s.running =
      s.executed + s.tasks + _ + s.running + 0
    rw [← coe_add]
    abel
  | terminate =>
    -- workers that wait have no task
    have hrunning : running { s with
        shutdown := true, workers := fun worker => (s.workers worker).notified } = s.running := by
      refine sum_congr rfl fun worker _ => ?_
      dsimp only
      cases s.workers worker <;> rfl
    rw [inventory, hrunning]
    exact (add_zero _).symm

/-- Every task that was posted has been executed, or is in one of three places. -/
theorem conserved_of_run (h : Run step unguarded (init n α) actions s) :
    (posted actions : Multiset α) = s.inventory := by
  induction h with
  | nil =>
    rw [inventory, running]
    -- all workers are about to check
    have hnone : ∑ worker, (((init n α).workers worker).held : Multiset α) = 0 :=
      sum_eq_zero fun _ _ => rfl
    rw [hnone]
    rfl
  | snoc _ _ hstep ih =>
    rw [inventory_of_moves (moves_of_step hstep), ← ih, posted, filterMap_append, ← coe_add]
    rfl

/-! ## No task is forgotten -/

/-- A worker that will look at the queue again. -/
def Active (s : ConcurrentMessageLoop n α) (worker : Fin (max n 1)) : Prop :=
  s.workers worker ≠ .waiting ∧ s.workers worker ≠ .exited

/-- As long as there are tasks, somebody will attend to them. -/
structure Attended (s : ConcurrentMessageLoop n α) : Prop where
  exited : ∀ worker, s.workers worker = .exited → s.shutdown = true ∧ s.tasks = []
  awake : s.shutdown = true → ∀ worker, s.workers worker ≠ .waiting
  attended : s.tasks ≠ [] → 0 < s.notifications ∨ ∃ worker, s.Active worker

/-- Only one worker changes. -/
lemma workers_setWorker (worker w : Fin (max n 1)) (state : WorkerState α) :
    (s.setWorker worker state).workers w = if w = worker then state else s.workers w :=
  update_apply ..

/-- A worker that becomes active attends to everything. It waits or exits only if it finds nothing
to do. -/
theorem attended_setWorker (hexited : ∀ w, s.workers w = .exited → s.shutdown = true ∧ s.tasks = [])
    (hawake : s.shutdown = true → ∀ w, s.workers w ≠ .waiting)
    (hexit : state = .exited → s.shutdown = true ∧ s.tasks = [])
    (hwait : state = .waiting → s.shutdown = false)
    (hactive : s.tasks ≠ [] → state ≠ .waiting ∧ state ≠ .exited) :
    (s.setWorker worker state).Attended where
  exited w hw := by
    rw [workers_setWorker] at hw
    split at hw
    · exact hexit hw
    · exact hexited w hw
  awake hshutdown w := by
    rw [workers_setWorker]
    split
    · intro heq
      exact Bool.false_ne_true ((hwait heq).symm.trans hshutdown)
    · exact hawake hshutdown w
  attended htasks := .inr ⟨worker, by
    rw [Active, workers_setWorker, if_pos rfl]
    exact hactive htasks⟩

/-- Each step leaves the tasks attended to. -/
lemma Attended.step (h : s.Attended) (hmoves : Moves s a t) : t.Attended := by
  cases hmoves with
  | postNull => exact h
  | postLate | executeCaller => exact ⟨h.exited, h.awake, h.attended⟩
  | post task hshutdown =>
    refine ⟨fun w hw => ?_, h.awake, fun _ => .inl (Nat.succ_pos _)⟩
    -- nobody has exited yet
    exact absurd (hshutdown.symm.trans (h.exited w hw).1) Bool.false_ne_true
  | notify | wake | execute =>
    exact attended_setWorker h.exited h.awake nofun nofun fun _ => ⟨nofun, nofun⟩
  | notifyNone notifications hnotifications hnone =>
    -- nobody waits, and nobody has exited, so that the first worker is active
    refine ⟨h.exited, h.awake, fun htasks => .inr ⟨⟨0, by omega⟩, hnone _, fun hexited => ?_⟩⟩
    exact htasks (h.exited _ hexited).2
  | take worker task tasks hchecking htasks =>
    refine attended_setWorker (fun w hw => ?_) h.awake nofun nofun fun _ => ⟨nofun, nofun⟩
    -- there was a task, so that nobody had exited
    have hnil := (h.exited w hw).2
    rw [htasks] at hnil
    cases hnil
  | wait worker hchecking htasks hshutdown =>
    exact attended_setWorker h.exited h.awake nofun (fun _ => hshutdown) (absurd htasks)
  | exit worker hchecking htasks hshutdown =>
    exact attended_setWorker h.exited h.awake (fun _ => ⟨hshutdown, htasks⟩) nofun (absurd htasks)
  | terminate =>
    refine ⟨fun w hw => ⟨rfl, ?_⟩, fun _ w => ?_, fun htasks => ?_⟩
    -- a notified worker has exited only if it had done so before
    · cases hworker : s.workers w with
      | exited => exact (h.exited w hworker).2
      | checking | waiting | running => simp [hworker, notified] at hw
    · dsimp only
      cases s.workers w <;> exact nofun
    -- an active worker is not changed by the notification
    · refine (h.attended htasks).imp_right fun ⟨worker, hactive⟩ => ⟨worker, ?_⟩
      rw [Active] at hactive ⊢
      dsimp only
      cases hworker : s.workers worker with
      | waiting => exact absurd hworker hactive.1
      | exited => exact absurd hworker hactive.2
      | checking | running => exact ⟨nofun, nofun⟩

/-- At first there are no tasks. -/
lemma attended_init : (init n α).Attended where
  exited _ hexited := by simp [init] at hexited
  awake hshutdown := by simp [init] at hshutdown
  attended htasks := absurd rfl htasks

/-- In every run the tasks are attended to. -/
lemma attended_of_run (h : Run step unguarded (init n α) actions s) : s.Attended :=
  h.invariant attended_init fun _ _ _ hs _ hstep => hs.step (moves_of_step hstep)

/-! ## The threads come to an end -/

/-- A thread goes on with what it has begun. -/
def Continues (_ : ConcurrentMessageLoop n α) : Action n α → Prop
  | .notifyOne _ | .check _ | .execute _ | .executeCaller _ => True
  | _ => False

/-- No thread has anything to do. -/
structure Idle (s : ConcurrentMessageLoop n α) : Prop where
  notifications : s.notifications = 0
  callers : s.callers = []
  workers : ∀ worker, s.workers worker = .waiting ∨ s.workers worker = .exited

/-- What a worker may still do without a new task. -/
def effort : WorkerState α → ℕ
  | .checking => 1
  | .running _ => 2
  | _ => 0

@[simp]
lemma effort_checking : effort (.checking : WorkerState α) = 1 := rfl

@[simp]
lemma effort_running (task : α) : effort (.running task) = 2 := rfl

@[simp]
lemma effort_waiting : effort (.waiting : WorkerState α) = 0 := rfl

@[simp]
lemma effort_exited : effort (.exited : WorkerState α) = 0 := rfl

/-- A bound for the number of actions before all threads are idle. -/
def remaining (s : ConcurrentMessageLoop n α) : ℕ :=
  2 * s.notifications + 2 * s.tasks.length + s.callers.length + ∑ worker, effort (s.workers worker)

/-- The effort after a worker has changed. -/
lemma effort_setWorker (worker : Fin (max n 1)) (state : WorkerState α) :
    (∑ w, effort ((s.setWorker worker state).workers w)) + effort (s.workers worker) =
      (∑ w, effort (s.workers w)) + effort state :=
  sum_update effort s.workers worker state

/-- Each step without a post leaves less to do. -/
lemma remaining_lt (hmoves : Moves s a t) (hcontinues : s.Continues a) :
    t.remaining < s.remaining := by
  cases hmoves with
  | postNull | postLate | post | wake | terminate => exact absurd hcontinues not_false
  | notify worker notifications hnotifications hwaiting =>
    -- a notification counts twice, and the worker that it wakes up once
    have heffort := effort_setWorker (s := { s with notifications }) worker .checking
    simp only [hwaiting, effort_checking, effort_waiting] at heffort
    simp only [remaining, setWorker] at heffort ⊢
    omega
  | notifyNone notifications hnotifications =>
    simp only [remaining]
    omega
  | take worker task tasks hchecking htasks =>
    -- a task counts twice in the queue, and twice with the worker, who was counted once before
    have heffort := effort_setWorker (s := { s with tasks }) worker (.running task)
    simp only [hchecking, effort_checking, effort_running] at heffort
    simp only [remaining, setWorker, htasks, length_cons] at heffort ⊢
    omega
  | wait worker hchecking =>
    have heffort := effort_setWorker (s := s) worker .waiting
    simp only [hchecking, effort_checking, effort_waiting] at heffort
    simp only [remaining, setWorker] at heffort ⊢
    omega
  | exit worker hchecking =>
    have heffort := effort_setWorker (s := s) worker .exited
    simp only [hchecking, effort_checking, effort_exited] at heffort
    simp only [remaining, setWorker] at heffort ⊢
    omega
  | execute worker task hrunning =>
    have heffort :=
      effort_setWorker (s := { s with executed := s.executed ++ [task] }) worker .checking
    simp only [hrunning, effort_checking, effort_running] at heffort
    simp only [remaining, setWorker] at heffort ⊢
    omega
  | executeCaller index task htask =>
    have hlt := (List.getElem?_eq_some_iff.mp htask).1
    simp only [remaining, length_eraseIdx_of_lt hlt]
    omega

/-- How many steps there can be without a post. -/
lemma length_le_remaining {more : List (Action n α)} (h : Run step Continues s more t) :
    more.length + t.remaining ≤ s.remaining := by
  induction h with
  | nil => exact (Nat.zero_add _).le
  | snoc _ hcontinues hstep ih =>
    have hlt := remaining_lt (moves_of_step hstep) hcontinues
    rw [length_append, length_singleton]
    omega

/-- Threads that are not idle can go on. -/
theorem exists_continues (h : ¬s.Idle) : ∃ a, s.Continues a ∧ (step s a).isSome := by
  -- the threads are asked one after another: callers, those that notify, workers
  by_cases hcallers : s.callers = []
  · cases hnotifications : s.notifications with
    | zero =>
      have hworker : ∃ worker, s.Active worker := by
        by_contra hnone
        refine h ⟨hnotifications, hcallers, fun worker => ?_⟩
        by_contra hactive
        exact hnone ⟨worker, not_or.mp hactive⟩
      obtain ⟨worker, hwaiting, hexited⟩ := hworker
      cases hworker : s.workers worker with
      | checking =>
        refine ⟨.check worker, trivial, ?_⟩
        rw [step, hworker]
        cases s.tasks <;> rfl
      | running task =>
        refine ⟨.execute worker, trivial, ?_⟩
        rw [step, hworker]
        rfl
      | waiting => exact absurd hworker hwaiting
      | exited => exact absurd hworker hexited
    | succ notifications =>
      -- a thread notifies one of the workers that wait, if there are any
      by_cases hwaiting : ∃ worker, (s.workers worker).isWaiting = true
      · obtain ⟨worker, hworker⟩ := hwaiting
        refine ⟨.notifyOne (some worker), trivial, ?_⟩
        rw [step, hnotifications, isWaiting_iff.mp hworker]
        rfl
      · refine ⟨.notifyOne none, trivial, ?_⟩
        simp only [step, hnotifications]
        rw [if_neg hwaiting]
        rfl
  · refine ⟨.executeCaller 0, trivial, ?_⟩
    obtain ⟨task, callers, heq⟩ := exists_cons_of_ne_nil hcallers
    rw [step, heq]
    rfl

/-- If no worker can do anything, no task is left. -/
lemma Attended.tasks_eq_nil (h : s.Attended) (hidle : s.Idle) : s.tasks = [] := by
  by_contra htasks
  obtain hnotifications | ⟨worker, hactive⟩ := h.attended htasks
  · exact hnotifications.ne' hidle.notifications
  · exact (hidle.workers worker).elim hactive.1 hactive.2

/-- If no worker can do anything, none runs a task. -/
lemma Idle.running_eq_zero (h : s.Idle) : s.running = 0 := by
  refine Finset.sum_eq_zero fun worker _ => ?_
  obtain hworker | hworker := h.workers worker <;> rw [hworker] <;> rfl

/-- Every task that was posted is executed exactly once: none is executed that was not posted, at
any time the threads can go on until they are idle, and then all tasks have been executed. Workers
exit only after `Terminate`, when no task is left for them, and then all of them do. -/
theorem executed_exactly_once (h : Run step unguarded (init n α) actions s) :
    (s.executed : Multiset α) ≤ posted actions ∧
      (s.Idle → (s.executed : Multiset α) = posted actions) ∧
      (¬s.Idle → ∃ a, s.Continues a ∧ (step s a).isSome) ∧
      (∀ more t, Run step Continues s more t → more.length ≤ s.remaining) ∧
      (∀ worker, s.workers worker = .exited → s.shutdown = true ∧ s.tasks = []) ∧
      (s.shutdown = true → s.Idle → ∀ worker, s.workers worker = .exited) := by
  have hconserved := conserved_of_run h
  have hattended := attended_of_run h
  refine ⟨?_, fun hidle => ?_, exists_continues, fun more t hmore => ?_, hattended.exited,
    fun hshutdown hidle worker => ?_⟩
  -- what has been executed is a part of everything that was posted
  · rw [hconserved, inventory, add_assoc, add_assoc]
    exact le_add_right _ _
  · rw [hconserved, inventory, hattended.tasks_eq_nil hidle, hidle.callers, hidle.running_eq_zero]
    simp
  · have hle := length_le_remaining hmore
    omega
  · exact (hidle.workers worker).resolve_left (hattended.awake hshutdown worker)

/-- One worker waits and the other one executes a task while the loop is terminated; the thread that
posts the last task executes it. -/
def terminatedRun : List (Action 2 ℕ) :=
  [.check ⟨0, by decide⟩, .postTask (some 7), .check ⟨1, by decide⟩,
    .notifyOne (some ⟨0, by decide⟩), .terminate, .check ⟨0, by decide⟩, .postTask (some 8),
    .execute ⟨1, by decide⟩, .executeCaller 0, .check ⟨1, by decide⟩]

/-- Two workers execute two tasks and exit. -/
theorem executed_of_terminatedRun : ∃ s, Run step unguarded (init 2 ℕ) terminatedRun s ∧
    s.executed = [7, 8] ∧ (s.executed : Multiset ℕ) = posted terminatedRun ∧
    ∀ worker, s.workers worker = .exited := by
  have hrun := run_iff_exec.mpr
    (show exec step unguarded (init 2 ℕ) terminatedRun = some _ from rfl)
  obtain ⟨-, hexecuted, -, -, -, hexited⟩ := executed_exactly_once hrun
  have hworkers := hexited rfl ⟨rfl, rfl, by decide⟩
  exact ⟨_, hrun, rfl, hexecuted ⟨rfl, rfl, by decide⟩, hworkers⟩

end Fml.ConcurrentMessageLoop
