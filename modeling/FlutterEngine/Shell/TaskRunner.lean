import FlutterEngine.Fml.DelayedTask
import FlutterEngine.Lib.Run
import Mathlib.Data.BitVec
import Mathlib.Data.List.TakeWhile
import Mathlib.Logic.Function.Basic
import Mathlib.Tactic.Abel

/-!
# Task runners of the desktop shells

`GLFWEventLoop` and `Win32TaskRunner` keep the tasks of the engine until the times they are posted
for. A post turns the target, a time of the engine's clock, into a fire time of the steady clock. It
reads both clocks for that, one after the other, and any time may pass in between.

A step is what a thread does between two points where another one may run: a call of `PostTask`
takes its order number, reads the one clock and the other and takes the lock. The loop reads the
clock, takes the lock for the expired tasks and delivers them one by one.

The module introduces:

* `TaskRunner`, the state of the runner and of the calls on their way, and `step`;
* `Accounted`: every call that has returned has one task, which is queued, taken off the queue or
  delivered, and taken off the queue no earlier than its fire time;
* `Recorded`: the targets, numbers and readings of the calls are those of the actions performed;
* `exactTime`, the fire time as it is without overflow.

The two invariants hold in every run. A task is delivered before one whose post is called after its
own post returned, if neither fire time overflows and the second is no earlier
(`delivered_in_order`). The fire time is the target less the time that passes between the two
readings, so that a task for the same target may overtake another one (`delivered_before_first`).
-/

namespace Flutter

open Lib Fml

/-- A call of `PostTask` with its number, and when it read the steady clock and the engine's. -/
structure Post where
  call : ℕ
  target : BitVec 64
  steady : ℤ
  engine : ℤ
deriving DecidableEq, Repr

/-- How far a call of `PostTask` is. -/
inductive Posting where
  | called (target : BitVec 64)
  | steadyRead (target : BitVec 64) (steady : ℤ)
  | engineRead (post : Post)
deriving DecidableEq, Repr

/-- `Task`, with the order of `Task::Comparer` -/
abbrev Task := DelayedTask Post

/-- The runner, the clock, the calls of `PostTask` that are on their way, and the tasks that the
loop has taken off the queue (`expired_tasks`) and delivered. -/
structure TaskRunner where
  clock : ℤ := 0
  calls : ℕ := 0
  posting : ℕ → Option Posting := fun _ => none
  queue : DelayedTaskQueue Post := .empty
  now : Option ℤ := none
  expired : List Task := []
  delivered : List Task := []

namespace TaskRunner

/-- What a thread does next. -/
inductive Action where
  | tick (nanos : ℕ)
  | call (target : BitVec 64)
  | readSteady (call : ℕ)
  | readEngine (call : ℕ)
  | push (call : ℕ)
  | readNow
  | takeExpired
  | deliver
deriving DecidableEq, Repr

variable (offset : ℤ)

/-- `TimePointFromFlutterTime`, for an engine clock that is `offset` ahead of the steady one -/
def timePointFromFlutterTime (post : Post) : ℤ :=
  (.ofInt 64 post.steady + (post.target - .ofInt 64 (post.engine + offset)) : BitVec 64).toInt

/-- The task of a call. -/
def taskOf (post : Post) : Task :=
  ⟨.ofNat 64 post.call, post, timePointFromFlutterTime offset post⟩

/-- Whether the loop takes a task off the queue. -/
def isExpired (now : ℤ) (task : Task) : Bool := task.targetTime ≤ now

/-- What is left of the queue when the expired tasks are popped. -/
def rest (now : ℤ) (queue : DelayedTaskQueue Post) : DelayedTaskQueue Post :=
  ⟨queue.toList.dropWhile (isExpired now), queue.sorted.sublist (List.dropWhile_sublist _)⟩

variable (self : TaskRunner)

/-- One step, `none` if no thread can make it. -/
def step : Action → Option TaskRunner
  | .tick nanos => some { self with clock := self.clock + nanos }
  | .call target => some { self with
      calls := self.calls + 1
      posting := Function.update self.posting (self.calls + 1) (some (.called target)) }
  | .readSteady call =>
    match self.posting call with
    | some (.called target) => some { self with
        posting := Function.update self.posting call (some (.steadyRead target self.clock)) }
    | _ => none
  | .readEngine call =>
    match self.posting call with
    | some (.steadyRead target steady) => some { self with
        posting := Function.update self.posting call
          (some (.engineRead ⟨call, target, steady, self.clock⟩)) }
    | _ => none
  | .push call =>
    match self.posting call with
    | some (.engineRead post) => some { self with
        posting := Function.update self.posting call none
        queue := self.queue.push (taskOf offset post) }
    | _ => none
  | .readNow =>
    if self.now.isNone ∧ self.expired = [] then some { self with now := some self.clock } else none
  | .takeExpired => self.now.map fun now =>
      { self with
        now := none
        expired := self.queue.toList.takeWhile (isExpired now)
        queue := rest now self.queue }
  | .deliver =>
    match self.expired with
    | [] => none
    | task :: expired =>
      some { self with expired := expired, delivered := self.delivered ++ [task] }

/-! ## Tasks are delivered once, and in time -/

/-- The tasks that the loop has taken off the queue. -/
def taken : List Task := self.delivered ++ self.expired

/-- The tasks whose `PostTask` has taken the lock. -/
def tasks : List Task := self.taken ++ self.queue.toList

/-- A call of `PostTask` has returned. -/
def Returned (call : ℕ) : Prop := (1 ≤ call ∧ call ≤ self.calls) ∧ self.posting call = none

/-- Calls that have returned have one task each, which is taken off the queue at its fire time or
later. -/
structure Accounted (s : TaskRunner) : Prop where
  posting : ∀ call posting, s.posting call = some posting → (1 ≤ call ∧ call ≤ s.calls) ∧
    ∀ post, posting = .engineRead post → post.call = call
  taskOf_eq : ∀ task ∈ s.tasks, task = taskOf offset task.task
  once : (s.tasks.map (·.task.call)).Nodup
  returned_iff : ∀ call, s.Returned call ↔ call ∈ s.tasks.map (·.task.call)
  inTime : ∀ task ∈ s.taken, task.targetTime ≤ s.clock
  now : ∀ now ∈ s.now, now ≤ s.clock ∧ s.expired = []

variable {offset} {s t : TaskRunner} {call : ℕ} {posting : Posting}

/-- What holds of all calls on their way still does when it holds of one that goes on. -/
lemma forall_posting_update {P : ℕ → Posting → Prop} {f : ℕ → Option Posting}
    (hnew : P call posting) (hold : ∀ call' posting', f call' = some posting' → P call' posting') :
    ∀ call' posting', Function.update f call (some posting) call' = some posting' →
      P call' posting' :=
  (Function.forall_update_iff f fun call' found => ∀ posting', found = some posting' →
    P call' posting').mpr ⟨fun _ heq => Option.some.inj heq ▸ hnew, fun call' _ => hold call'⟩

/-- What the loop takes off the queue is not lost. -/
lemma tasks_takeExpired (hidle : s.expired = []) (time : ℤ) (now : Option ℤ) :
    tasks { s with
      now, expired := s.queue.toList.takeWhile (isExpired time), queue := rest time s.queue } =
      s.tasks := by
  simp [tasks, taken, rest, hidle, List.takeWhile_append_dropWhile]

/-- What is delivered was taken off the queue. -/
lemma taken_deliver {task : Task} {expired : List Task} (hexpired : s.expired = task :: expired) :
    taken { s with expired, delivered := s.delivered ++ [task] } = s.taken := by
  simp [taken, hexpired]

/-- A delivery leaves the tasks as they are. -/
lemma tasks_deliver {task : Task} {expired : List Task} (hexpired : s.expired = task :: expired) :
    tasks { s with expired, delivered := s.delivered ++ [task] } = s.tasks :=
  congrArg (· ++ s.queue.toList) (taken_deliver hexpired)

/-- A call that has not returned goes on. -/
theorem Accounted.update (h : Accounted offset s) (hposting : s.posting call ≠ none)
    (hpost : ∀ post, posting = .engineRead post → post.call = call) :
    Accounted offset { s with posting := Function.update s.posting call (some posting) } := by
  obtain ⟨old, hold⟩ := Option.ne_none_iff_exists'.mp hposting
  refine { h with
    posting := forall_posting_update ⟨(h.posting _ _ hold).1, hpost⟩ h.posting
    returned_iff := fun call' => Iff.trans ?_ (h.returned_iff call') }
  rcases eq_or_ne call' call with rfl | hne <;> simp [Returned, *]

/-- A new call has no task yet. -/
theorem Accounted.newCall (h : Accounted offset s) (target : BitVec 64) :
    Accounted offset { s with
      calls := s.calls + 1
      posting := Function.update s.posting (s.calls + 1) (some (.called target)) } := by
  refine { h with
    posting := forall_posting_update ⟨⟨Nat.le_add_left .., le_rfl⟩, nofun⟩ fun _ _ hold =>
      (h.posting _ _ hold).imp_left (.imp_right Nat.le_succ_of_le)
    returned_iff := fun call' => Iff.trans ?_ (h.returned_iff call') }
  rcases eq_or_ne call' (s.calls + 1) with rfl | hne
  · simp [Returned]
  · simp [Returned, Nat.le_succ_iff, hne]

/-- A call that returns has a task from then on. -/
theorem Accounted.push (h : Accounted offset s) {post : Post}
    (hposting : s.posting call = some (.engineRead post)) :
    Accounted offset { s with
      posting := Function.update s.posting call none
      queue := s.queue.push (taskOf offset post) } := by
  obtain ⟨hcall, hpost⟩ := h.posting call _ hposting
  obtain rfl := hpost post rfl
  have hperm : (tasks { s with queue := s.queue.push (taskOf offset post) }).Perm
      (taskOf offset post :: s.tasks) :=
    ((s.queue.push_perm _).append_left _).trans List.perm_middle
  have hnew : post.call ∉ s.tasks.map (·.task.call) := fun hmem => by
    simp [((h.returned_iff _).mpr hmem).2] at hposting
  refine { h with
    posting := fun call' posting' => ?_, taskOf_eq := fun task htask => ?_, once := ?_
    returned_iff := fun call' => ?_ }
  · rcases eq_or_ne call' post.call with rfl | hne
    · simp
    · simpa only [Function.update_of_ne hne] using h.posting call' posting'
  · rcases List.mem_cons.mp (hperm.mem_iff.mp htask) with rfl | htask
    · rfl
    · exact h.taskOf_eq task htask
  · exact (hperm.map _).nodup_iff.mpr (List.nodup_cons.mpr ⟨hnew, h.once⟩)
  · refine Iff.trans ?_ (hperm.map _).mem_iff.symm
    rw [List.map_cons, List.mem_cons, ← h.returned_iff]
    rcases eq_or_ne call' post.call with rfl | hne
    · simpa [Returned, taskOf] using hcall
    · simp [Returned, taskOf, hne]

/-- The loop moves tasks that are expired. -/
theorem Accounted.of_tasks_eq (h : Accounted offset s) {now : Option ℤ}
    {queue : DelayedTaskQueue Post} {expired delivered : List Task}
    (htasks : tasks { s with now, queue, expired, delivered } = s.tasks)
    (hinTime : ∀ task ∈ delivered ++ expired, task.targetTime ≤ s.clock)
    (hnow : ∀ time ∈ now, time ≤ s.clock ∧ expired = []) :
    Accounted offset { s with now, queue, expired, delivered } :=
  ⟨h.posting, htasks ▸ h.taskOf_eq, htasks ▸ h.once, htasks ▸ h.returned_iff, hinTime, hnow⟩

/-- Each step keeps what is known of the tasks. -/
theorem Accounted.step {action : Action} (h : Accounted offset s)
    (hstep : s.step offset action = some t) : Accounted offset t := by
  cases action with
  | tick nanos =>
    cases hstep
    have hle : s.clock ≤ s.clock + nanos := by omega
    exact { h with
      inTime := fun task htask => (h.inTime task htask).trans hle
      now := fun now hnow => (h.now now hnow).imp_left (·.trans hle) }
  | call target =>
    cases hstep
    exact h.newCall target
  | readSteady call =>
    simp only [TaskRunner.step] at hstep
    split at hstep <;> cases hstep
    exact h.update (by simp [*]) nofun
  | readEngine call =>
    simp only [TaskRunner.step] at hstep
    split at hstep <;> cases hstep
    exact h.update (by simp [*]) (by simp)
  | push call =>
    simp only [TaskRunner.step] at hstep
    split at hstep <;> cases hstep
    exact h.push ‹_›
  | readNow =>
    simp only [TaskRunner.step] at hstep
    split at hstep <;> cases hstep
    rename_i hidle
    refine { h with now := fun now hnow => ?_ }
    cases hnow
    exact ⟨le_rfl, hidle.2⟩
  | takeExpired =>
    obtain ⟨now, hnow, rfl⟩ := Option.map_eq_some_iff.mp hstep
    obtain ⟨hle, hidle⟩ := h.now now hnow
    refine h.of_tasks_eq (tasks_takeExpired hidle now none)
      (List.forall_mem_append.mpr ⟨fun task htask => ?_, fun task htask => ?_⟩) nofun
    · exact h.inTime task (List.mem_append_left _ htask)
    · have hexpired := List.mem_takeWhile_imp htask
      exact (of_decide_eq_true hexpired).trans hle
  | deliver =>
    simp only [TaskRunner.step] at hstep
    split at hstep <;> cases hstep
    rename_i task expired hexpired
    refine h.of_tasks_eq (tasks_deliver hexpired) ((taken_deliver hexpired).symm ▸ h.inTime :)
      fun now hnow => ?_
    simpa [hexpired] using (h.now now hnow).2

/-- At first there are no calls and no tasks. -/
lemma Accounted.init : Accounted offset {} := by
  have hnone : (tasks {}).map (·.task.call) = [] := rfl
  refine ⟨by simp, fun task htask => absurd htask (by rw [List.map_eq_nil_iff.mp hnone]; simp),
    hnone ▸ List.nodup_nil, fun call => ?_, by simp [taken], by simp⟩
  simp only [Returned, hnone, List.not_mem_nil, iff_false]
  omega

/-! ## Tasks are those of the calls -/

/-- How many nanoseconds an action takes. -/
def Action.nanos : Action → ℤ
  | .tick nanos => nanos
  | _ => 0

/-- The target of a call of `PostTask`. -/
def Action.target? : Action → Option (BitVec 64)
  | .call target => some target
  | _ => none

/-- The time that passes during some actions. -/
def elapsed (actions : List Action) : ℤ := (actions.map Action.nanos).sum

/-- The targets of the calls of `PostTask` in the order of their numbers. -/
def targets (actions : List Action) : List (BitVec 64) := actions.filterMap Action.target?

/-- The time at which an action was performed. -/
def PerformedAt (actions : List Action) (action : Action) (time : ℤ) : Prop :=
  ∃ before after, actions = before ++ action :: after ∧ elapsed before = time

/-- The target of a call and when it read the clocks. -/
structure IsPost (actions : List Action) (post : Post) : Prop where
  target : (targets actions)[post.call - 1]? = some post.target
  steady : PerformedAt actions (.readSteady post.call) post.steady
  engine : PerformedAt actions (.readEngine post.call) post.engine

/-- What a call on its way knows of itself. -/
def IsPosting (actions : List Action) (call : ℕ) : Posting → Prop
  | .called target => (targets actions)[call - 1]? = some target
  | .steadyRead target steady =>
    (targets actions)[call - 1]? = some target ∧ PerformedAt actions (.readSteady call) steady
  | .engineRead post => post.call = call ∧ IsPost actions post

/-- The state agrees with the actions that were performed. -/
structure Recorded (actions : List Action) (s : TaskRunner) : Prop where
  clock_eq : s.clock = elapsed actions
  calls_eq : s.calls = (targets actions).length
  posting : ∀ call posting, s.posting call = some posting → IsPosting actions call posting
  tasks : ∀ task ∈ s.tasks, IsPost actions task.task

variable {actions : List Action} {action : Action} {post : Post}

/-- The time that passes during some actions and one more. -/
lemma elapsed_append (actions : List Action) (action : Action) :
    elapsed (actions ++ [action]) = elapsed actions + action.nanos := by
  simp [elapsed]

/-- The targets of some actions and one more. -/
lemma targets_append (actions : List Action) (action : Action) :
    targets (actions ++ [action]) = targets actions ++ action.target?.toList := by
  rw [targets, List.filterMap_append]
  cases htarget : action.target? <;> simp [targets, htarget]

/-- A target stays the one of its call. -/
lemma getElem?_targets_append {target : BitVec 64} (h : (targets actions)[call]? = some target) :
    (targets (actions ++ [action]))[call]? = some target := by
  rw [targets_append, List.getElem?_append_left (List.getElem?_eq_some_iff.mp h).1, h]

/-- What was performed stays performed. -/
lemma PerformedAt.append {read : Action} {time : ℤ} (h : PerformedAt actions read time) :
    PerformedAt (actions ++ [action]) read time := by
  obtain ⟨before, after, rfl, htime⟩ := h
  exact ⟨before, after ++ [action], by simp, htime⟩

/-- What is known of a call stays known. -/
lemma IsPost.append (h : IsPost actions post) : IsPost (actions ++ [action]) post :=
  ⟨getElem?_targets_append h.target, h.steady.append, h.engine.append⟩

/-- What a call knows of itself stays so. -/
lemma IsPosting.append (h : IsPosting actions call posting) :
    IsPosting (actions ++ [action]) call posting := by
  cases posting with
  | called target => exact getElem?_targets_append h
  | steadyRead target steady => exact ⟨getElem?_targets_append h.1, h.2.append⟩
  | engineRead post => exact ⟨h.1, h.2.append⟩

/-- A call that goes on knows more of itself. -/
lemma Recorded.update (h : Recorded actions s) (hnanos : action.nanos = 0)
    (htarget : action.target? = none) (hposting : IsPosting (actions ++ [action]) call posting) :
    Recorded (actions ++ [action])
      { s with posting := Function.update s.posting call (some posting) } := by
  refine ⟨?_, ?_, ?_, fun task htask => (h.tasks task htask).append⟩
  · rw [elapsed_append, hnanos, add_zero, h.clock_eq]
  · rw [targets_append, htarget, Option.toList_none, List.append_nil, h.calls_eq]
  · exact forall_posting_update hposting fun call' posting' hold =>
      (h.posting call' posting' hold).append

/-- Where no call goes on, the tasks that are known stay known. -/
lemma Recorded.of_subset (h : Recorded actions s) (htarget : action.target? = none)
    (hclock : t.clock = s.clock + action.nanos) (hcalls : t.calls = s.calls)
    (hposting : ∀ call posting, t.posting call = some posting → s.posting call = some posting)
    (htasks : ∀ task ∈ t.tasks, task ∈ s.tasks ∨ IsPost actions task.task) :
    Recorded (actions ++ [action]) t := by
  refine ⟨?_, ?_, fun call posting hcall => ?_, fun task htask => ?_⟩
  · rw [elapsed_append, hclock, h.clock_eq]
  · rw [targets_append, htarget, Option.toList_none, List.append_nil, hcalls, h.calls_eq]
  · exact (h.posting call posting (hposting call posting hcall)).append
  · exact ((htasks task htask).elim (h.tasks task) id).append

/-- A new call has the next number and its target. -/
lemma Recorded.newCall (h : Recorded actions s) (target : BitVec 64) :
    Recorded (actions ++ [.call target]) { s with
      calls := s.calls + 1
      posting := Function.update s.posting (s.calls + 1) (some (.called target)) } := by
  have hnew : (targets (actions ++ [.call target]))[s.calls]? = some target := by
    rw [targets_append, h.calls_eq]
    exact List.getElem?_concat_length
  refine ⟨?_, ?_, ?_, fun task htask => (h.tasks task htask).append⟩
  · rw [elapsed_append]
    exact h.clock_eq.trans (add_zero _).symm
  · rw [targets_append, Action.target?, List.length_append, ← h.calls_eq]
    rfl
  · exact forall_posting_update hnew fun call' posting' hold =>
      (h.posting call' posting' hold).append

/-- The task of a call that returns is what the call knows of itself. -/
lemma Recorded.push (h : Recorded actions s) (hposting : s.posting call = some (.engineRead post)) :
    Recorded (actions ++ [.push call]) { s with
      posting := Function.update s.posting call none
      queue := s.queue.push (taskOf offset post) } := by
  refine h.of_subset rfl (add_zero _).symm rfl (fun call' posting' hcall => ?_)
    fun task htask => ?_
  · rcases eq_or_ne call' call with rfl | hne
    · simp at hcall
    · simpa only [Function.update_of_ne hne] using hcall
  · rcases List.mem_append.mp htask with htask | htask
    · exact .inl (List.mem_append_left _ htask)
    · rcases PriorityQueue.mem_push.mp htask with rfl | htask
      · exact .inr (h.posting call _ hposting).2
      · exact .inl (List.mem_append_right _ htask)

/-- Each step of a thread is recorded. -/
theorem Recorded.step (h : Recorded actions s) (hs : Accounted offset s)
    (hstep : s.step offset action = some t) : Recorded (actions ++ [action]) t := by
  cases action with
  | tick nanos =>
    cases hstep
    exact h.of_subset rfl rfl rfl (fun _ _ => id) fun _ => .inl
  | call target =>
    cases hstep
    exact h.newCall target
  | readSteady call =>
    simp only [TaskRunner.step] at hstep
    split at hstep <;> cases hstep
    rename_i target hcalled
    have hof := h.posting call _ hcalled
    exact h.update rfl rfl
      ⟨getElem?_targets_append hof, actions, [], rfl, h.clock_eq.symm⟩
  | readEngine call =>
    simp only [TaskRunner.step] at hstep
    split at hstep <;> cases hstep
    rename_i target steady hread
    obtain ⟨htarget, hsteady⟩ := h.posting call _ hread
    exact h.update rfl rfl ⟨rfl, getElem?_targets_append htarget, hsteady.append, actions, [], rfl,
      h.clock_eq.symm⟩
  | push call =>
    simp only [TaskRunner.step] at hstep
    split at hstep <;> cases hstep
    exact h.push ‹_›
  | readNow =>
    simp only [TaskRunner.step] at hstep
    split at hstep <;> cases hstep
    exact h.of_subset rfl (add_zero _).symm rfl (fun _ _ => id) fun _ => .inl
  | takeExpired =>
    obtain ⟨now, hnow, rfl⟩ := Option.map_eq_some_iff.mp hstep
    have hidle := (hs.now now hnow).2
    exact h.of_subset rfl (add_zero _).symm rfl (fun _ _ => id) fun task htask =>
      .inl (tasks_takeExpired hidle now none ▸ htask)
  | deliver =>
    simp only [TaskRunner.step] at hstep
    split at hstep <;> cases hstep
    rename_i task expired hexpired
    exact h.of_subset rfl (add_zero _).symm rfl (fun _ _ => id) fun task htask =>
      .inl (tasks_deliver hexpired ▸ htask)

/-- In every run, the tasks are accounted for and recorded. -/
theorem accounted_of_run (h : Run (TaskRunner.step offset) unguarded {} actions s) :
    Accounted offset s ∧ Recorded actions s := by
  have hnone : tasks {} = [] := rfl
  have hinit : Recorded [] {} := ⟨rfl, rfl, by simp, by simp [hnone]⟩
  exact h.invariant_history (P := fun actions s => Accounted offset s ∧ Recorded actions s)
    ⟨.init, hinit⟩ fun _ _ _ _ hs _ hstep => ⟨hs.1.step hstep, hs.2.step hs.1 hstep⟩

/-! ## Tasks are delivered in order -/

/-- In a sorted list, of two elements that are not the other way round the first comes first. -/
lemma pair_sublist {α : Type*} {r : α → α → Prop} [Std.Total r] {l : List α} {a b : α}
    (hl : l.Pairwise r) (ha : a ∈ l) (hb : b ∈ l) (hab : ¬ r b a) : [a, b].Sublist l := by
  induction hl with
  | nil => simp at ha
  | @cons c l hc _ ih =>
    rcases List.mem_cons.mp hb with rfl | hbl
    · rcases List.mem_cons.mp ha with rfl | hal
      · exact absurd ((Std.Total.total a a).elim id id) hab
      · exact absurd (hc a hal) hab
    · rcases List.mem_cons.mp ha with rfl | hal
      · exact List.Sublist.cons_cons _ (List.singleton_sublist.mpr hbl)
      · exact (ih hal hbl).cons _

/-- A step of a thread takes tasks off the queue only when the loop does. -/
theorem Accounted.taken_of_step {action : Action} (h : Accounted offset s)
    (hstep : s.step offset action = some t) : s.calls ≤ t.calls ∧ s.tasks ⊆ t.tasks ∧
      (t.taken = s.taken ∨
        ∃ now, t.taken = s.taken ++ s.queue.toList.takeWhile (isExpired now)) := by
  cases action with
  | tick | call =>
    cases hstep
    exact ⟨by simp, List.Subset.refl _, .inl rfl⟩
  | readSteady | readEngine | readNow =>
    simp only [TaskRunner.step] at hstep
    split at hstep <;> cases hstep
    exact ⟨le_rfl, List.Subset.refl _, .inl rfl⟩
  | push call =>
    simp only [TaskRunner.step] at hstep
    split at hstep <;> cases hstep
    refine ⟨le_rfl, List.append_subset.mpr ⟨List.subset_append_left _ _, fun task htask => ?_⟩,
      .inl rfl⟩
    exact List.mem_append_right _ (PriorityQueue.mem_push.mpr (.inr htask))
  | takeExpired =>
    obtain ⟨now, hnow, rfl⟩ := Option.map_eq_some_iff.mp hstep
    have hidle := (h.now now hnow).2
    refine ⟨le_rfl, ?_, .inr ⟨now, ?_⟩⟩
    · exact (tasks_takeExpired hidle now none).symm ▸ List.Subset.refl _
    · simp [taken, hidle]
  | deliver =>
    simp only [TaskRunner.step] at hstep
    split at hstep <;> cases hstep
    rename_i task expired hexpired
    refine ⟨le_rfl, ?_, .inl (taken_deliver hexpired)⟩
    exact (tasks_deliver hexpired).symm ▸ List.Subset.refl _

/-- The numbers of the tasks are those of calls. -/
lemma Accounted.call_le (h : Accounted offset s) {a : Task} (ha : a ∈ s.tasks) :
    a.task.call ≤ s.calls :=
  ((h.returned_iff _).mpr (List.mem_map_of_mem ha)).1.2

/-- A task is before another one with a higher number and no earlier fire time. -/
lemma Accounted.not_le (h : Accounted offset s) (hcalls : s.calls < 2 ^ 64) {a b : Task}
    (ha : a ∈ s.tasks) (hb : b ∈ s.tasks) (hcall : a.task.call < b.task.call)
    (hfire : a.targetTime ≤ b.targetTime) : ¬ b.le a := by
  have hlt := (h.call_le hb).trans_lt hcalls
  rw [DelayedTask.le_iff, h.taskOf_eq a ha, h.taskOf_eq b hb]
  simp only [taskOf, BitVec.toNat_ofNat, Nat.mod_eq_of_lt hlt, Nat.mod_eq_of_lt (hcall.trans hlt)]
  rw [h.taskOf_eq a ha, h.taskOf_eq b hb] at hfire
  simp only [taskOf] at hfire
  omega

/-- Expired tasks are taken off the queue together with those before them. -/
lemma mem_takeWhile {now : ℤ} {a b : Task} (ha : a ∈ s.queue.toList)
    (hb : b ∈ s.queue.toList.takeWhile (isExpired now)) (hfire : a.targetTime ≤ b.targetTime) :
    a ∈ s.queue.toList.takeWhile (isExpired now) := by
  have hexpired := List.mem_takeWhile_imp hb
  rw [← (s.queue.toList).takeWhile_append_dropWhile (p := isExpired now), List.mem_append] at ha
  refine ha.resolve_right fun hdrop => ?_
  cases htop : (rest now s.queue).top? with
  | none =>
    rw [show s.queue.toList.dropWhile _ = [] from List.head?_eq_none_iff.mp htop] at hdrop
    exact List.not_mem_nil hdrop
  | some c =>
    have hc := List.head?_dropWhile_not (isExpired now) s.queue.toList
    rw [show (s.queue.toList.dropWhile (isExpired now)).head? = some c from htop] at hc
    have hle := DelayedTask.targetTime_le_of_le (PriorityQueue.top?_le htop hdrop)
    simp only [isExpired, decide_eq_true_eq, decide_eq_false_iff_not] at hexpired hc
    omega

/-- A task that is posted is taken off the queue before those that are posted from then on with no
earlier fire time. -/
theorem sublist_taken {s₁ : TaskRunner} {a : Task} (h₁ : Accounted offset s₁)
    (ha : a ∈ s₁.tasks) (h : Run (TaskRunner.step offset) unguarded s₁ actions s) :
    Accounted offset s ∧ s₁.calls ≤ s.calls ∧ a ∈ s.tasks ∧ (s.calls < 2 ^ 64 → ∀ b ∈ s.taken,
      s₁.calls < b.task.call → a.targetTime ≤ b.targetTime → [a, b].Sublist s.taken) := by
  induction h with
  | nil =>
    refine ⟨h₁, le_rfl, ha, fun _ b hb hcall => ?_⟩
    exact absurd (h₁.call_le (List.mem_append_left _ hb)) (Nat.not_le.mpr hcall)
  | @snoc _ _ s t _ _ hstep ih =>
    obtain ⟨hs, hle, has, horder⟩ := ih
    obtain ⟨hcalls, hsubset, htaken⟩ := hs.taken_of_step hstep
    refine ⟨hs.step hstep, hle.trans hcalls, hsubset has, fun hlt b hb hcall hfire => ?_⟩
    have hlt := hcalls.trans_lt hlt
    rcases htaken with heq | ⟨now, heq⟩ <;> rw [heq] at hb ⊢
    · exact horder hlt b hb hcall hfire
    · rcases List.mem_append.mp hb with hb | hb
      · exact (horder hlt b hb hcall hfire).trans (List.sublist_append_left _ _)
      · rcases List.mem_append.mp has with has | has
        · exact (List.singleton_sublist.mpr has).append (List.singleton_sublist.mpr hb)
        · -- both are in the queue, and the first one is on top of it first
          have hqueue := (List.takeWhile_sublist _).subset hb
          have hnot := hs.not_le hlt (List.mem_append_right _ has) (List.mem_append_right _ hqueue)
            ((h₁.call_le ha).trans_lt hcall) hfire
          have hsorted := s.queue.sorted.sublist (List.takeWhile_sublist (isExpired now))
          exact (pair_sublist hsorted (mem_takeWhile has hb hfire) hb hnot).trans
            (List.sublist_append_right _ _)

/-! ## Fire times -/

/-- The fire time without overflow: the target by the steady clock, less the time that passes
between the two readings. -/
def exactTime (offset : ℤ) (post : Post) : ℤ :=
  post.target.toNat - offset - (post.engine - post.steady)

/-- A fire time that fits into 64 bits is computed as it is. -/
lemma timePointFromFlutterTime_eq {post : Post} (hmin : -2 ^ 63 ≤ exactTime offset post)
    (hmax : exactTime offset post < 2 ^ 63) :
    timePointFromFlutterTime offset post = exactTime offset post := by
  have htarget : post.target = .ofInt 64 post.target.toNat := by
    rw [BitVec.ofInt_natCast, BitVec.ofNat_toNat, BitVec.setWidth_eq]
  have heq : .ofInt 64 post.steady + (post.target - .ofInt 64 (post.engine + offset)) =
      BitVec.ofInt 64 (exactTime offset post) := by
    rw [htarget, exactTime]
    simp only [sub_eq_add_neg, neg_add, neg_neg, BitVec.ofInt_add, BitVec.ofInt_neg]
    abel
  rw [timePointFromFlutterTime, heq]
  exact BitVec.toInt_ofInt_eq_self (by decide) hmin hmax

/-- Whatever the threads do: a call that has returned has exactly one task, which is queued or taken
off the queue, not before its fire time. And if the first call returned before the second was made,
the first task is delivered before the second, unless a fire time overflows or the readings of the
second call are further apart than those of the first by more than the targets are. -/
theorem delivered_in_order {s₁ : TaskRunner} {actions₁ actions : List Action}
    (h₁ : Run (TaskRunner.step offset) unguarded {} actions₁ s₁)
    (h : Run (TaskRunner.step offset) unguarded s₁ actions s)
    (hcalls : (targets (actions₁ ++ actions)).length < 2 ^ 64) :
    Accounted offset s ∧ Recorded (actions₁ ++ actions) s ∧
      ∀ a ∈ s₁.tasks, ∀ b ∈ s.delivered, (targets actions₁).length < b.task.call →
        (∀ task ∈ [a, b],
          -2 ^ 63 ≤ exactTime offset task.task ∧ exactTime offset task.task < 2 ^ 63) →
        exactTime offset a.task ≤ exactTime offset b.task → [a, b].Sublist s.delivered := by
  obtain ⟨hs₁, hrecorded₁⟩ := accounted_of_run h₁
  obtain ⟨hs, hrecorded⟩ := accounted_of_run (h₁.append h)
  refine ⟨hs, hrecorded, fun a ha b hb hcall hfits hle => ?_⟩
  rw [← hrecorded.calls_eq] at hcalls
  rw [← hrecorded₁.calls_eq] at hcall
  obtain ⟨-, -, has, horder⟩ := sublist_taken hs₁ ha h
  have hbs : b ∈ s.taken := List.mem_append_left _ hb
  have htime : ∀ task ∈ [a, b], task ∈ s.tasks → task.targetTime = exactTime offset task.task :=
    fun task htask hmem => by
      rw [hs.taskOf_eq task hmem]
      exact timePointFromFlutterTime_eq (hfits task htask).1 (hfits task htask).2
  have hfire : a.targetTime ≤ b.targetTime := by
    rwa [htime a (by simp) has, htime b (by simp) (List.mem_append_left _ hbs)]
  -- the second task is delivered, so both are: it is not taken off the queue a second time
  obtain ⟨l₁, l₂, hpair, hl₁, hl₂⟩ := List.sublist_append_iff.mp (horder hcalls b hbs hcall hfire)
  rcases List.eq_nil_or_concat l₂ with rfl | ⟨l, c, rfl⟩
  · simpa [hpair] using hl₁
  · have hc : c = b := by simpa using (congrArg List.getLast? hpair).symm
    have honce : (s.delivered ++ s.expired).Nodup := (hs.once.of_map _).of_append_left
    exact (List.disjoint_of_nodup_append honce hb (hl₂.subset (by simp [hc]))).elim

/-- Two calls for the same target, one after the other. The readings of the first are 5 apart, those
of the second 3, so the first is delivered first. -/
theorem delivered_in_order_two :
    let s₁ := (exec (step 0) unguarded {} [.call 100, .readSteady 1, .tick 5, .readEngine 1,
      .push 1]).get (by decide)
    let s := (exec (step 0) unguarded s₁ [.call 100, .readSteady 2, .tick 3, .readEngine 2, .push 2,
      .tick 100, .readNow, .takeExpired, .deliver, .deliver]).get (by decide)
    exactTime 0 ⟨1, 100, 0, 5⟩ = 95 ∧ exactTime 0 ⟨2, 100, 5, 8⟩ = 97 ∧
      [taskOf 0 ⟨1, 100, 0, 5⟩, taskOf 0 ⟨2, 100, 5, 8⟩].Sublist s.delivered := by
  intro s₁ s
  exact ⟨by decide, by decide, (delivered_in_order (run_iff_exec.mpr (Option.some_get _).symm)
    (run_iff_exec.mpr (Option.some_get _).symm) (by decide)).2.2 _ (by decide) _ (by decide)
    (by decide) (by decide) (by decide)⟩

/-- The first call has the target 100, and so does the second, which reads the steady clock at 0 and
the engine's at 50: it is delivered at 60, when the first is not. -/
theorem delivered_before_first :
    (exec (step 0) unguarded {} [.call 100, .readSteady 1, .readEngine 1, .push 1, .call 100,
      .readSteady 2, .tick 50, .readEngine 2, .push 2, .tick 10, .readNow, .takeExpired,
      .deliver]).map (·.delivered.map (·.task.call)) = some [2] := by
  decide

end TaskRunner

end Flutter
