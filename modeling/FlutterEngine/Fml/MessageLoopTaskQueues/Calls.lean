import FlutterEngine.Fml.MessageLoopTaskQueues

/-!
# What each task queue call does

One lemma for each call of `MessageLoopTaskQueues` says what state it leads to in terms of the
entries it finds. All other modules reason about the calls through these lemmas, and about the
state through three views of it: `links`, `tasks` and `wakeableOf`.

* `SameQueues`: waking only rearms.
* `Taken`: `GetTasksToRunNow` takes tasks off the front of the queues, and nothing else.
* `merge_cases`, `unmerge_cases`: a call that does not succeed changes nothing.
-/

namespace Fml.MessageLoopTaskQueues

open Lib Function Option

variable {α : Type}
variable {entry' : TaskQueueEntry α} {type : FlushType} {now : ℤ} {owner subsumed : TaskQueueId}
variable {s t : MessageLoopTaskQueues α} {id : TaskQueueId} {entry : TaskQueueEntry α}

/-! ## Stored entries -/

section Stored

variable (s id entry)

@[simp]
lemma queueEntries_setEntry :
    (s.setEntry id entry).queueEntries = update s.queueEntries id (some entry) := rfl

@[simp]
lemma taskQueueIdCounter_setEntry :
    (s.setEntry id entry).taskQueueIdCounter = s.taskQueueIdCounter := rfl

@[simp]
lemma order_setEntry : (s.setEntry id entry).order = s.order := rfl

end Stored

/-! ## Views of the state -/

/-- The `owner_of` and `subsumed_by` of a live queue. -/
def links (s : MessageLoopTaskQueues α) (id : TaskQueueId) : Option (TaskQueueId × TaskQueueId) :=
  (s.queueEntries id).map fun entry => (entry.ownerOf, entry.subsumedBy)

variable (s id entry) in
/-- An entry that is set changes the links of its queue only. -/
lemma links_setEntry : (s.setEntry id entry).links =
    update s.links id (some (entry.ownerOf, entry.subsumedBy)) :=
  comp_update _ s.queueEntries id (some entry)

variable (s id) in
/-- An entry that is erased has no links. -/
lemma links_eraseEntry : (s.eraseEntry id).links = update s.links id none :=
  comp_update _ s.queueEntries id none

/-- The links of a queue are those of its entry. -/
lemma links_eq_some (h : s.queueEntries id = some entry) :
    s.links id = some (entry.ownerOf, entry.subsumedBy) := by
  simp [links, h]

/-- Storing an entry with the same links changes no link. -/
theorem links_setEntry_eq (h : s.queueEntries id = some entry)
    (howner : entry'.ownerOf = entry.ownerOf) (hsubsumed : entry'.subsumedBy = entry.subsumedBy) :
    (s.setEntry id entry').links = s.links := by
  rw [links_setEntry, howner, hsubsumed, ← links_eq_some h, update_eq_self]

/-- The wakeable of a queue. -/
def wakeableOf (s : MessageLoopTaskQueues α) (id : TaskQueueId) : Option Wakeable :=
  (s.queueEntries id).bind (·.wakeable)

lemma wakeableOf_eq (h : s.queueEntries id = some entry) : s.wakeableOf id = entry.wakeable := by
  simp [wakeableOf, h]

variable (s id entry) in
/-- An entry that is set changes the loop of its queue only. -/
lemma wakeableOf_setEntry :
    (s.setEntry id entry).wakeableOf = update s.wakeableOf id entry.wakeable := by
  funext x
  by_cases h : x = id
  · subst h
    simp [wakeableOf]
  · simp [wakeableOf, h]

/-- Storing an entry with the same wakeable changes no wakeable. -/
theorem wakeableOf_setEntry_eq (h : s.queueEntries id = some entry)
    (hwakeable : entry'.wakeable = entry.wakeable) :
    (s.setEntry id entry').wakeableOf = s.wakeableOf := by
  rw [wakeableOf_setEntry, hwakeable, ← wakeableOf_eq h, update_eq_self]

/-- The tasks stored in a queue. -/
def tasks (s : MessageLoopTaskQueues α) (id : TaskQueueId) : List (DelayedTask α) :=
  match s.queueEntries id with
  | none => []
  | some entry => entry.delayedTasks.toList

/-- The tasks of a queue are those of its entry. -/
lemma tasks_eq (h : s.queueEntries id = some entry) : s.tasks id = entry.delayedTasks.toList := by
  simp [tasks, h]

variable (s id entry) in
/-- An entry that is set changes the tasks of its queue only. -/
lemma tasks_setEntry :
    (s.setEntry id entry).tasks = update s.tasks id entry.delayedTasks.toList := by
  funext x
  by_cases h : x = id
  · subst h
    simp [tasks]
  · simp [tasks, h]

/-- Storing an entry with the same tasks changes no task. -/
theorem tasks_setEntry_eq (h : s.queueEntries id = some entry)
    (htasks : entry'.delayedTasks = entry.delayedTasks) :
    (s.setEntry id entry').tasks = s.tasks := by
  rw [tasks_setEntry, htasks, ← tasks_eq h, update_eq_self]

/-! ## Calls that wake -/

/-- Waking a queue only rearms its wakeable. -/
theorem wakeUpUnlocked_eq_some_iff {time : ℤ} : s.wakeUpUnlocked id time = some t ↔
      ∃ entry, s.queueEntries id = some entry ∧
        t = { s with armed :=
          match entry.wakeable with
          | none => s.armed
          | some wakeable => update s.armed wakeable (some time) } := by
  simp only [wakeUpUnlocked, bind_eq_bind, bind_eq_some_iff]
  constructor
  · rintro ⟨entry, hentry, h⟩
    refine ⟨entry, hentry, ?_⟩
    cases hw : entry.wakeable <;> simp_all
  · rintro ⟨entry, hentry, rfl⟩
    refine ⟨entry, hentry, ?_⟩
    cases hw : entry.wakeable <;> simp

/-- `t` differs from `s` at most in the times the wakeables are armed at. -/
def SameQueues (s t : MessageLoopTaskQueues α) : Prop := t = { s with armed := t.armed }

section Views

variable (h : SameQueues s t)

include h

lemma SameQueues.symm : SameQueues t s := by
  unfold SameQueues at *
  rw [h]

lemma SameQueues.counter : t.taskQueueIdCounter = s.taskQueueIdCounter := by rw [h]

lemma SameQueues.order : t.order = s.order := by rw [h]

/-- Wake-ups leave the links alone. -/
lemma SameQueues.links : t.links = s.links := by
  rw [h]
  rfl

/-- Wake-ups leave the tasks alone. -/
lemma SameQueues.tasks : t.tasks = s.tasks := by
  rw [h]
  rfl

/-- Wake-ups leave the loops alone. -/
lemma SameQueues.wakeableOf : t.wakeableOf = s.wakeableOf := by
  rw [h]
  rfl

end Views

/-- `WakeUpUnlocked` only wakes up. -/
lemma wakeUpUnlocked_sameQueues {time : ℤ} (h : s.wakeUpUnlocked id time = some t) :
    SameQueues s t := by
  obtain ⟨_, _, rfl⟩ := wakeUpUnlocked_eq_some_iff.mp h
  rfl

/-- Waking up for pending tasks only wakes up. -/
lemma wakeUpIfPending_sameQueues (h : s.wakeUpIfPending id = some t) : SameQueues s t := by
  simp only [wakeUpIfPending, bind_eq_bind, bind_eq_some_iff] at h
  obtain ⟨pending, _, h⟩ := h
  split at h
  · obtain ⟨time, _, h⟩ := bind_eq_some_iff.mp h
    exact wakeUpUnlocked_sameQueues h
  · obtain rfl : s = t := by simpa using h
    rfl

/-! ## Calls on one entry -/

/-- What `Dispose` does: it needs an owner and takes its subsumed queue along. -/
lemma dispose_cases (h : s.dispose id = some t) :
    ∃ entry, s.queueEntries id = some entry ∧ entry.subsumedBy = kUnmerged ∧
      t = if entry.ownerOf ≠ kUnmerged then (s.eraseEntry id).eraseEntry entry.ownerOf
        else s.eraseEntry id := by
  simp only [dispose, bind_eq_bind, bind_eq_some_iff] at h
  obtain ⟨entry, hentry, h⟩ := h
  split at h
  · cases h
  · rename_i hsubsumed
    exact ⟨entry, hentry, not_not.mp hsubsumed, (some.inj h).symm⟩

/-- The state with the tasks of a queue replaced. -/
def setTasks (s : MessageLoopTaskQueues α) (id : TaskQueueId) (entry : TaskQueueEntry α)
    (tasks : DelayedTaskQueue α) : MessageLoopTaskQueues α :=
  s.setEntry id { entry with delayedTasks := tasks }

/-- Changing tasks leaves the links alone. -/
lemma links_setTasks (h : s.queueEntries id = some entry) (tasks : DelayedTaskQueue α) :
    (s.setTasks id entry tasks).links = s.links :=
  links_setEntry_eq h rfl rfl

/-- What `DisposeTasks` does, with a subsumed queue or without. -/
lemma disposeTasks_cases (h : s.disposeTasks id = some t) :
    ∃ entry, s.queueEntries id = some entry ∧
      (t = s.setTasks id entry .empty ∨
        ∃ subsumedEntry,
          (s.setTasks id entry .empty).queueEntries entry.ownerOf = some subsumedEntry ∧
          t = (s.setTasks id entry .empty).setTasks entry.ownerOf subsumedEntry .empty) := by
  simp only [disposeTasks, bind_eq_bind, bind_eq_some_iff] at h
  obtain ⟨entry, hentry, h⟩ := h
  refine ⟨entry, hentry, ?_⟩
  split at h
  · cases h
  · split at h
    · simp only [bind_eq_some_iff] at h
      obtain ⟨subsumedEntry, hsubsumed, h⟩ := h
      exact .inr ⟨subsumedEntry, hsubsumed, (some.inj h).symm⟩
    · exact .inl (some.inj h).symm

/-- The task `RegisterTask` stores. -/
def newTask (s : MessageLoopTaskQueues α) (task : α) (targetTime : ℤ) : DelayedTask α :=
  ⟨s.order.signExtend 64, task, targetTime⟩

/-- The queue whose wakeable `RegisterTask` arms. -/
def loopToWake (id : TaskQueueId) (entry : TaskQueueEntry α) : TaskQueueId :=
  if entry.subsumedBy ≠ kUnmerged then entry.subsumedBy else id

/-- The state after `RegisterTask` has stored a task, before it wakes a queue. -/
def enqueue (s : MessageLoopTaskQueues α) (id : TaskQueueId) (entry : TaskQueueEntry α)
    (task : DelayedTask α) : MessageLoopTaskQueues α :=
  { s with order := s.order + 1 }.setTasks id entry (entry.delayedTasks.push task)

/-- A new task leaves the links alone. -/
lemma links_enqueue (h : s.queueEntries id = some entry) (task : DelayedTask α) :
    (s.enqueue id entry task).links = s.links :=
  links_setEntry_eq h rfl rfl

/-- A new task leaves the loops alone. -/
lemma wakeableOf_enqueue (h : s.queueEntries id = some entry) (task : DelayedTask α) :
    (s.enqueue id entry task).wakeableOf = s.wakeableOf :=
  wakeableOf_setEntry_eq h rfl

variable (s id entry) in
/-- A new task is pushed to its queue. -/
lemma tasks_enqueue (task : DelayedTask α) : (s.enqueue id entry task).tasks =
    update s.tasks id (entry.delayedTasks.push task).toList :=
  tasks_setEntry _ _ _

/-- What `RegisterTask` does: it pushes a task and wakes up for the first one. -/
lemma registerTask_cases {task : α} {targetTime : ℤ}
    (h : s.registerTask id task targetTime = some t) :
    ∃ entry top, s.queueEntries id = some entry ∧
      (entry.delayedTasks.push (s.newTask task targetTime)).top? = some top ∧
      (s.enqueue id entry (s.newTask task targetTime)).wakeUpUnlocked (loopToWake id entry)
        top.targetTime = some t := by
  simp only [registerTask, bind_eq_bind, bind_eq_some_iff] at h
  obtain ⟨entry, hentry, top, htop, h⟩ := h
  exact ⟨entry, top, hentry, htop, h⟩

/-- What popping a task does. -/
lemma popTask_cases (h : s.popTask id = some t) :
    ∃ entry, s.queueEntries id = some entry ∧ t = s.setTasks id entry entry.delayedTasks.pop := by
  simp only [popTask, bind_eq_bind, bind_eq_some_iff] at h
  obtain ⟨entry, hentry, h⟩ := h
  exact ⟨entry, hentry, (some.inj h).symm⟩

/-- What `SetWakeable` does, for a queue without a loop. -/
lemma setWakeable_cases {wakeable : Wakeable} (h : s.setWakeable id wakeable = some t) :
    ∃ entry, s.queueEntries id = some entry ∧ entry.wakeable = none ∧
      t = s.setEntry id { entry with wakeable := some wakeable } := by
  simp only [setWakeable, bind_eq_bind, bind_eq_some_iff] at h
  obtain ⟨entry, hentry, h⟩ := h
  split at h
  · cases h
  · rename_i hnone
    exact ⟨entry, hentry, not_not.mp hnone, (some.inj h).symm⟩

/-! ## Taking tasks -/

/-- `t` is `s` after the tasks `out` were taken, each off the front of its queue. -/
structure Taken (s : MessageLoopTaskQueues α) (out : List (TaskQueueId × DelayedTask α))
    (t : MessageLoopTaskQueues α) : Prop where
  tasks : ∀ q, s.tasks q = (out.filter (·.1 = q)).map Prod.snd ++ t.tasks q
  links : t.links = s.links
  wakeableOf : t.wakeableOf = s.wakeableOf
  armed : t.armed = s.armed
  counter : t.taskQueueIdCounter = s.taskQueueIdCounter
  order : t.order = s.order

/-- Nothing is taken. -/
lemma Taken.refl (s : MessageLoopTaskQueues α) : Taken s [] s :=
  ⟨fun _ => rfl, rfl, rfl, rfl, rfl, rfl⟩

/-- What is taken in two turns. -/
lemma Taken.trans {s' : MessageLoopTaskQueues α} {out out' : List (TaskQueueId × DelayedTask α)}
    (h : Taken s out s') (h' : Taken s' out' t) :
    Taken s (out ++ out') t where
  tasks q := by rw [h.tasks, h'.tasks, List.filter_append, List.map_append, List.append_assoc]
  links := h'.links.trans h.links
  wakeableOf := h'.wakeableOf.trans h.wakeableOf
  armed := h'.armed.trans h.armed
  counter := h'.counter.trans h.counter
  order := h'.order.trans h.order

variable {task : DelayedTask α} {q : TaskQueueId} {rounds : ℕ}
  {tasks : List (TaskQueueId × DelayedTask α)} {merged unmerged : Bool}

/-- The top of a queue is taken. -/
lemma taken_pop (hentry : s.queueEntries id = some entry)
    (htop : entry.delayedTasks.top? = some task) :
    Taken s [(id, task)] (s.setTasks id entry entry.delayedTasks.pop) where
  tasks q := by
    rw [setTasks, tasks_setEntry]
    by_cases h : q = id
    · subst h
      rw [update_self, tasks_eq hentry, PriorityQueue.top?_eq_some_iff.mp htop]
      simp
    · rw [update_of_ne h]
      simp [Ne.symm h]
  links := links_setTasks hentry _
  wakeableOf := wakeableOf_setEntry_eq hentry rfl
  armed := rfl
  counter := rfl
  order := rfl

/-- The next task of a queue is the top of the queue it is in. -/
theorem peekNextTaskUnlocked_top (h : s.peekNextTaskUnlocked id = some (q, task)) :
    ∃ entry, s.queueEntries q = some entry ∧ entry.delayedTasks.top? = some task := by
  simp only [peekNextTaskUnlocked, bind_eq_bind, bind_eq_some_iff] at h
  obtain ⟨entry, hentry, h⟩ := h
  split at h
  · obtain ⟨top, htop, h⟩ := bind_eq_some_iff.mp h
    obtain ⟨rfl, rfl⟩ : id = q ∧ top = task := by simpa using h
    exact ⟨entry, hentry, htop⟩
  · obtain ⟨subsumedEntry, hsub, h⟩ := bind_eq_some_iff.mp h
    -- the four cases of which of the two queues have a task
    split at h
    · split at h
      · obtain ⟨rfl, rfl⟩ := Prod.mk.inj (some.inj h)
        exact ⟨subsumedEntry, hsub, by assumption⟩
      · obtain ⟨rfl, rfl⟩ := Prod.mk.inj (some.inj h)
        exact ⟨entry, hentry, by assumption⟩
    · obtain ⟨rfl, rfl⟩ := Prod.mk.inj (some.inj h)
      exact ⟨entry, hentry, by assumption⟩
    · obtain ⟨rfl, rfl⟩ := Prod.mk.inj (some.inj h)
      exact ⟨subsumedEntry, hsub, by assumption⟩
    · cases h

/-- The task that is next is taken. -/
lemma taken_of_peek (hpeek : s.peekNextTaskUnlocked id = some (q, task))
    (hpop : s.popTask q = some t) : Taken s [(q, task)] t := by
  obtain ⟨entry, hentry, htop⟩ := peekNextTaskUnlocked_top hpeek
  obtain ⟨entry', hentry', rfl⟩ := popTask_cases hpop
  obtain rfl : entry = entry' := some.inj (hentry.symm.trans hentry')
  exact taken_pop hentry htop

/-- One round of the loop of `GetTasksToRunNow`. -/
theorem takeTasks_succ (h : takeTasks id type now (rounds + 1) s = some (tasks, t)) :
    (s.hasPendingTasksUnlocked id = some false ∧ tasks = [] ∧ t = s) ∨
    ∃ topQueue top, s.hasPendingTasksUnlocked id = some true ∧
      s.peekNextTaskUnlocked id = some (topQueue, top) ∧
      ((now < top.targetTime ∧ tasks = [] ∧ t = s) ∨
        ∃ s', top.targetTime ≤ now ∧ s.popTask topQueue = some s' ∧
          ((type = .kSingle ∧ tasks = [(topQueue, top)] ∧ t = s') ∨
            ∃ rest, type = .kAll ∧ takeTasks id type now rounds s' = some (rest, t) ∧
              tasks = (topQueue, top) :: rest)) := by
  simp only [takeTasks, bind_eq_bind, bind_eq_some_iff] at h
  obtain ⟨pending, hpending, h⟩ := h
  cases pending with
  | false =>
    left
    simpa [hpending, eq_comm] using h
  | true =>
    right
    simp only [Bool.true_eq_false, if_false, bind_eq_some_iff] at h
    obtain ⟨⟨topQueue, top⟩, hpeek, h⟩ := h
    refine ⟨topQueue, top, hpending, hpeek, ?_⟩
    simp only at h
    split at h
    · rename_i hlate
      exact .inl ⟨hlate, by simpa [eq_comm] using h⟩
    · rename_i hdue
      simp only [bind_eq_some_iff] at h
      obtain ⟨s', hpop, h⟩ := h
      refine .inr ⟨s', by omega, hpop, ?_⟩
      split at h
      · rename_i hsingle
        exact .inl ⟨hsingle, by simpa [eq_comm] using h⟩
      · rename_i hall
        simp only [bind_eq_some_iff] at h
        obtain ⟨⟨rest, t'⟩, hrest, h⟩ := h
        obtain ⟨rfl, rfl⟩ : (topQueue, top) :: rest = tasks ∧ t' = t := by simpa using h
        exact .inr ⟨rest, by cases type <;> simp_all, hrest, rfl⟩

/-- All tasks that a flush removes are taken. -/
lemma takeTasks_taken :
    ∀ {s t : MessageLoopTaskQueues α} {out : List (TaskQueueId × DelayedTask α)},
      takeTasks id type now rounds s = some (out, t) → Taken s out t := by
  induction rounds with
  | zero =>
    intro s t out h
    obtain ⟨rfl, rfl⟩ : [] = out ∧ s = t := by simpa [takeTasks] using h
    exact .refl s
  | succ rounds ih =>
    intro s t out h
    rcases takeTasks_succ h with ⟨_, rfl, rfl⟩ | ⟨topQueue, top, _, hpeek, ⟨_, rfl, rfl⟩ |
      ⟨s', _, hpop, ⟨_, rfl, rfl⟩ | ⟨rest, _, hrest, rfl⟩⟩⟩
    · exact .refl t
    · exact .refl t
    · exact taken_of_peek hpeek hpop
    · exact (taken_of_peek hpeek hpop).trans (ih hrest)

/-- `GetTasksToRunNow` takes tasks and then rearms. -/
theorem getTasksToRunNow_taken (h : s.getTasksToRunNow id type now = some (tasks, t)) :
    ∃ s', Taken s tasks s' ∧ SameQueues s' t := by
  simp only [getTasksToRunNow, bind_eq_bind, bind_eq_some_iff] at h
  obtain ⟨pending, hpending, h⟩ := h
  split at h
  · obtain ⟨rfl, rfl⟩ : [] = tasks ∧ s = t := by simpa using h
    exact ⟨s, .refl s, rfl⟩
  · simp only [bind_eq_some_iff] at h
    obtain ⟨⟨taken, s'⟩, htake, pending', _, h⟩ := h
    split at h
    · obtain ⟨t', hwake, h⟩ := bind_eq_some_iff.mp h
      obtain ⟨rfl, rfl⟩ : taken = tasks ∧ t' = t := by simpa using h
      exact ⟨s', takeTasks_taken htake, wakeUpUnlocked_sameQueues hwake⟩
    · obtain ⟨time, _, h⟩ := bind_eq_some_iff.mp h
      obtain ⟨t', hwake, h⟩ := bind_eq_some_iff.mp h
      obtain ⟨rfl, rfl⟩ : taken = tasks ∧ t' = t := by simpa using h
      exact ⟨s', takeTasks_taken htake, wakeUpUnlocked_sameQueues hwake⟩

/-! ## Merging and unmerging -/

/-- The entries after a successful `Merge`, before it wakes the owner. -/
def link (s : MessageLoopTaskQueues α) (owner subsumed : TaskQueueId)
    (ownerEntry subsumedEntry : TaskQueueEntry α) : MessageLoopTaskQueues α :=
  (s.setEntry owner { ownerEntry with ownerOf := subsumed }).setEntry subsumed
    { subsumedEntry with subsumedBy := owner }

/-- The entries after a successful `Unmerge`, before it wakes the two queues. -/
def unlink (s : MessageLoopTaskQueues α) (owner : TaskQueueId)
    (ownerEntry subsumedEntry : TaskQueueEntry α) : MessageLoopTaskQueues α :=
  (s.setEntry ownerEntry.ownerOf { subsumedEntry with subsumedBy := kUnmerged }).setEntry owner
    { ownerEntry with ownerOf := kUnmerged }

/-- Merging sets the links of both queues. -/
lemma links_link (ownerEntry subsumedEntry : TaskQueueEntry α) :
    (s.link owner subsumed ownerEntry subsumedEntry).links =
      update (update s.links owner (some (subsumed, ownerEntry.subsumedBy)))
        subsumed (some (subsumedEntry.ownerOf, owner)) := by
  rw [link, links_setEntry, links_setEntry]

/-- Unmerging resets the links of both queues. -/
lemma links_unlink (ownerEntry subsumedEntry : TaskQueueEntry α) :
    (s.unlink owner ownerEntry subsumedEntry).links =
      update
        (update s.links ownerEntry.ownerOf (some (subsumedEntry.ownerOf, kUnmerged)))
        owner (some (kUnmerged, ownerEntry.subsumedBy)) := by
  rw [unlink, links_setEntry, links_setEntry]

/-- `Merge` links two unmerged queues and wakes the owner, or it changes nothing and tells whether
the queues are merged already. -/
theorem merge_cases (h : s.merge owner subsumed = some (merged, t)) :
    (t = s ∧ (owner ≠ subsumed → ∃ ownerEntry, s.queueEntries owner = some ownerEntry ∧
      merged = decide (ownerEntry.ownerOf = subsumed))) ∨
    ∃ ownerEntry subsumedEntry, merged = true ∧ owner ≠ subsumed ∧
      s.queueEntries owner = some ownerEntry ∧ s.queueEntries subsumed = some subsumedEntry ∧
      (ownerEntry.ownerOf = kUnmerged ∧ ownerEntry.subsumedBy = kUnmerged) ∧
      (subsumedEntry.ownerOf = kUnmerged ∧ subsumedEntry.subsumedBy = kUnmerged) ∧
      (s.link owner subsumed ownerEntry subsumedEntry).wakeUpIfPending owner = some t := by
  rw [merge] at h
  split at h
  · left
    simp_all
  · rename_i hne
    simp only [bind_eq_bind, bind_eq_some_iff] at h
    obtain ⟨ownerEntry, howner, subsumedEntry, hsubsumed, h⟩ := h
    split at h
    · left
      simp_all
    · split at h
      · left
        simp_all
      · rename_i hkeys
        obtain ⟨t', hwake, h⟩ := bind_eq_some_iff.mp h
        obtain ⟨rfl, rfl⟩ : true = merged ∧ t' = t := by simpa using h
        right
        refine ⟨ownerEntry, subsumedEntry, rfl, hne, howner, hsubsumed, ?_, ?_, hwake⟩ <;>
          simp_all

/-- `Unmerge` unlinks the queue the owner owns, or it changes nothing. -/
theorem unmerge_cases (h : s.unmerge owner = some (unmerged, t)) :
    (unmerged = false ∧ t = s) ∨ ∃ ownerEntry subsumedEntry s', unmerged = true ∧
      s.queueEntries owner = some ownerEntry ∧ ownerEntry.ownerOf ≠ kUnmerged ∧
      s.queueEntries ownerEntry.ownerOf = some subsumedEntry ∧
      (s.unlink owner ownerEntry subsumedEntry).wakeUpIfPending owner = some s' ∧
      s'.wakeUpIfPending ownerEntry.ownerOf = some t := by
  simp only [unmerge, bind_eq_bind, bind_eq_some_iff] at h
  obtain ⟨ownerEntry, howner, h⟩ := h
  split at h
  · left
    simp_all
  · rename_i hne
    right
    simp only [bind_eq_some_iff] at h
    obtain ⟨subsumedEntry, hsubsumed, s', hwake, t', hwake', h⟩ := h
    obtain ⟨rfl, rfl⟩ : true = unmerged ∧ t' = t := by simpa using h
    exact ⟨ownerEntry, subsumedEntry, s', rfl, howner, hne, hsubsumed, hwake, hwake'⟩

/-- A `Merge` that returns `false` changes nothing. -/
theorem merge_false (h : s.merge owner subsumed = some (false, t)) : t = s := by
  rcases merge_cases h with ⟨rfl, -⟩ | ⟨_, _, hmerged, _⟩
  · rfl
  · cases hmerged

/-- An `Unmerge` that returns `false` changes nothing. -/
theorem unmerge_false (h : s.unmerge owner = some (false, t)) : t = s := by
  obtain ⟨-, rfl⟩ | ⟨_, _, _, hunmerged, _⟩ := unmerge_cases h
  · rfl
  · cases hunmerged

/-! ## What the calls leave alone -/

/-- `t` has the same tasks and wakeables as `s`. -/
structure SameTasks (s t : MessageLoopTaskQueues α) : Prop where
  tasks : t.tasks = s.tasks
  wakeableOf : t.wakeableOf = s.wakeableOf
  order : t.order = s.order

/-- Wake-ups leave tasks, loops and order alone. -/
lemma SameQueues.sameTasks (h : SameQueues s t) : SameTasks s t := ⟨h.tasks, h.wakeableOf, h.order⟩

/-- Two steps that leave the tasks alone. -/
lemma SameTasks.trans {u : MessageLoopTaskQueues α} (h : SameTasks s t) (h' : SameTasks t u) :
    SameTasks s u :=
  ⟨h'.tasks.trans h.tasks, h'.wakeableOf.trans h.wakeableOf, h'.order.trans h.order⟩

/-- Two entries are stored with other links. -/
theorem sameTasks_setEntry {s : MessageLoopTaskQueues α} {a b : TaskQueueId}
    {ea ea' eb eb' : TaskQueueEntry α} (ha : s.queueEntries a = some ea)
    (hb : s.queueEntries b = some eb) (ha' : ea' = { ea with
      ownerOf := ea'.ownerOf, subsumedBy := ea'.subsumedBy })
    (hb' : eb' = { eb with ownerOf := eb'.ownerOf, subsumedBy := eb'.subsumedBy }) :
    SameTasks s ((s.setEntry a ea').setEntry b eb') where
  tasks := by
    rw [tasks_setEntry, tasks_setEntry, ha', hb', ← tasks_eq ha, ← tasks_eq hb]
    simp only [update_eq_self]
  wakeableOf := by
    rw [wakeableOf_setEntry, wakeableOf_setEntry, ha', hb', ← wakeableOf_eq ha, ← wakeableOf_eq hb]
    simp only [update_eq_self]
  order := rfl

/-- Merging leaves the tasks alone. -/
lemma merge_sameTasks (h : s.merge owner subsumed = some (merged, t)) : SameTasks s t := by
  rcases merge_cases h with ⟨rfl, -⟩ |
    ⟨ownerEntry, subsumedEntry, -, -, howner, hsubsumed, -, -, hwake⟩
  · exact ⟨rfl, rfl, rfl⟩
  · exact (sameTasks_setEntry howner hsubsumed rfl rfl).trans
      (wakeUpIfPending_sameQueues hwake).sameTasks

/-- Unmerging leaves the tasks alone. -/
lemma unmerge_sameTasks (h : s.unmerge owner = some (unmerged, t)) : SameTasks s t := by
  rcases unmerge_cases h with ⟨-, rfl⟩ | ⟨ownerEntry, subsumedEntry, s', -, howner, -, hsubsumed,
    hwake, hwake'⟩
  · exact ⟨rfl, rfl, rfl⟩
  · exact ((sameTasks_setEntry hsubsumed howner rfl rfl).trans
      (wakeUpIfPending_sameQueues hwake).sameTasks).trans
      (wakeUpIfPending_sameQueues hwake').sameTasks

end Fml.MessageLoopTaskQueues
