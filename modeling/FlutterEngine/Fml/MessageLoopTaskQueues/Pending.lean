import FlutterEngine.Fml.MessageLoopTaskQueues.MergeRelation

/-!
# The pending tasks of a queue

`pending s id` lists the tasks a queue can hand out, in the order it hands them out: its own
tasks merged with those of the queue it owns, and none for a subsumed queue. In a well linked
state the code computes with this list without building it:

* `hasPendingTasksUnlocked_eq`, `peekNextTaskUnlocked_eq`: whether it is empty, and its head.
* `popTask_pending`: popping the head leaves its tail.
* `takeTasks_eq`: the loop of `GetTasksToRunNow` splits off the due tasks.
-/

namespace Fml.MessageLoopTaskQueues

open Lib Function List PriorityQueue DelayedTask

variable {α : Type}
variable {s t : MessageLoopTaskQueues α} {id q owned owner : TaskQueueId}
  {p : TaskQueueId × DelayedTask α}

/-! ## Stored tasks -/

/-- The tasks stored in a queue, each with the queue. -/
def tagged (s : MessageLoopTaskQueues α) (id : TaskQueueId) :
    List (TaskQueueId × DelayedTask α) :=
  (s.tasks id).map (Prod.mk id)

/-- The tasks of a queue are in the order in which they run. -/
lemma tasks_sorted (s : MessageLoopTaskQueues α) (id : TaskQueueId) : (s.tasks id).Pairwise le := by
  unfold tasks
  split
  · exact .nil
  · rename_i entry _
    exact entry.delayedTasks.sorted

/-- A queue that is gone has no tasks. -/
lemma tasks_of_dead (h : s.links id = none) : s.tasks id = [] := by
  have hnone : s.queueEntries id = none := by simpa [links] using h
  simp [tasks, hnone]

/-- A new queue under a fresh id has no task and no wakeable. -/
theorem createTaskQueue_sameTasks (hs : s.WellLinked)
    (hcounter : s.taskQueueIdCounter + 1 < 2 ^ 32) : SameTasks s s.createTaskQueue.2 := by
  obtain ⟨-, -, hnone⟩ := hs.fresh hcounter
  have hentry : s.queueEntries s.nextId = none := by simpa [links] using hnone
  refine ⟨?_, ?_, rfl⟩
  · have htasks : s.createTaskQueue.2.tasks = Function.update s.tasks s.nextId [] :=
      tasks_setEntry _ _ _
    rw [htasks, ← tasks_of_dead hnone, update_eq_self]
  · have hwakeable : s.createTaskQueue.2.wakeableOf = Function.update s.wakeableOf s.nextId none :=
      wakeableOf_setEntry _ _ _
    have hold : s.wakeableOf s.nextId = none := by simp [wakeableOf, hentry]
    rw [hwakeable, ← hold, update_eq_self]

/-! ## Pending tasks -/

/-- The order of the tasks a queue hands out. -/
def runsBefore (a b : TaskQueueId × DelayedTask α) : Bool := !a.2.gt b.2

lemma runsBefore_iff {a b : TaskQueueId × DelayedTask α} : runsBefore a b = true ↔ a.2.le b.2 := by
  simp [runsBefore, le]

/-- The tasks a queue can hand out, in the order it does. -/
def pending (s : MessageLoopTaskQueues α) (id : TaskQueueId) :
    List (TaskQueueId × DelayedTask α) :=
  match s.links id with
  | none => []
  | some (owned, owner) =>
    if owner ≠ kUnmerged then [] else (s.tagged id).merge (s.tagged owned) runsBefore

/-- What the pending tasks depend on. -/
lemma pending_congr (hlinks : t.links id = s.links id) (htasks : t.tasks = s.tasks) :
    t.pending id = s.pending id := by
  unfold pending tagged
  rw [hlinks, htasks]

/-- Wake-ups leave the pending tasks alone. -/
lemma SameQueues.pending (h : SameQueues s t) (id : TaskQueueId) : t.pending id = s.pending id :=
  pending_congr (congrFun h.links id) h.tasks

/-- The pending tasks of an owner are those of both queues in order. -/
lemma pending_eq (h : s.links id = some (owned, kUnmerged)) :
    s.pending id = (s.tagged id).merge (s.tagged owned) runsBefore := by
  simp [pending, h]

/-- A subsumed queue has no pending tasks of its own. -/
lemma pending_of_subsumed (h : s.links id = some (owned, owner)) (howner : owner ≠ kUnmerged) :
    s.pending id = [] := by
  simp [pending, h, howner]

/-- Which tasks are pending. -/
lemma mem_pending (h : s.links id = some (owned, kUnmerged)) :
    p ∈ s.pending id ↔ (p.1 = id ∨ p.1 = owned) ∧ p.2 ∈ s.tasks p.1 := by
  rw [pending_eq h, mem_merge]
  obtain ⟨q, task⟩ := p
  simp only [tagged, mem_map, Prod.mk.injEq]
  constructor
  · rintro (⟨_, hmem, rfl, rfl⟩ | ⟨_, hmem, rfl, rfl⟩)
    · exact ⟨.inl rfl, hmem⟩
    · exact ⟨.inr rfl, hmem⟩
  · rintro ⟨rfl | rfl, hmem⟩
    · exact .inl ⟨task, hmem, rfl, rfl⟩
    · exact .inr ⟨task, hmem, rfl, rfl⟩

/-- Pending tasks are handed out in the order of their target times and registrations. -/
theorem pending_sorted (s : MessageLoopTaskQueues α) (id : TaskQueueId) :
    (s.pending id).Pairwise fun a b => a.2.le b.2 := by
  have htagged (q : TaskQueueId) : (s.tagged q).Pairwise fun a b => runsBefore a b = true := by
    rw [tagged, pairwise_map]
    exact (s.tasks_sorted q).imp fun h => runsBefore_iff.mpr h
  unfold pending
  split
  · exact .nil
  · split
    · exact .nil
    · refine (pairwise_merge ?_ ?_ _ _ (htagged id) (htagged _)).imp runsBefore_iff.mp
      · intro a b c hab hbc
        rw [runsBefore_iff] at *
        exact IsTrans.trans _ _ _ hab hbc
      · intro a b
        rw [Bool.or_eq_true, runsBefore_iff, runsBefore_iff]
        exact Std.Total.total a.2 b.2

/-! ## What the code computes -/

variable {entry : TaskQueueEntry α} {task : DelayedTask α}

/-- A live queue is subsumed, unmerged, or the owner of another live queue. -/
theorem WellLinked.entry_cases (hs : s.WellLinked) (hentry : s.queueEntries id = some entry) :
    entry.subsumedBy ≠ kUnmerged ∨
      entry.subsumedBy = kUnmerged ∧ entry.ownerOf = kUnmerged ∨
      entry.subsumedBy = kUnmerged ∧ entry.ownerOf ≠ kUnmerged ∧
        ∃ subsumedEntry, s.queueEntries entry.ownerOf = some subsumedEntry := by
  by_cases howner : entry.ownerOf = kUnmerged
  · by_cases hsubsumed : entry.subsumedBy = kUnmerged
    · exact .inr (.inl ⟨hsubsumed, howner⟩)
    · exact .inl hsubsumed
  · obtain ⟨hsubsumed, hlinks, -⟩ :=
      hs.matching.owned_links hs.unmerged_dead (links_eq_some hentry) howner
    obtain ⟨subsumedEntry, hsub, -⟩ := Option.map_eq_some_iff.mp hlinks
    exact .inr (.inr ⟨hsubsumed, howner, subsumedEntry, hsub⟩)

/-- A live queue that is not subsumed is not the queue it owns. -/
theorem WellLinked.ne_owned (hs : s.WellLinked) (hlinks : s.links id = some (owned, owner)) :
    id ≠ owned := by
  by_cases howned : owned = kUnmerged
  · rw [howned]
    exact Matching.ne_sentinel hs.unmerged_dead hlinks
  · exact (hs.matching.owned_links hs.unmerged_dead hlinks howned).2.2

/-- A queue with pending tasks is not subsumed. -/
theorem links_of_pending (h : s.pending id ≠ []) :
    ∃ owned, s.links id = some (owned, kUnmerged) := by
  unfold pending at h
  split at h
  · exact absurd rfl h
  · rename_i owned owner hlinks
    split at h
    · exact absurd rfl h
    · rename_i howner
      exact ⟨owned, not_not.mp howner ▸ hlinks⟩

lemma exists_entry (h : (s.links id).isSome) : ∃ entry, s.queueEntries id = some entry := by
  rw [links, Option.isSome_map] at h
  exact Option.isSome_iff_exists.mp h

/-- `HasPendingTasksUnlocked` says whether tasks are pending. -/
lemma hasPendingTasksUnlocked_eq (hs : s.WellLinked) (hlive : (s.links id).isSome) :
    s.hasPendingTasksUnlocked id = some !(s.pending id).isEmpty := by
  obtain ⟨entry, hentry⟩ := exists_entry hlive
  have hlinks := links_eq_some hentry
  rcases hs.entry_cases hentry with hsubsumed | ⟨hsubsumed, howner⟩ |
    ⟨hsubsumed, howner, subsumedEntry, hsub⟩
  · rw [pending_of_subsumed hlinks hsubsumed]
    simp [hasPendingTasksUnlocked, hentry, hsubsumed]
  · rw [hsubsumed, howner] at hlinks
    rw [pending_eq hlinks, tagged, tagged, tasks_of_dead hs.unmerged_dead, tasks_eq hentry]
    cases htasks : entry.delayedTasks.toList <;>
      simp [hasPendingTasksUnlocked, hentry, hsubsumed, howner, PriorityQueue.isEmpty, htasks]
  · rw [hsubsumed] at hlinks
    rw [pending_eq hlinks, tagged, tagged, tasks_eq hentry, tasks_eq hsub]
    cases htasks : entry.delayedTasks.toList with
    | nil =>
      simp [hasPendingTasksUnlocked, hentry, hsubsumed, howner, hsub, PriorityQueue.isEmpty, htasks]
    | cons a l =>
      have hne (r : List (TaskQueueId × DelayedTask α)) :
          (((a :: l).map (Prod.mk id)).merge r runsBefore).isEmpty = false := by
        rw [isEmpty_eq_false_iff_exists_mem]
        exact ⟨(id, a), mem_merge_left _ (by simp)⟩
      rw [hne]
      simp [hasPendingTasksUnlocked, hentry, hsubsumed, PriorityQueue.isEmpty, htasks]

/-- `PeekNextTaskUnlocked` returns the first pending task. -/
lemma peekNextTaskUnlocked_eq (hs : s.WellLinked) (hlinks : s.links id = some (owned, kUnmerged)) :
    s.peekNextTaskUnlocked id = (s.pending id).head? := by
  obtain ⟨entry, hentry, hentry'⟩ := Option.map_eq_some_iff.mp hlinks
  obtain ⟨rfl, hsubsumed⟩ := Prod.mk.inj hentry'
  rw [pending_eq hlinks, tagged, tagged, tasks_eq hentry]
  rcases hs.entry_cases hentry with hne | ⟨-, howner⟩ | ⟨-, howner, subsumedEntry, hsub⟩
  · exact absurd hsubsumed hne
  · rw [howner, tasks_of_dead hs.unmerged_dead]
    cases htasks : entry.delayedTasks.toList <;>
      simp [peekNextTaskUnlocked, hentry, howner, top?, htasks]
  · rw [tasks_eq hsub]
    -- the code compares the two tops, as the merge of the two lists does
    cases htasks : entry.delayedTasks.toList with
    | nil =>
      cases htasks' : subsumedEntry.delayedTasks.toList <;>
        simp [peekNextTaskUnlocked, hentry, howner, hsub, top?, htasks, htasks']
    | cons a l =>
      cases htasks' : subsumedEntry.delayedTasks.toList with
      | nil => simp [peekNextTaskUnlocked, hentry, howner, hsub, top?, htasks, htasks']
      | cons b r =>
        cases hgt : a.gt b <;>
          simp [peekNextTaskUnlocked, hentry, howner, hsub, top?, htasks, htasks', runsBefore, hgt]

/-! ## Taking tasks -/

/-- Taking tasks leaves the queues linked. -/
lemma WellLinked.of_taken (hs : s.WellLinked) {out : List (TaskQueueId × DelayedTask α)}
    (h : Taken s out t) : t.WellLinked where
  matching := h.links ▸ hs.matching
  unmerged_dead := h.links ▸ hs.unmerged_dead
  id_lt := h.counter ▸ h.links ▸ hs.id_lt

/-- The first task of a queue is popped. -/
lemma popTask_of_tagged {rest : List (TaskQueueId × DelayedTask α)}
    (h : s.tagged id = (q, task) :: rest) :
    ∃ t, s.popTask q = some t ∧ Taken s [(q, task)] t ∧
      t.tagged = Function.update s.tagged id rest := by
  obtain ⟨task, l, htasks, hhead, rfl⟩ := map_eq_cons_iff.mp h
  obtain ⟨rfl, rfl⟩ := Prod.mk.inj hhead
  unfold tasks at htasks
  split at htasks
  · cases htasks
  · rename_i entry hentry
    refine ⟨s.setTasks id entry entry.delayedTasks.pop, by simp [popTask, hentry, setTasks],
      taken_pop hentry (by simp [top?, htasks]), ?_⟩
    funext q
    rw [tagged, setTasks, tasks_setEntry, apply_update fun q => map (Prod.mk q)]
    simp only [pop, htasks, tail_cons]
    rfl

/-- Popping the head of the pending tasks leaves their tail. -/
theorem popTask_pending (hs : s.WellLinked) {rest : List (TaskQueueId × DelayedTask α)}
    (h : s.pending id = (q, task) :: rest) :
    ∃ t, s.popTask q = some t ∧ Taken s [(q, task)] t ∧ t.pending id = rest := by
  obtain ⟨owned, hlinks⟩ := links_of_pending (show s.pending id ≠ [] by simp [h])
  have hne := hs.ne_owned hlinks
  rw [pending_eq hlinks] at h
  rcases merge_eq_cons h with ⟨l, hl, rfl⟩ | ⟨l, hl, rfl⟩
  · -- the head is a task of the queue itself
    obtain ⟨t, hpop, htaken, htagged⟩ := popTask_of_tagged hl
    refine ⟨t, hpop, htaken, ?_⟩
    rw [pending_eq (htaken.links ▸ hlinks), htagged, update_self, update_of_ne hne.symm]
  · -- the head is a task of the queue it owns
    obtain ⟨t, hpop, htaken, htagged⟩ := popTask_of_tagged hl
    refine ⟨t, hpop, htaken, ?_⟩
    rw [pending_eq (htaken.links ▸ hlinks), htagged, update_self, update_of_ne hne]

/-- The tasks a flush hands out of a list of pending tasks. -/
def handedOut (type : FlushType) (now : ℤ) :
    List (TaskQueueId × DelayedTask α) → List (TaskQueueId × DelayedTask α)
  | [] => []
  | p :: rest =>
    if p.2.targetTime > now then []
    else
      match type with
      | .kSingle => [p]
      | .kAll => p :: handedOut type now rest

/-- What is handed out is a part of what is pending. -/
lemma handedOut_sublist (type : FlushType) (now : ℤ) (l : List (TaskQueueId × DelayedTask α)) :
    (handedOut type now l).Sublist l := by
  induction l with
  | nil => exact .slnil
  | cons p rest ih =>
    cases type with
    | kSingle =>
      rw [handedOut]
      split
      · exact nil_sublist _
      · simp
    | kAll =>
      rw [handedOut]
      split
      · exact nil_sublist _
      · exact ih.cons_cons p

/-- A flush of all tasks hands out the due ones. -/
theorem handedOut_kAll {now : ℤ} {l : List (TaskQueueId × DelayedTask α)}
    (h : l.Pairwise fun a b => a.2.le b.2) :
    handedOut .kAll now l = l.filter (·.2.targetTime ≤ now) := by
  induction l with
  | nil => rfl
  | cons p rest ih =>
    obtain ⟨hp, hrest⟩ := pairwise_cons.mp h
    rw [handedOut]
    split
    · rename_i hlate
      -- the tasks behind a late one are late too
      symm
      rw [filter_eq_nil_iff]
      intro q hq
      have : p.2.targetTime ≤ q.2.targetTime := by
        rcases mem_cons.mp hq with rfl | hq
        · exact le_refl _
        · exact targetTime_le_of_le (hp q hq)
      rw [decide_eq_true_eq]
      omega
    · rename_i hdue
      rw [filter_cons_of_pos (by simpa using hdue), ih hrest]

/-- The loop of `GetTasksToRunNow` hands out what it should and leaves the rest. -/
theorem takeTasks_eq (type : FlushType) (now : ℤ) {rounds : ℕ} :
    ∀ {s : MessageLoopTaskQueues α}, s.WellLinked → (s.links id).isSome →
      (s.pending id).length ≤ rounds →
      ∃ t, takeTasks id type now rounds s = some (handedOut type now (s.pending id), t) ∧
        t.pending id = (s.pending id).drop (handedOut type now (s.pending id)).length := by
  induction rounds with
  | zero =>
    intro s _ _ hrounds
    have hnil : s.pending id = [] := by simpa using hrounds
    exact ⟨s, by rw [hnil]; rfl, by rw [hnil]; rfl⟩
  | succ rounds ih =>
    intro s hs hlive hrounds
    cases hpending : s.pending id with
    | nil =>
      refine ⟨s, ?_, by simp [handedOut, hpending]⟩
      simp [takeTasks, hasPendingTasksUnlocked_eq hs hlive, hpending, handedOut]
    | cons p rest =>
      obtain ⟨q, task⟩ := p
      obtain ⟨owned, hlinks⟩ := links_of_pending (show s.pending id ≠ [] by simp [hpending])
      have hpeek := peekNextTaskUnlocked_eq hs hlinks
      by_cases hlate : task.targetTime > now
      · refine ⟨s, ?_, by simp [handedOut, hpending, hlate]⟩
        simp [takeTasks, hasPendingTasksUnlocked_eq hs hlive, hpeek, hpending, handedOut, hlate]
      · obtain ⟨s', hpop, htaken, hrest⟩ := popTask_pending hs hpending
        cases type with
        | kSingle =>
          refine ⟨s', ?_, by simp [handedOut, hlate, hrest]⟩
          simp [takeTasks, hasPendingTasksUnlocked_eq hs hlive, hpeek, hpending, handedOut, hlate,
            hpop]
        | kAll =>
          obtain ⟨t, htake, ht⟩ := ih (hs.of_taken htaken) (htaken.links ▸ hlive)
            (by rw [hrest]; simp [hpending] at hrounds; exact hrounds)
          rw [hrest] at htake ht
          refine ⟨t, ?_, by simp [handedOut, hlate, ht]⟩
          simp [takeTasks, hasPendingTasksUnlocked_eq hs hlive, hpeek, hpending, handedOut, hlate,
            hpop, htake]

/-- The number of rounds the loop is given is enough. -/
theorem length_pending_le (id : TaskQueueId) :
    (s.pending id).length ≤ s.numTasksWithSubsumed id := by
  have hnum (q : TaskQueueId) : s.numTasks q = (s.tasks q).length := by
    unfold numTasks tasks
    cases s.queueEntries q <;> rfl
  unfold pending
  split
  · simp
  · rename_i owned owner hlinks
    obtain ⟨entry, hentry, hentry'⟩ := Option.map_eq_some_iff.mp hlinks
    obtain ⟨rfl, -⟩ := Prod.mk.inj hentry'
    split
    · simp
    · simp [numTasksWithSubsumed, hentry, hnum, tagged]

/-! ## The queue that runs a task -/

/-- The queue that hands out the tasks of a queue: its owner while it is subsumed. -/
def runner (s : MessageLoopTaskQueues α) (id : TaskQueueId) : TaskQueueId :=
  match s.links id with
  | none => id
  | some (_, owner) => if owner ≠ kUnmerged then owner else id

/-- The queue that runs the tasks of another one. -/
lemma runner_eq (h : s.queueEntries id = some entry) : s.runner id = loopToWake id entry := by
  rw [runner, links_eq_some h, loopToWake]

/-- A queue that is not subsumed runs its own tasks and those of the queue it owns. -/
theorem WellLinked.runner_eq_self (hs : s.WellLinked)
    (hlinks : s.links id = some (owned, kUnmerged)) :
    s.runner id = id ∧ (owned ≠ kUnmerged → s.runner owned = id) := by
  refine ⟨by simp [runner, hlinks], fun howned => ?_⟩
  obtain ⟨-, hlinks', -⟩ := hs.matching.owned_links hs.unmerged_dead hlinks howned
  simp [runner, hlinks', Matching.ne_sentinel hs.unmerged_dead hlinks]

/-- Pending tasks are run by the queue they are pending for. -/
lemma WellLinked.runner_of_mem_pending (hs : s.WellLinked) (hp : p ∈ s.pending id) :
    s.runner p.1 = id := by
  obtain ⟨owned, hlinks⟩ := links_of_pending (ne_nil_of_mem hp)
  obtain ⟨hself, howned⟩ := hs.runner_eq_self hlinks
  obtain ⟨hp1 | hp1, hmem⟩ := (mem_pending hlinks).mp hp
  · rw [hp1, hself]
  · rw [hp1]
    refine howned ?_
    rintro rfl
    rw [hp1, tasks_of_dead hs.unmerged_dead] at hmem
    cases hmem

/-- The queue a queue is merged with, as its owner or as its subsumed queue. -/
def partner (s : MessageLoopTaskQueues α) (id : TaskQueueId) : TaskQueueId :=
  match s.links id with
  | none => kUnmerged
  | some (owned, owner) => if owner ≠ kUnmerged then owner else owned

/-- The queue that runs the tasks of `id` runs those of `id` and of its partner. -/
theorem WellLinked.eq_or_eq_partner (hs : s.WellLinked) (hlive : (s.links id).isSome)
    (hrunner : s.links (s.runner id) = some (owned, kUnmerged)) (hq : q = s.runner id ∨ q = owned) :
    q = id ∨ q = s.partner id := by
  obtain ⟨⟨owned', owner⟩, hlinks⟩ := Option.isSome_iff_exists.mp hlive
  by_cases howner : owner = kUnmerged
  · have hself : s.runner id = id := by simp [runner, hlinks, howner]
    have hpartner : s.partner id = owned' := by simp [partner, hlinks, howner]
    rw [hself, hlinks] at hrunner
    obtain ⟨rfl, -⟩ := Prod.mk.inj (Option.some.inj hrunner)
    rwa [hself, ← hpartner] at hq
  · have hself : s.runner id = owner := by simp [runner, hlinks, howner]
    have hpartner : s.partner id = owner := by simp [partner, hlinks, howner]
    obtain ⟨-, hlinks', -⟩ := hs.matching.owner_links hs.unmerged_dead hlinks howner
    rw [hself, hlinks'] at hrunner
    obtain ⟨rfl, -⟩ := Prod.mk.inj (Option.some.inj hrunner)
    rw [hself, ← hpartner] at hq
    exact hq.symm

/-- The pending tasks of a queue depend only on the tasks it runs. -/
theorem WellLinked.pending_frame (hs : s.WellLinked) (hlinks : t.links = s.links)
    (htasks : ∀ x, s.runner x ≠ id → t.tasks x = s.tasks x) (hq : q ≠ id) :
    t.pending q = s.pending q := by
  unfold pending
  rw [hlinks]
  cases hl : s.links q with
  | none => rfl
  | some l =>
    obtain ⟨owned, owner⟩ := l
    by_cases howner : owner = kUnmerged
    · rw [howner] at hl
      obtain ⟨hself, howned⟩ := hs.runner_eq_self hl
      have hq' : t.tasks q = s.tasks q := htasks q (by rw [hself]; exact hq)
      have howned' : t.tasks owned = s.tasks owned := by
        by_cases hk : owned = kUnmerged
        · rw [hk, tasks_of_dead hs.unmerged_dead, tasks_of_dead (hlinks ▸ hs.unmerged_dead)]
        · exact htasks owned (by rw [howned hk]; exact hq)
      simp only [howner, tagged, hq', howned']
    · simp [howner]

/-! ## Waking up -/

/-- The time a queue has to wake up at: the target time of its first pending task. -/
def nextWakeTime (s : MessageLoopTaskQueues α) (id : TaskQueueId) : ℤ :=
  match s.pending id with
  | [] => TimePoint.max
  | p :: _ => p.2.targetTime

/-- The next wake-up is for the first task. -/
lemma nextWakeTime_le (hp : p ∈ s.pending id) : s.nextWakeTime id ≤ p.2.targetTime := by
  have hsorted := s.pending_sorted id
  unfold nextWakeTime
  split
  · rename_i hnil
    simp [hnil] at hp
  · rename_i first rest hpending
    rw [hpending] at hp hsorted
    rcases mem_cons.mp hp with rfl | hp
    · exact le_refl _
    · exact targetTime_le_of_le ((pairwise_cons.mp hsorted).1 p hp)

/-- `GetNextWakeTimeUnlocked` returns the time of the first task. -/
lemma getNextWakeTimeUnlocked_eq (hs : s.WellLinked) (h : s.pending id ≠ []) :
    s.getNextWakeTimeUnlocked id = some (s.nextWakeTime id) := by
  obtain ⟨owned, hlinks⟩ := links_of_pending h
  rw [getNextWakeTimeUnlocked, peekNextTaskUnlocked_eq hs hlinks, nextWakeTime]
  cases hpending : s.pending id with
  | nil => exact absurd hpending h
  | cons p rest => rfl

/-- Waking up for what is pending. -/
lemma wakeUpIfPending_eq (hs : s.WellLinked) (hlive : (s.links id).isSome) : s.wakeUpIfPending id =
      if s.pending id = [] then some s else s.wakeUpUnlocked id (s.nextWakeTime id) := by
  rw [wakeUpIfPending, hasPendingTasksUnlocked_eq hs hlive]
  split
  · rename_i hnil
    simp [hnil]
  · rename_i hne
    simp [hne, getNextWakeTimeUnlocked_eq hs hne]

/-- A live queue can be woken up. -/
lemma exists_wakeUpUnlocked (hlive : (s.links id).isSome) (time : ℤ) :
    ∃ t, s.wakeUpUnlocked id time = some t := by
  obtain ⟨entry, hentry⟩ := exists_entry hlive
  exact ⟨_, wakeUpUnlocked_eq_some_iff.mpr ⟨entry, hentry, rfl⟩⟩

/-- `GetTasksToRunNow` hands out what it should, leaves the rest, and wakes the queue at the time
of what is left. -/
theorem getTasksToRunNow_eq (hs : s.WellLinked) (hlive : (s.links id).isSome) (type : FlushType)
    (now : ℤ) :
    ∃ t, s.getTasksToRunNow id type now = some (handedOut type now (s.pending id), t) ∧
      t.pending id = (s.pending id).drop (handedOut type now (s.pending id)).length ∧
      (s.pending id = [] ∧ t = s ∨ ∃ s', s.pending id ≠ [] ∧
        Taken s (handedOut type now (s.pending id)) s' ∧
        s'.wakeUpUnlocked id (s'.nextWakeTime id) = some t) := by
  by_cases hnil : s.pending id = []
  · refine ⟨s, ?_, by rw [hnil]; rfl, .inl ⟨hnil, rfl⟩⟩
    simp [getTasksToRunNow, hasPendingTasksUnlocked_eq hs hlive, hnil, handedOut]
  · obtain ⟨s', htake, hrest⟩ := takeTasks_eq type now hs hlive (length_pending_le id)
    have htaken := takeTasks_taken htake
    have hs' := hs.of_taken htaken
    have hlive' : (s'.links id).isSome := htaken.links ▸ hlive
    obtain ⟨t, hwake⟩ := exists_wakeUpUnlocked hlive' (s'.nextWakeTime id)
    refine ⟨t, ?_, ?_, .inr ⟨s', hnil, htaken, hwake⟩⟩
    · by_cases hnil' : s'.pending id = []
      · have hmax : s'.nextWakeTime id = TimePoint.max := by simp [nextWakeTime, hnil']
        simp [getTasksToRunNow, hasPendingTasksUnlocked_eq hs hlive, hnil, htake,
          hasPendingTasksUnlocked_eq hs' hlive', hnil', ← hmax, hwake]
      · simp [getTasksToRunNow, hasPendingTasksUnlocked_eq hs hlive, hnil, htake,
          hasPendingTasksUnlocked_eq hs' hlive', hnil', getNextWakeTimeUnlocked_eq hs' hnil', hwake]
    · rw [(wakeUpUnlocked_sameQueues hwake).pending, hrest]

end Fml.MessageLoopTaskQueues
