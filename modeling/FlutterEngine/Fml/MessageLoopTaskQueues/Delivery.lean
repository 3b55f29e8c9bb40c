import FlutterEngine.Fml.MessageLoopTaskQueues.History

/-!
# Delivery of tasks

Over whole runs no task is lost, duplicated or handed out by the wrong queue, and a flush hands
out all due tasks in the order of target times and registrations.

* `Balanced`: for each queue, what was registered on it is what was taken off it and what is in it.
* `Numbered`: the order number of a task tells the position of its registration, for up to
  `2 ^ 32` registrations.
* `delivery_of_run`: what follows for tasks and for calls of `GetTasksToRunNow`.
-/

namespace Fml.TaskHistory

open Lib MessageLoopTaskQueues List

variable {α : Type}
variable {h : TaskHistory α} {t s : MessageLoopTaskQueues α} {id : TaskQueueId}

/-! ## Conservation -/

/-- What was registered on a queue is what was taken off it and what it still has. -/
def Balanced (h : TaskHistory α) : Prop :=
  ∀ q, (h.registered.filter (·.1 = q)).Perm (h.delivered.filter (·.1 = q) ++ h.queues.tagged q)

/-- The `n`-th registration drew the `n`-th number. -/
structure Numbered (h : TaskHistory α) : Prop where
  orders : h.registered.map (·.2.order) = (List.range h.registered.length).map registrationOrder
  next : h.queues.order = BitVec.ofNat 32 h.registered.length
  length_le : h.registered.length ≤ 2 ^ 32

variable {out : List (TaskQueueId × DelayedTask α)} {targetTime : ℤ}
  {p a b : TaskQueueId × DelayedTask α}

/-- The tasks of a queue are those taken and those left. -/
lemma tagged_eq_of_taken (h : Taken s out t) (q : TaskQueueId) :
    s.tagged q = out.filter (·.1 = q) ++ t.tagged q := by
  rw [tagged, h.tasks q, map_append, map_map, tagged]
  congr 1
  refine (map_congr_left fun p hp => ?_).trans (map_id _)
  obtain ⟨-, rfl⟩ : p ∈ out ∧ p.1 = q := by simpa using hp
  rfl

/-- A task that is registered is pending. -/
lemma Balanced.registerTask (hh : h.Balanced) {task : α}
    (hreg : h.queues.registerTask id task targetTime = some t) :
    Balanced { h with
      queues := t
      registered := h.registered ++ [(id, h.queues.newTask task targetTime)] } := by
  obtain ⟨entry, top, hentry, -, hwake⟩ := registerTask_cases hreg
  intro q
  have htasks : t.tasks q = Function.update h.queues.tasks id
      (entry.delayedTasks.push (h.queues.newTask task targetTime)).toList q := by
    rw [(wakeUpUnlocked_sameQueues hwake).tasks, tasks_enqueue]
  show ((h.registered ++ [(id, h.queues.newTask task targetTime)]).filter (·.1 = q)).Perm
    (h.delivered.filter (·.1 = q) ++ t.tagged q)
  rw [filter_append, tagged, htasks]
  by_cases hq : q = id
  · -- the new task goes to the end of the registrations and somewhere into the queue
    subst hq
    have hpush := (PriorityQueue.push_perm entry.delayedTasks
      (h.queues.newTask task targetTime)).map (Prod.mk q)
    rw [← tasks_eq hentry] at hpush
    rw [Function.update_self, filter_cons_of_pos (by simp), filter_nil]
    calc (h.registered.filter (·.1 = q) ++ [(q, h.queues.newTask task targetTime)]).Perm _ :=
          perm_append_singleton _ _
      _ |>.Perm _ := (hh q).cons _
      _ |>.Perm _ := perm_middle.symm
      _ |>.Perm _ := hpush.symm.append_left _
  · rw [Function.update_of_ne hq, filter_cons_of_neg (by simpa using Ne.symm hq),
      filter_nil, List.append_nil]
    exact hh q

/-- A task that is delivered is no longer pending. -/
lemma Balanced.getTasksToRunNow (hh : h.Balanced) {type : FlushType} {now : ℤ}
    (hget : h.queues.getTasksToRunNow id type now = some (out, t)) :
    Balanced { h with queues := t, delivered := h.delivered ++ out } := by
  obtain ⟨s', htaken, hsame⟩ := getTasksToRunNow_taken hget
  intro q
  have hq := hh q
  rw [tagged_eq_of_taken htaken q, tagged, ← hsame.tasks, ← append_assoc, ← filter_append] at hq
  exact hq

/-- A loop for a queue leaves the tasks alone. -/
lemma setWakeable_sameTasks {w : Wakeable} (h : s.setWakeable id w = some t) :
    t.tasks = s.tasks ∧ t.order = s.order := by
  obtain ⟨entry, hentry, -, rfl⟩ := setWakeable_cases h
  exact ⟨tasks_setEntry_eq hentry rfl, rfl⟩

/-! ## Runs -/

/-- The calls that keep all tasks: fewer than `2 ^ 32` queues are created, none is disposed of, and
at most `2 ^ 32` tasks are registered. -/
def KeepsTasks (h : TaskHistory α) : Op α → Prop
  | .createTaskQueue => h.queues.taskQueueIdCounter + 1 < 2 ^ 32
  | .dispose _ => False
  | .disposeTasks _ => False
  | .registerTask _ _ _ => h.registered.length < 2 ^ 32
  | .getTasksToRunNow _ _ _ => True
  | .setWakeable _ _ => True
  | .merge _ _ => True
  | .unmerge _ => True

instance (h : TaskHistory α) (op : Op α) : Decidable (h.KeepsTasks op) := by
  cases op <;> unfold KeepsTasks <;> infer_instance

lemma KeepsTasks.freshIds {op : Op α} (hop : h.KeepsTasks op) : h.queues.FreshIds op := by
  cases op <;> simp_all [KeepsTasks, FreshIds, created]

/-- What a history satisfies while tasks are kept. -/
structure Kept (h : TaskHistory α) : Prop where
  linked : h.queues.WellLinked
  balanced : h.Balanced
  numbered : h.Numbered

/-- At first there are no tasks. -/
lemma kept_init : Kept (init : TaskHistory α) where
  linked := wellLinked_init
  balanced _ := .nil
  numbered := ⟨rfl, rfl, by simp [init]⟩

/-- Tasks are numbered in the order of registration. -/
lemma Numbered.registerTask (hh : h.Numbered) (hlength : h.registered.length < 2 ^ 32) {task : α}
    (hreg : h.queues.registerTask id task targetTime = some t) :
    Numbered { h with
      queues := t
      registered := h.registered ++ [(id, h.queues.newTask task targetTime)] } := by
  obtain ⟨entry, top, -, -, hwake⟩ := registerTask_cases hreg
  refine ⟨?_, ?_, ?_⟩
  · simp [range_succ, hh.orders, newTask, hh.next, registrationOrder]
  · rw [(wakeUpUnlocked_sameQueues hwake).order]
    simp [enqueue, setTasks, hh.next, BitVec.ofNat_add]
  · simp
    omega

/-- Each call keeps the tasks. -/
lemma Kept.step {h' : TaskHistory α} {op : Op α} (hh : h.Kept) (hop : h.KeepsTasks op)
    (hstep : h.step op = some h') : h'.Kept := by
  have ht : h'.queues.WellLinked := hh.linked.step hop.freshIds (step_queues hstep)
  -- calls that move no task
  have hsameTasks (t : MessageLoopTaskQueues α) (early : List TaskQueueId) (hlinked : t.WellLinked)
      (htasks : t.tasks = h.queues.tasks) (horder : t.order = h.queues.order) :
      Kept { h with queues := t, early } := by
    refine ⟨hlinked, fun q => ?_, hh.numbered.orders, horder.trans hh.numbered.next,
      hh.numbered.length_le⟩
    have hq := hh.balanced q
    rw [tagged, ← htasks] at hq
    exact hq
  cases op with
  | createTaskQueue =>
    obtain rfl := Option.some.inj hstep
    have hsame := createTaskQueue_sameTasks hh.linked hop
    exact hsameTasks _ _ ht hsame.tasks hsame.order
  | dispose | disposeTasks => cases hop
  | registerTask id task targetTime =>
    obtain ⟨t, hreg, rfl⟩ := exists_of_bind hstep
    exact ⟨ht, hh.balanced.registerTask hreg, hh.numbered.registerTask hop hreg⟩
  | getTasksToRunNow id type now =>
    obtain ⟨⟨out, t⟩, hget, rfl⟩ := exists_of_bind hstep
    obtain ⟨s', htaken, hsame⟩ := getTasksToRunNow_taken hget
    exact ⟨ht, hh.balanced.getTasksToRunNow hget, hh.numbered.orders,
      (hsame.order.trans htaken.order).trans hh.numbered.next, hh.numbered.length_le⟩
  | setWakeable id w =>
    obtain ⟨t, hset, rfl⟩ := exists_of_bind hstep
    obtain ⟨htasks, horder⟩ := setWakeable_sameTasks hset
    exact hsameTasks _ _ ht htasks horder
  | merge owner subsumed =>
    obtain ⟨t, hcall, rfl⟩ := exists_of_bind hstep
    obtain ⟨⟨merged, t⟩, hmerge, rfl⟩ := Option.map_eq_some_iff.mp hcall
    exact hsameTasks _ _ ht (merge_sameTasks hmerge).tasks (merge_sameTasks hmerge).order
  | unmerge owner =>
    obtain ⟨t, hcall, rfl⟩ := exists_of_bind hstep
    obtain ⟨⟨unmerged, t⟩, hunmerge, rfl⟩ := Option.map_eq_some_iff.mp hcall
    exact hsameTasks _ _ ht (unmerge_sameTasks hunmerge).tasks (unmerge_sameTasks hunmerge).order

/-- In every run the tasks are kept. -/
lemma kept_of_run {ops : List (Op α)} (hrun : Run step KeepsTasks init ops h) : h.Kept :=
  hrun.invariant kept_init fun _ _ _ hh hop hstep => hh.step hop hstep

/-! ## What is delivered -/

/-- The number of a task. -/
lemma Numbered.order_eq (hh : h.Numbered) {i : ℕ} (hp : h.registered[i]? = some p) :
    i < 2 ^ 32 ∧ p.2.order = registrationOrder i := by
  have hi : i < h.registered.length := (List.getElem?_eq_some_iff.mp hp).1
  have horder := congrArg (·[i]?) hh.orders
  simp only [getElem?_map, hp, getElem?_range hi, Option.map_some, Option.some.injEq] at horder
  exact ⟨hi.trans_le hh.length_le, horder⟩

/-- Order numbers follow the registrations. -/
theorem Numbered.index_le (hh : h.Numbered) {i j : ℕ} (ha : h.registered[i]? = some a)
    (hb : h.registered[j]? = some b) (hle : a.2.order.toNat ≤ b.2.order.toNat) : i ≤ j := by
  obtain ⟨hi, ha⟩ := hh.order_eq ha
  obtain ⟨-, hb⟩ := hh.order_eq hb
  by_contra hlt
  have := registrationOrder_strictMono (not_le.mp hlt) hi
  rw [ha, hb] at hle
  omega

/-- No task is registered twice. -/
lemma Numbered.nodup (hh : h.Numbered) : h.registered.Nodup := by
  rw [nodup_iff_getElem?_ne_getElem?]
  intro i j hij hj heq
  have hp : h.registered[i]? = some h.registered[j] := by
    rw [heq]
    exact getElem?_eq_getElem hj
  have hq : h.registered[j]? = some h.registered[j] := getElem?_eq_getElem hj
  have := hh.index_le hq hp (le_refl _)
  omega

/-- Every registered task was delivered exactly once, or it is still in its queue. -/
structure ExactlyOnce (h : TaskHistory α) : Prop where
  delivered_xor_stored : ∀ p ∈ h.registered,
    p ∈ h.delivered ∧ p.2 ∉ h.queues.tasks p.1 ∨ p ∉ h.delivered ∧ p.2 ∈ h.queues.tasks p.1
  delivered_nodup : h.delivered.Nodup
  stored_nodup : ∀ q, (h.queues.tasks q).Nodup
  delivered_registered : ∀ p ∈ h.delivered, p ∈ h.registered
  stored_registered : ∀ q, ∀ task ∈ h.queues.tasks q, (q, task) ∈ h.registered

lemma mem_tagged : p ∈ s.tagged p.1 ↔ p.2 ∈ s.tasks p.1 := by
  rw [tagged, mem_map]
  constructor
  · rintro ⟨task, htask, heq⟩
    exact heq ▸ htask
  · exact fun htask => ⟨p.2, htask, rfl⟩

/-- A list is free of duplicates if its part for each queue is. -/
theorem nodup_of_filter {l : List (TaskQueueId × DelayedTask α)}
    (h : ∀ q, (l.filter (·.1 = q)).Nodup) : l.Nodup := by
  classical
  rw [nodup_iff_count_le_one]
  intro p
  have := nodup_iff_count_le_one.mp (h p.1) p
  rwa [count_filter (by simp)] at this

/-- Each task is pending or delivered, exactly once. -/
lemma Kept.exactlyOnce (hh : h.Kept) : h.ExactlyOnce := by
  have hnodup (q : TaskQueueId) : (h.delivered.filter (·.1 = q) ++ h.queues.tagged q).Nodup :=
    (hh.balanced q).nodup_iff.mp (hh.numbered.nodup.filter _)
  have hmem (p : TaskQueueId × DelayedTask α) :
      p ∈ h.registered ↔ p ∈ h.delivered ∨ p.2 ∈ h.queues.tasks p.1 := by
    have := (hh.balanced p.1).mem_iff (a := p)
    simpa [mem_tagged] using this
  refine ⟨?_, ?_, ?_, ?_, ?_⟩
  · intro p hp
    -- no task is both delivered and stored
    have hdisjoint : p ∈ h.delivered → p.2 ∉ h.queues.tasks p.1 := by
      intro hdelivered hstored
      refine (nodup_append.mp (hnodup p.1)).2.2 p ?_ p (mem_tagged.mpr hstored) rfl
      simpa using hdelivered
    rcases (hmem p).mp hp with hdelivered | hstored
    · exact .inl ⟨hdelivered, hdisjoint hdelivered⟩
    · exact .inr ⟨fun hdelivered => hdisjoint hdelivered hstored, hstored⟩
  · exact nodup_of_filter fun q => (nodup_append.mp (hnodup q)).1
  · intro q
    exact (nodup_append.mp (hnodup q)).2.1.of_map
  · exact fun p hp => (hmem p).mpr (.inl hp)
  · exact fun q task htask => (hmem (q, task)).mpr (.inr htask)

/-! ## What a call hands out -/

/-- `a` was registered before `b`. -/
def RegisteredBefore (h : TaskHistory α) (a b : TaskQueueId × DelayedTask α) : Prop :=
  ∃ i j : ℕ, i < j ∧ h.registered[i]? = some a ∧ h.registered[j]? = some b

/-- `a` comes before `b` by target time and registration. -/
def RunsBefore (h : TaskHistory α) (a b : TaskQueueId × DelayedTask α) : Prop :=
  a.2.targetTime < b.2.targetTime ∨ a.2.targetTime = b.2.targetTime ∧ h.RegisteredBefore a b

/-- What `GetTasksToRunNow` may hand out: only tasks of the queue itself while it is not subsumed
and of the queue it owns, and for `kAll` all of those that are due, in order. -/
structure HandsOut (h : TaskHistory α) (id : TaskQueueId) (type : FlushType) (now : ℤ)
    (out : List (TaskQueueId × DelayedTask α)) : Prop where
  runner : ∀ p ∈ out, h.queues.runner p.1 = id
  subsumed : ∀ owned owner, h.queues.links id = some (owned, owner) → owner ≠ kUnmerged → out = []
  all : type = .kAll → ∀ owned, h.queues.links id = some (owned, kUnmerged) →
    out.Perm ((h.queues.tagged id ++ h.queues.tagged owned).filter (·.2.targetTime ≤ now)) ∧
      out.Pairwise h.RunsBefore

/-- Among different registered tasks, the order of `operator>` is that of target times and
registrations. -/
theorem Numbered.runsBefore (hh : h.Numbered) (ha : a ∈ h.registered) (hb : b ∈ h.registered)
    (hne : a ≠ b) (hle : a.2.le b.2) : h.RunsBefore a b := by
  rcases DelayedTask.le_iff.mp hle with htime | ⟨htime, horder⟩
  · exact .inl htime
  · obtain ⟨i, hi⟩ := mem_iff_getElem?.mp ha
    obtain ⟨j, hj⟩ := mem_iff_getElem?.mp hb
    have hij : i ≠ j := by
      rintro rfl
      exact hne (Option.some.inj (hi.symm.trans hj))
    have := hh.index_le hi hj horder
    exact .inr ⟨htime, i, j, by omega, hi, hj⟩

/-- A flush of a live queue hands out what is due. -/
lemma Kept.handsOut (hh : h.Kept) (hlive : (h.queues.links id).isSome) (type : FlushType)
    (now : ℤ) :
    ∃ out t, h.queues.getTasksToRunNow id type now = some (out, t) ∧
      h.HandsOut id type now out := by
  obtain ⟨t, hget, -, -⟩ := getTasksToRunNow_eq hh.linked hlive type now
  refine ⟨_, t, hget, ?_, ?_, ?_⟩
  · intro p hp
    exact hh.linked.runner_of_mem_pending ((handedOut_sublist type now _).subset hp)
  · intro owned owner hlinks howner
    rw [pending_of_subsumed hlinks howner]
    rfl
  · rintro rfl owned hlinks
    -- the history after the call: what it handed out is registered and free of duplicates
    have hnext : h.step (.getTasksToRunNow id .kAll now) = some { h with
          queues := t
          delivered := h.delivered ++ handedOut .kAll now (h.queues.pending id) } := by
      simp [TaskHistory.step, hget]
    have honce := (Kept.step hh (show h.KeepsTasks (.getTasksToRunNow id .kAll now) from trivial)
      hnext).exactlyOnce
    have hnodup := (nodup_append.mp honce.delivered_nodup).2.1
    have hregistered (p : TaskQueueId × DelayedTask α)
        (hp : p ∈ handedOut .kAll now (h.queues.pending id)) : p ∈ h.registered :=
      honce.delivered_registered p (mem_append_right _ hp)
    have hsorted := (h.queues.pending_sorted id).sublist (handedOut_sublist .kAll now _)
    constructor
    · rw [handedOut_kAll (h.queues.pending_sorted id), pending_eq hlinks]
      exact (merge_perm_append _).filter _
    · refine (hsorted.and hnodup).imp_of_mem fun ha hb hab => ?_
      exact hh.numbered.runsBefore (hregistered _ ha) (hregistered _ hb) hab.2 hab.1

/-- Over whole runs every task is delivered exactly once or still in its queue, it is handed out
only by its queue while that is not subsumed or by the owner of its queue, and a call that hands
out all due tasks hands out exactly those, in order. -/
theorem delivery_of_run {ops : List (Op α)} {h : TaskHistory α}
    (hrun : Run step KeepsTasks init ops h) :
    h.ExactlyOnce ∧ ∀ id, (h.queues.links id).isSome → ∀ type now,
      ∃ out t, h.queues.getTasksToRunNow id type now = some (out, t) ∧ h.HandsOut id type now out :=
  ⟨(kept_of_run hrun).exactlyOnce, fun _ hlive type now =>
    (kept_of_run hrun).handsOut hlive type now⟩

/-- Two queues are merged and each is given a task. -/
def mergedRun : List (Op Unit) :=
  [.createTaskQueue, .createTaskQueue, .merge 0 1, .registerTask 0 () 2, .registerTask 1 () 3]

theorem delivery_of_run_mergedRun : ∃ h, Run step KeepsTasks init mergedRun h ∧
    h.registered.length = 2 ∧ h.ExactlyOnce ∧
    ∃ out t, h.queues.getTasksToRunNow 0 .kAll 5 = some (out, t) ∧ h.HandsOut 0 .kAll 5 out := by
  have hrun : Run step KeepsTasks init mergedRun _ := run_iff_exec.mpr rfl
  obtain ⟨honce, hcalls⟩ := delivery_of_run hrun
  exact ⟨_, hrun, rfl, honce, hcalls 0 rfl .kAll 5⟩

/-- A call on the subsumed queue hands out none of its due tasks, and the owner is handed its own
task while the queues are merged. -/
theorem mergedRun_delivery : ∃ h, Run step KeepsTasks init mergedRun h ∧
    h.queues.links 0 = some (1, kUnmerged) ∧ h.queues.links 1 = some (kUnmerged, 0) ∧
    (∃ task ∈ h.queues.tasks 1, task.targetTime ≤ 5) ∧
    (h.queues.getTasksToRunNow 1 .kAll 5).map Prod.fst = some [] ∧
    (h.queues.getTasksToRunNow 0 .kAll 5).map (·.1.map Prod.fst) = some [0, 1] :=
  ⟨_, run_iff_exec.mpr rfl, rfl, rfl, ⟨⟨1, (), 3⟩, mem_cons_self, by decide⟩, rfl, rfl⟩

end Fml.TaskHistory
