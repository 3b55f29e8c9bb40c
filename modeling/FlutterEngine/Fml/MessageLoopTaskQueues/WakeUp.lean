import FlutterEngine.Fml.MessageLoopTaskQueues.History

/-!
# Waking up in time

A queue is woken by a single timer, which every `WakeUp` call rearms. `InTime s q` says that the
timer of `q` is armed no later than the target time of its first pending task. `Merge`, `Unmerge`
and `GetTasksToRunNow` rearm with the earliest task of the owner and the subsumed queue.
`RegisterTask` rearms with the earliest task of the queue it registers on, so it can postpone the
wake-up of a merged pair (`registerRun_wakes_late`). Otherwise every queue that was given its
wakeable before its first task wakes up in time (`armed_le_of_run`).
-/

namespace Fml.MessageLoopTaskQueues

open Lib Function List Option PriorityQueue DelayedTask

variable {α : Type}
variable {s t : MessageLoopTaskQueues α} {id q owner : TaskQueueId} {time now : ℤ}
  {type : FlushType} {out : List (TaskQueueId × DelayedTask α)}

/-! ## Timers -/

/-- If a queue has a wakeable and pending tasks, it is armed in time for the first of them. -/
def InTime (s : MessageLoopTaskQueues α) (q : TaskQueueId) : Prop :=
  ∀ w, s.wakeableOf q = some w → s.pending q ≠ [] →
    ∃ time, s.armed w = some time ∧ time ≤ s.nextWakeTime q

/-- No wakeable is given to two queues. -/
def DistinctWakeables (s : MessageLoopTaskQueues α) : Prop :=
  ∀ a b w, s.wakeableOf a = some w → s.wakeableOf b = some w → a = b

/-- The next wake-up depends on the pending tasks only. -/
lemma nextWakeTime_congr (h : t.pending q = s.pending q) : t.nextWakeTime q = s.nextWakeTime q := by
  unfold nextWakeTime
  rw [h]

/-- The next wake-up is not before all pending tasks. -/
lemma le_nextWakeTime (hne : s.pending q ≠ []) (h : ∀ p ∈ s.pending q, time ≤ p.2.targetTime) :
    time ≤ s.nextWakeTime q := by
  unfold nextWakeTime
  split
  · rename_i hnil
    exact absurd hnil hne
  · rename_i p rest hpending
    exact h p (by simp [hpending])

/-- Without pending tasks there is nothing to wake up for. -/
lemma inTime_of_pending_nil (h : s.pending q = []) : s.InTime q := fun _ _ hne => absurd h hne

/-- What a queue depends on for being woken up in time. -/
lemma InTime.frame (h : s.InTime q) (hwakeable : t.wakeableOf q = s.wakeableOf q)
    (harmed : t.armed = s.armed) (hpending : t.pending q = s.pending q) : t.InTime q := by
  intro w hw hne
  rw [hwakeable] at hw
  rw [hpending] at hne
  rw [harmed, nextWakeTime_congr hpending]
  exact h w hw hne

/-- What a wake-up arms. -/
lemma armed_wakeUpUnlocked (h : s.wakeUpUnlocked id time = some t) :
    t.armed = match s.wakeableOf id with
      | none => s.armed
      | some w => update s.armed w (some time) := by
  obtain ⟨entry, hentry, rfl⟩ := wakeUpUnlocked_eq_some_iff.mp h
  cases hwake : entry.wakeable <;> simp [wakeableOf_eq hentry, hwake]

/-- The queue that is woken is woken in time. -/
theorem inTime_of_wakeUp (h : s.wakeUpUnlocked id time = some t)
    (htime : s.wakeableOf id ≠ none → s.pending id ≠ [] → time ≤ s.nextWakeTime id) :
    t.InTime id := by
  have hsame := wakeUpUnlocked_sameQueues h
  intro w hw hne
  rw [hsame.wakeableOf] at hw
  rw [hsame.pending] at hne
  refine ⟨time, ?_, ?_⟩
  · rw [armed_wakeUpUnlocked h, hw]
    simp
  · rw [nextWakeTime_congr (hsame.pending id)]
    exact htime (by simp [hw]) hne

/-- Waking one queue does not touch the timer of another. -/
theorem InTime.wakeUp_ne (hdistinct : s.DistinctWakeables) (hq : s.InTime q)
    (h : s.wakeUpUnlocked id time = some t) (hne : q ≠ id) : t.InTime q := by
  have hsame := wakeUpUnlocked_sameQueues h
  intro w hw hpending
  rw [hsame.wakeableOf] at hw
  rw [hsame.pending] at hpending
  rw [nextWakeTime_congr (hsame.pending q), armed_wakeUpUnlocked h]
  obtain ⟨time', harmed, hle⟩ := hq w hw hpending
  refine ⟨time', ?_, hle⟩
  cases hid : s.wakeableOf id with
  | none => exact harmed
  | some w' =>
    have hww : w ≠ w' := by
      rintro rfl
      exact hne (hdistinct q id w hw hid)
    exact (update_of_ne hww _ _).trans harmed

/-- No two queues have the same loop, as long as none gets another. -/
lemma DistinctWakeables.of_eq (h : s.DistinctWakeables)
    (hwakeable : t.wakeableOf = s.wakeableOf) : t.DistinctWakeables := by
  unfold DistinctWakeables
  rw [hwakeable]
  exact h

/-- A loop is armed for its first pending task. -/
lemma wakeUpIfPending_inTime (hs : s.WellLinked) (h : s.wakeUpIfPending id = some t)
    (hlive : (s.links id).isSome) :
    t.InTime id := by
  rw [wakeUpIfPending_eq hs hlive] at h
  split at h
  · rename_i hnil
    obtain rfl := some.inj h
    exact inTime_of_pending_nil hnil
  · exact inTime_of_wakeUp h fun _ _ => le_refl _

/-- Other loops are not touched. -/
lemma InTime.wakeUpIfPending_ne (hs : s.WellLinked) (hdistinct : s.DistinctWakeables)
    (hq : s.InTime q) (h : s.wakeUpIfPending id = some t) (hlive : (s.links id).isSome)
    (hne : q ≠ id) :
    t.InTime q := by
  rw [wakeUpIfPending_eq hs hlive] at h
  split at h
  · obtain rfl := some.inj h
    exact hq
  · exact hq.wakeUp_ne hdistinct h hne

/-! ## Calls -/

/-- `RegisterTask` is made in time: unless the queue it wakes has no wakeable, the queue it is
merged with has no task that is due before the new task and before all other tasks of the queue
the new task is registered on. -/
def ArmsInTime (s : MessageLoopTaskQueues α) (id : TaskQueueId) (targetTime : ℤ) : Prop :=
  s.wakeableOf (s.runner id) ≠ none → ∀ other ∈ s.tasks (s.partner id),
    targetTime ≤ other.targetTime ∨ ∃ task ∈ s.tasks id, task.targetTime ≤ other.targetTime

instance (s : MessageLoopTaskQueues α) (id : TaskQueueId) (targetTime : ℤ) :
    Decidable (s.ArmsInTime id targetTime) :=
  inferInstanceAs (Decidable (_ → _))

/-- A task that arms in time leaves all queues in time. -/
lemma registerTask_inTime (hs : s.WellLinked) (hdistinct : s.DistinctWakeables) {task : α}
    {targetTime : ℤ} (harms : s.ArmsInTime id targetTime)
    (h : s.registerTask id task targetTime = some t) (hq : s.InTime q) : t.InTime q := by
  obtain ⟨entry, top, hentry, htop, hwake⟩ := registerTask_cases h
  rw [← runner_eq hentry] at hwake
  by_cases hrunner : q = s.runner id
  · -- the queue that is woken: the new wake-up time is the earliest of one of its two queues
    subst hrunner
    refine inTime_of_wakeUp hwake fun hw hne => le_nextWakeTime hne fun p hp => ?_
    rw [wakeableOf_enqueue hentry] at hw
    obtain ⟨owned, hrunner⟩ := links_of_pending hne
    obtain ⟨hp1, hmem⟩ := (mem_pending hrunner).mp hp
    rw [links_enqueue hentry] at hrunner
    rw [tasks_enqueue] at hmem
    by_cases hid : p.1 = id
    · rw [hid, update_self] at hmem
      exact targetTime_le_of_le (top?_le htop hmem)
    · rw [update_of_ne hid] at hmem
      have hpartner := hs.eq_or_eq_partner (by simp [links, hentry]) hrunner hp1
      rw [hpartner.resolve_left hid] at hmem
      rcases harms hw p.2 hmem with hle | ⟨task', htask', hle⟩
      · have hnew := top?_le htop (mem_push.mpr (.inl rfl))
        exact (targetTime_le_of_le hnew).trans hle
      · rw [tasks_eq hentry] at htask'
        have hold := top?_le htop (mem_push.mpr (.inr htask'))
        exact (targetTime_le_of_le hold).trans hle
  · have hpending : (s.enqueue id entry (s.newTask task targetTime)).pending q = s.pending q := by
      refine hs.pending_frame (links_enqueue hentry _) (fun x hx => ?_) hrunner
      have hne : x ≠ id := by
        rintro rfl
        exact hx rfl
      rw [tasks_enqueue, update_of_ne hne]
    have hq' := hq.frame (congrFun (wakeableOf_enqueue hentry _) q) rfl hpending
    exact hq'.wakeUp_ne (hdistinct.of_eq (wakeableOf_enqueue hentry _)) hwake hrunner

/-- Only live queues are flushed. -/
lemma live_of_getTasksToRunNow (h : s.getTasksToRunNow id type now = some (out, t)) :
    (s.links id).isSome := by
  simp only [getTasksToRunNow, hasPendingTasksUnlocked, bind_eq_bind, bind_eq_some_iff] at h
  obtain ⟨_, ⟨entry, hentry, -⟩, -⟩ := h
  simp [links, hentry]

/-- A flush leaves all queues in time. -/
lemma getTasksToRunNow_inTime (hs : s.WellLinked) (hdistinct : s.DistinctWakeables)
    (h : s.getTasksToRunNow id type now = some (out, t)) (hq : s.InTime q) :
    t.InTime q := by
  obtain ⟨t', heq, -, hcases⟩ := getTasksToRunNow_eq hs (live_of_getTasksToRunNow h) type now
  obtain ⟨hout, rfl⟩ := Prod.mk.inj (some.inj (heq.symm.trans h))
  rcases hcases with ⟨-, rfl⟩ | ⟨s', -, htaken, hwake⟩
  · exact hq
  · by_cases hid : q = id
    · subst hid
      exact inTime_of_wakeUp hwake fun _ _ => le_refl _
    · -- only tasks that `id` runs were taken
      have htasks (x : TaskQueueId) (hx : s.runner x ≠ id) : s'.tasks x = s.tasks x := by
        have hnone : (handedOut type now (s.pending id)).filter (·.1 = x) = [] := by
          rw [filter_eq_nil_iff]
          intro p hp hpx
          obtain rfl : p.1 = x := by simpa using hpx
          exact hx (hs.runner_of_mem_pending ((handedOut_sublist type now _).subset hp))
        rw [htaken.tasks x, hnone]
        rfl
      have hpending := hs.pending_frame htaken.links htasks hid
      have hq' := hq.frame (congrFun htaken.wakeableOf q) htaken.armed hpending
      exact hq'.wakeUp_ne (hdistinct.of_eq htaken.wakeableOf) hwake hid

/-- Relinking other queues does not matter. -/
theorem InTime.relink (hq : s.InTime q) (hsame : SameTasks s t) (harmed : t.armed = s.armed)
    (hlinks : t.links q = s.links q) :
    t.InTime q :=
  hq.frame (congrFun hsame.wakeableOf q) harmed (pending_congr hlinks hsame.tasks)

/-- Merging leaves all queues in time. -/
lemma merge_inTime (ht : t.WellLinked) (hdistinct : s.DistinctWakeables)
    {subsumed : TaskQueueId} {merged : Bool} (h : s.merge owner subsumed = some (merged, t))
    (hq : s.InTime q) :
    t.InTime q := by
  rcases merge_cases h with ⟨rfl, -⟩ |
    ⟨ownerEntry, subsumedEntry, -, hne, howner, hsubsumed, -, -, hwake⟩
  · exact hq
  · have hlinks := @links_link _ owner subsumed s ownerEntry subsumedEntry
    have hsame : SameTasks s (s.link owner subsumed ownerEntry subsumedEntry) :=
      sameTasks_setEntry howner hsubsumed rfl rfl
    have hs' := WellLinked.of_sameQueues (wakeUpIfPending_sameQueues hwake) ht
    have hown : (s.link owner subsumed ownerEntry subsumedEntry).links owner =
        some (subsumed, ownerEntry.subsumedBy) := by
      rw [hlinks, update_of_ne hne, update_self]
    by_cases hqo : q = owner
    · rw [hqo]
      exact wakeUpIfPending_inTime hs' hwake (by simp [hown])
    · refine InTime.wakeUpIfPending_ne hs' (hdistinct.of_eq hsame.wakeableOf) ?_ hwake
        (by simp [hown]) hqo
      by_cases hqs : q = subsumed
      · -- a subsumed queue has no pending task
        have hsub : (s.link owner subsumed ownerEntry subsumedEntry).links q =
            some (subsumedEntry.ownerOf, owner) := by
          rw [hqs, hlinks, update_self]
        exact inTime_of_pending_nil (pending_of_subsumed hsub
          (Matching.ne_sentinel hs'.unmerged_dead hown))
      · refine hq.relink hsame rfl ?_
        rw [hlinks, update_of_ne hqs, update_of_ne hqo]

/-- Unmerging leaves all queues in time. -/
lemma unmerge_inTime (hs : s.WellLinked) (ht : t.WellLinked) (hdistinct : s.DistinctWakeables)
    {unmerged : Bool} (h : s.unmerge owner = some (unmerged, t)) (hq : s.InTime q) :
    t.InTime q := by
  rcases unmerge_cases h with ⟨-, rfl⟩ | ⟨ownerEntry, subsumedEntry, s', -, howner, -, hsubsumed,
    hwake, hwake'⟩
  · exact hq
  · have hlinks := @links_unlink _ owner s ownerEntry subsumedEntry
    have hsame : SameTasks s (s.unlink owner ownerEntry subsumedEntry) :=
      sameTasks_setEntry hsubsumed howner rfl rfl
    have hne : owner ≠ ownerEntry.ownerOf := hs.ne_owned (links_eq_some howner)
    have hs' := WellLinked.of_sameQueues (wakeUpIfPending_sameQueues hwake') ht
    have hs'' := WellLinked.of_sameQueues (wakeUpIfPending_sameQueues hwake) hs'
    have hown : ((s.unlink owner ownerEntry subsumedEntry).links owner).isSome := by
      rw [hlinks, update_self, isSome_some]
    have hsub : (s'.links ownerEntry.ownerOf).isSome := by
      rw [(wakeUpIfPending_sameQueues hwake).links, hlinks, update_of_ne hne.symm,
        update_self, isSome_some]
    have hdistinct' := hdistinct.of_eq hsame.wakeableOf
    have hdistinct'' := hdistinct'.of_eq (wakeUpIfPending_sameQueues hwake).wakeableOf
    by_cases hqs : q = ownerEntry.ownerOf
    · rw [hqs]
      exact wakeUpIfPending_inTime hs' hwake' hsub
    · refine InTime.wakeUpIfPending_ne hs' hdistinct'' ?_ hwake' hsub hqs
      by_cases hqo : q = owner
      · rw [hqo]
        exact wakeUpIfPending_inTime hs'' hwake hown
      · refine InTime.wakeUpIfPending_ne hs'' hdistinct' (hq.relink hsame rfl ?_) hwake hown hqo
        rw [hlinks, update_of_ne hqo, update_of_ne hqs]

/-- A new queue leaves the others in time. -/
lemma createTaskQueue_inTime (hs : s.WellLinked) (hcounter : s.taskQueueIdCounter + 1 < 2 ^ 32)
    (hq : s.InTime q) :
    s.createTaskQueue.2.InTime q := by
  have hsame := createTaskQueue_sameTasks hs hcounter
  have hlinks : s.createTaskQueue.2.links =
      update s.links s.nextId (some (kUnmerged, kUnmerged)) := links_setEntry _ _ _
  by_cases hqn : q = s.nextId
  · -- the new queue has no task
    obtain ⟨-, -, hnone⟩ := hs.fresh hcounter
    have hnew : s.createTaskQueue.2.links q = some (kUnmerged, kUnmerged) := by
      rw [hlinks, hqn, update_self]
    refine inTime_of_pending_nil ?_
    rw [pending_eq hnew, tagged, tagged, hsame.tasks, hqn, tasks_of_dead hnone,
      tasks_of_dead hs.unmerged_dead]
    simp
  · refine hq.relink hsame rfl ?_
    rw [hlinks, update_of_ne hqn]

/-- A loop for a queue leaves the others in time. -/
lemma setWakeable_inTime {w : Wakeable} (h : s.setWakeable id w = some t) (hne : q ≠ id)
    (hq : s.InTime q) :
    t.InTime q := by
  obtain ⟨entry, hentry, -, rfl⟩ := setWakeable_cases h
  have htasks : (s.setEntry id { entry with wakeable := some w }).tasks = s.tasks :=
    tasks_setEntry_eq hentry rfl
  have hlinks : (s.setEntry id { entry with wakeable := some w }).links = s.links :=
    links_setEntry_eq hentry rfl rfl
  refine hq.frame ?_ rfl (pending_congr (congrFun hlinks q) htasks)
  rw [wakeableOf_setEntry, update_of_ne hne]

end Fml.MessageLoopTaskQueues

/-! ## Runs -/

namespace Fml.TaskHistory

open Lib MessageLoopTaskQueues Function List Option

variable {α : Type} {h : TaskHistory α} {t : MessageLoopTaskQueues α} {id : TaskQueueId}
  {type : FlushType} {now : ℤ} {out : List (TaskQueueId × DelayedTask α)}

/-- The calls that keep every queue in time. Fewer than `2 ^ 32` queues are created, none is
disposed of, tasks are registered in time, and a queue is given a wakeable of its own, and not
while it has to run tasks of another queue. -/
def Timely (h : TaskHistory α) : Op α → Prop
  | .createTaskQueue => h.queues.taskQueueIdCounter + 1 < 2 ^ 32
  | .dispose _ => False
  | .disposeTasks _ => False
  | .registerTask id _ targetTime => h.queues.ArmsInTime id targetTime
  | .setWakeable id wakeable =>
    (∀ q, h.queues.wakeableOf q ≠ some wakeable) ∧
      (h.queues.runner id = id → h.queues.tasks (h.queues.partner id) = [])
  | .getTasksToRunNow _ _ _ => True
  | .merge _ _ => True
  | .unmerge _ => True

lemma Timely.freshIds {op : Op α} (hop : h.Timely op) : h.queues.FreshIds op := by
  cases op <;> simp_all [Timely, FreshIds, created]

/-- Every queue that was given its wakeable before its first task is in time. -/
structure WakesInTime (h : TaskHistory α) : Prop where
  linked : h.queues.WellLinked
  distinct : h.queues.DistinctWakeables
  registered : ∀ q task, task ∈ h.queues.tasks q → ∃ p ∈ h.registered, p.1 = q
  early_wakeable : ∀ q ∈ h.early, h.queues.wakeableOf q ≠ none
  inTime : ∀ q ∈ h.early, h.queues.InTime q

/-- At first there is nothing to wake up for. -/
lemma wakesInTime_init : WakesInTime (init : TaskHistory α) where
  linked := wellLinked_init
  distinct := nofun
  registered := nofun
  early_wakeable := nofun
  inTime := nofun

section

variable (hh : h.WakesInTime) (ht : t.WellLinked)
include hh ht

/-- A call that moves no task and sets no wakeable only has to keep the queues in time. -/
theorem WakesInTime.of_sameTasks (hsame : SameTasks h.queues t)
    (hin : ∀ q, h.queues.InTime q → t.InTime q) :
    WakesInTime { h with queues := t } where
  linked := ht
  distinct := hh.distinct.of_eq hsame.wakeableOf
  registered q task htask := by
    rw [hsame.tasks] at htask
    exact hh.registered q task htask
  early_wakeable q hq := by
    rw [hsame.wakeableOf]
    exact hh.early_wakeable q hq
  inTime q hq := hin q (hh.inTime q hq)

/-- Registering a task keeps wake-ups in time. -/
lemma WakesInTime.registerTask {task : α} {targetTime : ℤ}
    (harms : h.queues.ArmsInTime id targetTime)
    (hreg : h.queues.registerTask id task targetTime = some t) :
    WakesInTime { h with
      queues := t
      registered := h.registered ++ [(id, h.queues.newTask task targetTime)] } := by
  obtain ⟨entry, top, hentry, -, hwake⟩ := registerTask_cases hreg
  have hsame := wakeUpUnlocked_sameQueues hwake
  have hwakeable : t.wakeableOf = h.queues.wakeableOf := by
    rw [hsame.wakeableOf, wakeableOf_enqueue hentry]
  refine ⟨ht, hh.distinct.of_eq hwakeable, ?_, ?_, ?_⟩
  · intro q task' htask'
    rw [hsame.tasks, tasks_enqueue] at htask'
    by_cases hq : q = id
    · exact ⟨(id, h.queues.newTask task targetTime), by simp, hq.symm⟩
    · rw [update_of_ne hq] at htask'
      obtain ⟨p, hp, hpq⟩ := hh.registered q task' htask'
      exact ⟨p, mem_append_left _ hp, hpq⟩
  · intro q hq
    rw [hwakeable]
    exact hh.early_wakeable q hq
  · intro q hq
    exact registerTask_inTime hh.linked hh.distinct harms hreg (hh.inTime q hq)

/-- A flush keeps wake-ups in time. -/
lemma WakesInTime.getTasksToRunNow (hget : h.queues.getTasksToRunNow id type now = some (out, t)) :
    WakesInTime { h with queues := t, delivered := h.delivered ++ out } := by
  obtain ⟨s', htaken, hsame⟩ := getTasksToRunNow_taken hget
  have hwakeable : t.wakeableOf = h.queues.wakeableOf := by rw [hsame.wakeableOf, htaken.wakeableOf]
  refine ⟨ht, hh.distinct.of_eq hwakeable, ?_, ?_, ?_⟩
  · intro q task htask
    rw [hsame.tasks] at htask
    refine hh.registered q task ?_
    rw [htaken.tasks q]
    exact mem_append_right _ htask
  · intro q hq
    rw [hwakeable]
    exact hh.early_wakeable q hq
  · intro q hq
    exact getTasksToRunNow_inTime hh.linked hh.distinct hget (hh.inTime q hq)

/-- A loop for a queue keeps wake-ups in time. -/
lemma WakesInTime.setWakeable {w : Wakeable} (hfree : ∀ q, h.queues.wakeableOf q ≠ some w)
    (hown : h.queues.runner id = id → h.queues.tasks (h.queues.partner id) = [])
    (hset : h.queues.setWakeable id w = some t) :
    WakesInTime { h with
      queues := t
      early := if h.registered.any (·.1 = id) then h.early else id :: h.early } := by
  obtain ⟨entry, hentry, hnone, rfl⟩ := setWakeable_cases hset
  have htasks : (h.queues.setEntry id { entry with wakeable := some w }).tasks = h.queues.tasks :=
    tasks_setEntry_eq hentry rfl
  have hlinks : (h.queues.setEntry id { entry with wakeable := some w }).links = h.queues.links :=
    links_setEntry_eq hentry rfl rfl
  have hwakeable : (h.queues.setEntry id { entry with wakeable := some w }).wakeableOf =
      update h.queues.wakeableOf id (some w) := wakeableOf_setEntry _ _ _
  -- a queue in the new list is an old one, or `id` and no task was registered on it
  have hearly (q : TaskQueueId)
      (hq : q ∈ if h.registered.any (·.1 = id) then h.early else id :: h.early) :
      q ∈ h.early ∧ q ≠ id ∨ q = id ∧ h.queues.tasks id = [] := by
    have hold (hqe : q ∈ h.early) : q ≠ id := by
      rintro rfl
      exact hh.early_wakeable q hqe (by rw [wakeableOf_eq hentry, hnone])
    split at hq
    · exact .inl ⟨hq, hold hq⟩
    · rename_i hany
      rcases mem_cons.mp hq with rfl | hq
      · refine .inr ⟨rfl, eq_nil_iff_forall_not_mem.mpr fun task htask => ?_⟩
        obtain ⟨p, hp, hpq⟩ := hh.registered q task htask
        exact hany (any_eq_true.mpr ⟨p, hp, by simpa using hpq⟩)
      · exact .inl ⟨hq, hold hq⟩
  refine ⟨ht, ?_, ?_, ?_, ?_⟩
  · intro a b w' ha hb
    rw [hwakeable] at ha hb
    have hw := hh.distinct a b w'
    have hfa := hfree a
    have hfb := hfree b
    grind
  · intro q task htask
    rw [htasks] at htask
    exact hh.registered q task htask
  · intro q hq
    rw [hwakeable]
    rcases hearly q hq with ⟨hq, hne⟩ | ⟨rfl, -⟩
    · rw [update_of_ne hne]
      exact hh.early_wakeable q hq
    · simp
  · intro q hq
    rcases hearly q hq with ⟨hq, hne⟩ | ⟨rfl, hnil⟩
    · exact setWakeable_inTime hset hne (hh.inTime q hq)
    · refine inTime_of_pending_nil ?_
      rw [pending_congr (congrFun hlinks q) htasks, eq_nil_iff_forall_not_mem]
      intro p hp
      obtain ⟨owned, hl⟩ := links_of_pending (ne_nil_of_mem hp)
      have hrunner := (hh.linked.runner_eq_self hl).1
      obtain ⟨hp1, hmem⟩ := (mem_pending hl).mp hp
      rw [← hrunner] at hl hp1
      rcases hh.linked.eq_or_eq_partner (by simp [links, hentry]) hl hp1 with hp1 | hp1 <;>
        rw [hp1] at hmem
      · simp [hnil] at hmem
      · simp [hown hrunner] at hmem

end

/-- Each call keeps wake-ups in time. -/
lemma WakesInTime.step {h h' : TaskHistory α} {op : Op α} (hh : h.WakesInTime)
    (hop : h.Timely op) (hstep : h.step op = some h') : h'.WakesInTime := by
  have ht : h'.queues.WellLinked := hh.linked.step hop.freshIds (step_queues hstep)
  cases op with
  | createTaskQueue =>
    obtain rfl := some.inj hstep
    exact hh.of_sameTasks ht (createTaskQueue_sameTasks hh.linked hop)
      fun q => createTaskQueue_inTime hh.linked hop
  | dispose | disposeTasks => cases hop
  | registerTask id task targetTime =>
    obtain ⟨t, hreg, rfl⟩ := exists_of_bind hstep
    exact hh.registerTask ht hop hreg
  | getTasksToRunNow id type now =>
    obtain ⟨⟨out, t⟩, hget, rfl⟩ := exists_of_bind hstep
    exact hh.getTasksToRunNow ht hget
  | setWakeable id w =>
    obtain ⟨t, hset, rfl⟩ := exists_of_bind hstep
    exact hh.setWakeable ht hop.1 hop.2 hset
  | merge owner subsumed =>
    obtain ⟨t, hcall, rfl⟩ := exists_of_bind hstep
    obtain ⟨⟨merged, t⟩, hmerge, rfl⟩ := map_eq_some_iff.mp hcall
    exact hh.of_sameTasks ht (merge_sameTasks hmerge) fun q => merge_inTime ht hh.distinct hmerge
  | unmerge owner =>
    obtain ⟨t, hcall, rfl⟩ := exists_of_bind hstep
    obtain ⟨⟨unmerged, t⟩, hunmerge, rfl⟩ := map_eq_some_iff.mp hcall
    exact hh.of_sameTasks ht (unmerge_sameTasks hunmerge)
      fun q => unmerge_inTime hh.linked ht hh.distinct hunmerge

/-- After timely calls, a queue that was given its wakeable before its first task and is not
subsumed is armed no later than the target time of each of its tasks and of each task of the
queue it owns. -/
theorem armed_le_of_run {ops : List (Op α)} {h : TaskHistory α}
    (hrun : Run step Timely init ops h) {q owned : TaskQueueId} {w : Wakeable}
    (hearly : q ∈ h.early) (hlinks : h.queues.links q = some (owned, kUnmerged))
    (hw : h.queues.wakeableOf q = some w) {task : DelayedTask α}
    (htask : task ∈ h.queues.tasks q ∨ task ∈ h.queues.tasks owned) :
    ∃ time, h.queues.armed w = some time ∧ time ≤ task.targetTime := by
  obtain ⟨q', hpending⟩ : ∃ q', (q', task) ∈ h.queues.pending q := by
    rcases htask with htask | htask
    · exact ⟨q, (mem_pending hlinks).mpr ⟨.inl rfl, htask⟩⟩
    · exact ⟨owned, (mem_pending hlinks).mpr ⟨.inr rfl, htask⟩⟩
  have hinTime : h.WakesInTime :=
    hrun.invariant wakesInTime_init fun _ _ _ hh hop hstep => hh.step hop hstep
  obtain ⟨time, harmed, hle⟩ := hinTime.inTime q hearly w hw (ne_nil_of_mem hpending)
  exact ⟨time, harmed, hle.trans (nextWakeTime_le hpending)⟩

/-- Two queues are merged, and the second task makes the owner wake up earlier. -/
def earlierRun : List (Op Unit) :=
  [.createTaskQueue, .setWakeable 0 7, .createTaskQueue, .merge 0 1, .registerTask 0 () 5,
    .registerTask 1 () 3]

theorem armed_le_of_run_earlierRun : ∃ h, Run step Timely init earlierRun h ∧
    (∃ task ∈ h.queues.tasks 0, task.targetTime = 5) ∧
    (∃ task ∈ h.queues.tasks 1, task.targetTime = 3 ∧
      ∃ time, h.queues.armed 7 = some time ∧ time ≤ task.targetTime) := by
  have hfree (q : TaskQueueId) :
      (init : TaskHistory Unit).queues.createTaskQueue.2.wakeableOf q ≠ some 7 := by
    have hwakeable : (init : TaskHistory Unit).queues.createTaskQueue.2.wakeableOf =
        update (fun _ => none) 0 none := wakeableOf_setEntry _ _ _
    rw [hwakeable, update_eq_self]
    nofun
  have hrun : Run step Timely init earlierRun _ :=
    .cons (show _ < _ by decide) rfl (.cons ⟨hfree, by decide⟩ rfl (.cons (show _ < _ by decide) rfl
      (.cons trivial rfl (.cons (show ArmsInTime _ _ _ by decide) rfl
        (.cons (show ArmsInTime _ _ _ by decide) rfl .nil)))))
  have htask := mem_cons_self (a := (⟨1, (), 3⟩ : DelayedTask Unit)) (l := [])
  exact ⟨_, hrun, ⟨⟨0, (), 5⟩, mem_cons_self, rfl⟩, ⟨⟨1, (), 3⟩, htask, rfl,
    armed_le_of_run hrun (q := 0) mem_cons_self rfl rfl (.inr htask)⟩⟩

/-- Two queues are merged, and the task of the subsumed queue is due after that of the owner. -/
def registerRun : List (Op Unit) :=
  [.createTaskQueue, .createTaskQueue, .setWakeable 0 7, .merge 0 1, .registerTask 0 () 1,
    .registerTask 1 () 10]

/-- The second registration postpones the wake-up of the owner beyond its task at time 1. -/
theorem registerRun_wakes_late : ∃ h, Run step unguarded init registerRun h ∧
    0 ∈ h.early ∧ h.queues.links 0 = some (1, kUnmerged) ∧ h.queues.wakeableOf 0 = some 7 ∧
    ∃ task ∈ h.queues.tasks 0, task.targetTime = 1 ∧ h.queues.armed 7 = some 10 ∧
      ¬ ∃ time, h.queues.armed 7 = some time ∧ time ≤ task.targetTime := by
  refine ⟨_, run_iff_exec.mpr rfl, mem_cons_self, rfl, rfl, ⟨0, (), 1⟩, mem_cons_self, rfl, rfl, ?_⟩
  rintro ⟨time, harmed, hle⟩
  obtain rfl : 10 = time := some.inj harmed
  revert hle
  decide

end Fml.TaskHistory
