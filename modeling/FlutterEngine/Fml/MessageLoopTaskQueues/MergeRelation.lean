import FlutterEngine.Fml.MessageLoopTaskQueues.Calls
import FlutterEngine.Lib.Matching

/-!
# The merge relation of the task queues

`links` is what the merge relation depends on: the `owner_of` and `subsumed_by` of each live
queue. Every call is a move on links (`step_links`), so the two fields stay inverse to each other
as long as `CreateTaskQueue` hands out fresh ids, that is for fewer than `2 ^ 32` calls
(`matching_of_run`). The `2 ^ 32 + 1`-st call hands out the id of the first queue again and
replaces its entry (`wrapAroundRun_breaks_matching`).
-/

namespace Fml.MessageLoopTaskQueues

open Lib Option Function

variable {α : Type}
variable {s t : MessageLoopTaskQueues α} {id : TaskQueueId} {op : Op α}

/-! ## Every call is a move on links -/

/-- What `Dispose` does to the links. -/
lemma dispose_links (h : s.dispose id = some t) : LinkStep kUnmerged s.links none t.links := by
  obtain ⟨entry, hentry, hsubsumed, rfl⟩ := dispose_cases h
  have hlinks := links_eq_some hentry
  rw [hsubsumed] at hlinks
  by_cases howner : entry.ownerOf = kUnmerged
  · rw [if_neg (not_not.mpr howner), links_eraseEntry]
    exact .remove id (howner ▸ hlinks)
  · rw [if_pos howner, links_eraseEntry, links_eraseEntry]
    exact .removePair id entry.ownerOf hlinks howner

/-- `DisposeTasks` leaves the links alone. -/
lemma disposeTasks_links (h : s.disposeTasks id = some t) : t.links = s.links := by
  obtain ⟨entry, hentry, rfl | ⟨subsumedEntry, hsubsumed, rfl⟩⟩ := disposeTasks_cases h
  · exact links_setTasks hentry _
  · exact (links_setTasks hsubsumed _).trans (links_setTasks hentry _)

/-- `RegisterTask` leaves the links alone. -/
lemma registerTask_links {task : α} {targetTime : ℤ}
    (h : s.registerTask id task targetTime = some t) : t.links = s.links := by
  obtain ⟨entry, top, hentry, _, hwake⟩ := registerTask_cases h
  exact (wakeUpUnlocked_sameQueues hwake).links.trans (links_enqueue hentry _)

/-- `SetWakeable` leaves the links alone. -/
lemma setWakeable_links {wakeable : Wakeable} (h : s.setWakeable id wakeable = some t) :
    t.links = s.links := by
  obtain ⟨entry, hentry, _, rfl⟩ := setWakeable_cases h
  exact links_setEntry_eq hentry rfl rfl

/-- What `Merge` does to the links. -/
lemma merge_links {owner subsumed : TaskQueueId} {merged : Bool}
    (h : s.merge owner subsumed = some (merged, t)) :
    LinkStep kUnmerged s.links none t.links := by
  obtain ⟨rfl, -⟩ | ⟨ownerEntry, subsumedEntry, -, hne, howner, hsubsumed, ⟨hown, hsub⟩,
    ⟨hown', hsub'⟩, hwake⟩ := merge_cases h
  · exact .keep
  · rw [(wakeUpIfPending_sameQueues hwake).links, links_link, hsub, hown']
    have hlinks := links_eq_some howner
    have hlinks' := links_eq_some hsubsumed
    rw [hown, hsub] at hlinks
    rw [hown', hsub'] at hlinks'
    exact .link owner subsumed hne hlinks hlinks'

/-- What `Unmerge` does to the links. -/
lemma unmerge_links {owner : TaskQueueId} {unmerged : Bool}
    (h : s.unmerge owner = some (unmerged, t)) : LinkStep kUnmerged s.links none t.links := by
  obtain ⟨-, rfl⟩ | ⟨ownerEntry, subsumedEntry, s', -, howner, hne, hsubsumed, hwake, hwake'⟩ :=
    unmerge_cases h
  · exact .keep
  · rw [(wakeUpIfPending_sameQueues hwake').links, (wakeUpIfPending_sameQueues hwake).links,
      links_unlink]
    exact .unlink owner _ _ _ _ hne (links_eq_some howner) (links_eq_some hsubsumed)

/-- The queue a call creates. -/
def created (s : MessageLoopTaskQueues α) : Op α → Option TaskQueueId
  | .createTaskQueue => some s.nextId
  | _ => none

/-- Every call but the creation of a queue under an id in use is a move on links. -/
theorem step_links (hfresh : ∀ id, s.created op = some id → id ≠ kUnmerged ∧ s.links id = none)
    (h : s.step op = some t) : LinkStep kUnmerged s.links (s.created op) t.links := by
  cases op with
  | createTaskQueue =>
    obtain rfl := some.inj h
    obtain ⟨hne, hnone⟩ := hfresh s.nextId rfl
    rw [createTaskQueue, links_setEntry]
    exact .add s.nextId hne hnone
  | dispose id => exact dispose_links h
  | disposeTasks id =>
    rw [disposeTasks_links h]
    exact .keep
  | registerTask id task targetTime =>
    rw [registerTask_links h]
    exact .keep
  | getTasksToRunNow id type now =>
    obtain ⟨⟨tasks, t'⟩, hget, rfl⟩ := map_eq_some_iff.mp h
    obtain ⟨s', htaken, hsame⟩ := getTasksToRunNow_taken hget
    rw [hsame.links, htaken.links]
    exact .keep
  | setWakeable id wakeable =>
    rw [setWakeable_links h]
    exact .keep
  | merge owner subsumed =>
    obtain ⟨⟨merged, t'⟩, hmerge, rfl⟩ := map_eq_some_iff.mp h
    exact merge_links hmerge
  | unmerge owner =>
    obtain ⟨⟨unmerged, t'⟩, hunmerge, rfl⟩ := map_eq_some_iff.mp h
    exact unmerge_links hunmerge

/-! ## The id counter -/

/-- The id counter counts the queues created. -/
theorem step_counter (h : s.step op = some t) :
    t.taskQueueIdCounter = s.taskQueueIdCounter + if (s.created op).isSome then 1 else 0 := by
  cases op with
  | createTaskQueue =>
    obtain rfl := some.inj h
    rfl
  | dispose id =>
    obtain ⟨entry, _, _, rfl⟩ := dispose_cases h
    split <;> rfl
  | disposeTasks id => obtain ⟨entry, _, rfl | ⟨_, _, rfl⟩⟩ := disposeTasks_cases h <;> rfl
  | registerTask id task targetTime =>
    obtain ⟨entry, top, _, _, hwake⟩ := registerTask_cases h
    exact (wakeUpUnlocked_sameQueues hwake).counter
  | getTasksToRunNow id type now =>
    obtain ⟨⟨tasks, t'⟩, hget, rfl⟩ := map_eq_some_iff.mp h
    obtain ⟨s', htaken, hsame⟩ := getTasksToRunNow_taken hget
    exact hsame.counter.trans htaken.counter
  | setWakeable id wakeable =>
    obtain ⟨entry, _, _, rfl⟩ := setWakeable_cases h
    rfl
  | merge owner subsumed =>
    obtain ⟨⟨merged, t'⟩, hmerge, rfl⟩ := map_eq_some_iff.mp h
    obtain ⟨rfl, -⟩ | ⟨_, _, _, _, _, _, _, _, hwake⟩ := merge_cases hmerge
    · rfl
    · exact (wakeUpIfPending_sameQueues hwake).counter
  | unmerge owner =>
    obtain ⟨⟨unmerged, t'⟩, hunmerge, rfl⟩ := map_eq_some_iff.mp h
    obtain ⟨-, rfl⟩ | ⟨_, _, s', _, _, _, _, hwake, hwake'⟩ := unmerge_cases hunmerge
    · rfl
    · exact (wakeUpIfPending_sameQueues hwake').counter.trans
        (wakeUpIfPending_sameQueues hwake).counter

/-! ## Runs -/

/-- The merge relation is a matching, and the ids of the queues that were ever created are
below the counter. -/
structure WellLinked (s : MessageLoopTaskQueues α) : Prop where
  matching : Matching kUnmerged s.links
  unmerged_dead : s.links kUnmerged = none
  id_lt : ∀ id, (s.links id).isSome → id.toNat < s.taskQueueIdCounter

/-- `CreateTaskQueue` is called fewer than `2 ^ 32` times. -/
def FreshIds (s : MessageLoopTaskQueues α) (op : Op α) : Prop :=
  (s.created op).isSome → s.taskQueueIdCounter + 1 < 2 ^ 32

instance (s : MessageLoopTaskQueues α) (op : Op α) : Decidable (s.FreshIds op) :=
  inferInstanceAs (Decidable (_ → _))

/-- At first there are no queues. -/
lemma wellLinked_init : WellLinked (init : MessageLoopTaskQueues α) where
  matching := matching_none kUnmerged
  unmerged_dead := rfl
  id_lt := nofun

/-- An id below `2 ^ 32 - 1` is neither in use nor `_kUnmerged`. -/
theorem WellLinked.fresh (hs : s.WellLinked) (hcounter : s.taskQueueIdCounter + 1 < 2 ^ 32) :
    s.nextId.toNat = s.taskQueueIdCounter ∧ s.nextId ≠ kUnmerged ∧ s.links s.nextId = none := by
  have hid : s.nextId.toNat = s.taskQueueIdCounter := by
    rw [nextId, BitVec.toNat_ofNat, Nat.mod_eq_of_lt (by omega)]
  refine ⟨hid, ?_, ?_⟩
  · intro heq
    have : kUnmerged.toNat = 2 ^ 32 - 1 := rfl
    rw [heq] at hid
    omega
  · by_contra hlive
    have := hs.id_lt s.nextId (isSome_iff_ne_none.mpr hlive)
    omega

/-- Wake-ups leave the queues linked. -/
lemma WellLinked.of_sameQueues (h : SameQueues s t) (ht : t.WellLinked) : s.WellLinked where
  matching := h.links ▸ ht.matching
  unmerged_dead := h.links ▸ ht.unmerged_dead
  id_lt := h.counter ▸ h.links ▸ ht.id_lt

/-- A call that hands out a fresh id, if any, keeps the merge relation a matching. -/
theorem WellLinked.step (hs : s.WellLinked) (hop : s.FreshIds op) (h : s.step op = some t) :
    t.WellLinked := by
  have hnew : ∀ id, s.created op = some id → id = s.nextId := by
    cases op <;> simp [created, eq_comm]
  have hfresh : ∀ id, s.created op = some id →
      id.toNat = s.taskQueueIdCounter ∧ id ≠ kUnmerged ∧ s.links id = none := by
    intro id hid
    obtain rfl := hnew id hid
    exact hs.fresh (hop (by simp [hid]))
  have hlinks := step_links (fun id hid => (hfresh id hid).2) h
  refine ⟨hlinks.matching hs.unmerged_dead hs.matching, hlinks.sentinel hs.unmerged_dead, ?_⟩
  intro id hid
  rw [step_counter h]
  obtain hlive | hcreated := hlinks.live hid
  · have := hs.id_lt id hlive
    omega
  · have := (hfresh id hcreated).1
    simp [hcreated, this]

/-- In every run the queues are linked. -/
lemma wellLinked_of_run {ops : List (Op α)} (h : Run step FreshIds init ops s) : s.WellLinked :=
  h.invariant wellLinked_init fun _ _ _ hs hop hstep => hs.step hop hstep

/-- While fewer than `2 ^ 32` queues have been created, `owner_of` and `subsumed_by` are inverse
partial maps between live queues, no queue both owns and is subsumed, and a `Merge` or `Unmerge`
that returns `false` changes nothing. -/
theorem matching_of_run {ops : List (Op α)} {s : MessageLoopTaskQueues α}
    (h : Run step FreshIds init ops s) :
    Matching kUnmerged s.links ∧
      (∀ owner subsumed t, s.merge owner subsumed = some (false, t) → t = s) ∧
      (∀ owner t, s.unmerge owner = some (false, t) → t = s) :=
  ⟨(wellLinked_of_run h).matching, fun _ _ _ => merge_false, fun _ _ => unmerge_false⟩

theorem matching_of_run_merge : ∃ s : MessageLoopTaskQueues Unit,
    Run step FreshIds init [.createTaskQueue, .createTaskQueue, .merge 0 1] s ∧
      s.links 0 = some (1, kUnmerged) ∧ s.merge 1 0 = some (false, s) ∧
      Matching kUnmerged s.links ∧
      (∀ owner subsumed t, s.merge owner subsumed = some (false, t) → t = s) ∧
      (∀ owner t, s.unmerge owner = some (false, t) → t = s) := by
  have hrun := run_iff_exec.mpr (show exec step FreshIds (init : MessageLoopTaskQueues Unit)
    [.createTaskQueue, .createTaskQueue, .merge 0 1] = some _ from rfl)
  exact ⟨_, hrun, rfl, rfl, matching_of_run hrun⟩

/-! ## When ids are handed out again -/

/-- Creating queues keeps the entries of all earlier ones, up to the `2 ^ 32`-nd queue. -/
theorem exists_run_createTaskQueue (s : MessageLoopTaskQueues α) (n : ℕ)
    (hn : s.taskQueueIdCounter + n ≤ 2 ^ 32) :
    ∃ t, Run step unguarded s (List.replicate n .createTaskQueue) t ∧
      t.taskQueueIdCounter = s.taskQueueIdCounter + n ∧
      ∀ id, id.toNat < s.taskQueueIdCounter → t.links id = s.links id := by
  induction n with
  | zero => exact ⟨s, .nil, rfl, fun _ _ => rfl⟩
  | succ n ih =>
    obtain ⟨t, hrun, hcounter, hlinks⟩ := ih (by omega)
    refine ⟨t.createTaskQueue.2, ?_, by simp [createTaskQueue, hcounter, Nat.add_assoc], ?_⟩
    · rw [List.replicate_succ']
      exact .snoc hrun trivial rfl
    · intro id hid
      have hne : id ≠ t.nextId := by
        rintro rfl
        rw [nextId, BitVec.toNat_ofNat, Nat.mod_eq_of_lt (by omega)] at hid
        omega
      rw [createTaskQueue, links_setEntry, update_of_ne hne]
      exact hlinks id hid

/-- Two queues are merged, and then queues are created until the id of the owner comes up
again. -/
def wrapAroundRun : List (Op Unit) :=
  [.createTaskQueue, .createTaskQueue, .merge 0 1] ++
    List.replicate (2 ^ 32 - 2) .createTaskQueue ++ [.createTaskQueue]

/-- The new queue with the id of the owner owns nobody, but the other queue stays subsumed by
it. -/
theorem wrapAroundRun_breaks_matching : ∃ s,
    Run step unguarded init wrapAroundRun s ∧ s.links 0 = some (kUnmerged, kUnmerged) ∧
      s.links 1 = some (kUnmerged, 0) ∧ ¬ Matching kUnmerged s.links := by
  obtain ⟨s, hs, hs0, hs1, hcounter⟩ : ∃ s : MessageLoopTaskQueues Unit,
      Run step unguarded init [.createTaskQueue, .createTaskQueue, .merge 0 1] s ∧
        s.links 0 = some (1, kUnmerged) ∧ s.links 1 = some (kUnmerged, 0) ∧
        s.taskQueueIdCounter = 2 :=
    ⟨_, run_iff_exec.mpr rfl, rfl, rfl, rfl⟩
  obtain ⟨t, ht, hcounter', hlinks⟩ :=
    exists_run_createTaskQueue s (2 ^ 32 - 2) (by omega)
  have hid : t.nextId = 0 := by
    rw [nextId, hcounter', hcounter]
    rfl
  have hcreate : t.createTaskQueue.2.links =
      update t.links 0 (some (kUnmerged, kUnmerged)) := by
    rw [createTaskQueue, links_setEntry, hid]
    rfl
  have h0 : t.createTaskQueue.2.links 0 = some (kUnmerged, kUnmerged) := by
    rw [hcreate, update_self]
  have h1 : t.createTaskQueue.2.links 1 = some (kUnmerged, 0) := by
    rw [hcreate, update_of_ne (by decide), hlinks 1 (by rw [hcounter]; decide), hs1]
  refine ⟨t.createTaskQueue.2, .snoc (hs.append ht) trivial rfl, h0, h1, fun hmatching => ?_⟩
  have := (hmatching.inverse 0 1 _ _ _ _ h0 h1).mpr rfl
  revert this
  decide

end Fml.MessageLoopTaskQueues
