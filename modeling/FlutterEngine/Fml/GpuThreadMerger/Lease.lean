import FlutterEngine.Fml.GpuThreadMerger
import FlutterEngine.Fml.MessageLoopTaskQueues.Pending

/-!
# Leases end

`lease_term_`, `is_merged_` and the task queues hold three copies of one fact. `Leased` says that
they agree: `is_merged_` is what `Owns` returns, and a merger of merged queues has a positive lease.
Every call keeps this, except the construction of a merger while the queues are merged, which
forgets the lease (`reconstructRun_never_unmerges`). Where no merger is constructed then, the lease
counts the calls of `DecrementLease` that are left until the queues are unmerged (`lease_of_run`).
-/

namespace Fml

open Lib MessageLoopTaskQueues Function Option List

variable {α : Type}

/-! ## Merging and unmerging two queues -/

namespace MessageLoopTaskQueues

variable {s t : MessageLoopTaskQueues α} {owner subsumed id by_ : TaskQueueId} {merged : Bool}

/-- Whether a queue owns another one. -/
lemma owns_eq {owned : TaskQueueId} (hne : owner ≠ subsumed)
    (hlinks : s.links owner = some (owned, by_)) :
    s.owns owner subsumed = some (decide (owned = subsumed)) := by
  obtain ⟨entry, hentry, hl⟩ := map_eq_some_iff.mp hlinks
  obtain ⟨rfl, -⟩ := Prod.mk.inj hl
  simp [owns, hentry, hne, eq_comm]

/-- `Merge` returns whether the owner now owns the subsumed queue. -/
theorem merge_owns (hne : owner ≠ subsumed) (h : s.merge owner subsumed = some (merged, t)) :
    t.owns owner subsumed = some merged := by
  rcases merge_cases h with ⟨rfl, hmerged⟩ | ⟨ownerEntry, subsumedEntry, rfl, -, -, -, -, -, hwake⟩
  · obtain ⟨ownerEntry, hentry, rfl⟩ := hmerged hne
    exact owns_eq hne (links_eq_some hentry)
  · have hlinks : t.links owner = some (subsumed, ownerEntry.subsumedBy) := by
      rw [(wakeUpIfPending_sameQueues hwake).links, links_link, update_of_ne hne, update_self]
    simpa using owns_eq hne hlinks

/-- `Merge` keeps all queues. -/
theorem merge_live (h : s.merge owner subsumed = some (merged, t)) (hid : (s.links id).isSome) :
    (t.links id).isSome := by
  rcases merge_cases h with ⟨rfl, -⟩ | ⟨ownerEntry, subsumedEntry, -, -, -, -, -, -, hwake⟩
  · exact hid
  · rw [(wakeUpIfPending_sameQueues hwake).links, links_link]
    grind

/-- After a successful `Unmerge` the owner owns nothing, and all queues are kept. -/
theorem unmerge_owns (hne : owner ≠ subsumed) (hk : subsumed ≠ kUnmerged)
    (h : s.unmerge owner = some (true, t)) :
    t.owns owner subsumed = some false ∧ ∀ id, (s.links id).isSome → (t.links id).isSome := by
  rcases unmerge_cases h with ⟨hfalse, -⟩ |
    ⟨ownerEntry, subsumedEntry, s', -, -, -, -, hwake, hwake'⟩
  · cases hfalse
  · have hlinks := @links_unlink _ owner s ownerEntry subsumedEntry
    rw [← (wakeUpIfPending_sameQueues hwake).links, ← (wakeUpIfPending_sameQueues hwake').links]
      at hlinks
    refine ⟨?_, fun id hid => ?_⟩
    · rw [owns_eq hne (hlinks ▸ update_self _ _ _)]
      simpa using hk.symm
    · rw [hlinks]
      grind

/-- A live queue can be woken up for what is pending. -/
lemma exists_wakeUpIfPending (hs : s.WellLinked) (hlive : (s.links id).isSome) :
    ∃ t, s.wakeUpIfPending id = some t := by
  rw [wakeUpIfPending_eq hs hlive]
  split
  · exact ⟨s, rfl⟩
  · exact exists_wakeUpUnlocked hlive _

/-- An owner can be unmerged. -/
theorem exists_unmerge (hs : s.WellLinked) (hlinks : s.links owner = some (subsumed, by_))
    (hk : subsumed ≠ kUnmerged) : ∃ t, s.unmerge owner = some (true, t) := by
  obtain ⟨ownerEntry, howner, hl⟩ := map_eq_some_iff.mp hlinks
  obtain ⟨rfl, -⟩ := Prod.mk.inj hl
  obtain ⟨-, hlinks', hne⟩ := hs.matching.owned_links hs.unmerged_dead hlinks hk
  obtain ⟨subsumedEntry, hsubsumed, -⟩ := map_eq_some_iff.mp hlinks'
  have hstep : LinkStep kUnmerged s.links none (s.unlink owner ownerEntry subsumedEntry).links := by
    rw [links_unlink]
    exact .unlink owner _ _ _ _ hk (links_eq_some howner) (links_eq_some hsubsumed)
  have hs' : (s.unlink owner ownerEntry subsumedEntry).WellLinked :=
    ⟨hstep.matching hs.unmerged_dead hs.matching, hstep.sentinel hs.unmerged_dead,
      fun id hid => hs.id_lt id ((hstep.live hid).resolve_right nofun)⟩
  have hown : ((s.unlink owner ownerEntry subsumedEntry).links owner).isSome := by
    rw [links_unlink, update_self, isSome_some]
  obtain ⟨s', hwake⟩ := exists_wakeUpIfPending hs' hown
  have hsame := wakeUpIfPending_sameQueues hwake
  have hsub : (s'.links ownerEntry.ownerOf).isSome := by
    rw [hsame.links, links_unlink, update_of_ne hne.symm, update_self, isSome_some]
  obtain ⟨t, hwake'⟩ := exists_wakeUpIfPending (WellLinked.of_sameQueues hsame.symm hs') hsub
  refine ⟨t, ?_⟩
  have hwake'' : ((s.setEntry ownerEntry.ownerOf { subsumedEntry with
      subsumedBy := kUnmerged }).setEntry owner { ownerEntry with
        ownerOf := kUnmerged }).wakeUpIfPending owner = some s' := hwake
  simp [unmerge, howner, hk, hsubsumed, hwake'', hwake']

end MessageLoopTaskQueues

namespace GpuThreadMerger

variable {platformQueueId gpuQueueId : TaskQueueId}
variable {s : State α} {m : GpuThreadMerger} {t : MessageLoopTaskQueues α}

lemma intOfSize_eq {n : ℕ} (hn : n < 2 ^ 31) : intOfSize n = n := by
  rw [intOfSize, BitVec.toInt_eq_toNat_of_lt, BitVec.toNat_ofNat, Nat.mod_eq_of_lt]
  · omega
  · rw [BitVec.toNat_ofNat]
    omega

/-! ## The three copies agree -/

/-- The lease, `is_merged_` and the task queues agree. -/
structure Leased (platformQueueId gpuQueueId : TaskQueueId) (s : State α) : Prop where
  linked : s.taskQueues.WellLinked
  platform_live : (s.taskQueues.links platformQueueId).isSome
  gpu_live : (s.taskQueues.links gpuQueueId).isSome
  owns : ∀ m, s.merger = some m → s.taskQueues.owns platformQueueId gpuQueueId = some m.isMerged
  positive : ∀ m, s.merger = some m → m.isMerged = true → 0 < m.leaseTerm

/-- No merger is constructed while the queues are merged, and leases are positive `int`s. -/
def LeaseKept (platformQueueId gpuQueueId : TaskQueueId) (s : State α) : Op → Prop
  | .construct => s.taskQueues.owns platformQueueId gpuQueueId ≠ some true
  | .mergeWithLease leaseTerm => 1 ≤ leaseTerm ∧ leaseTerm < 2 ^ 31
  | .extendLeaseTo leaseTerm => 1 ≤ leaseTerm ∧ leaseTerm < 2 ^ 31
  | .decrementLease => True

instance (s : State α) (op : Op) : Decidable (LeaseKept platformQueueId gpuQueueId s op) := by
  cases op <;> unfold LeaseKept <;> infer_instance

/-- Leases of at least one frame that fit into an `int`, with no condition on constructions. -/
def LeaseValid (_ : State α) : Op → Prop
  | .mergeWithLease leaseTerm => 1 ≤ leaseTerm ∧ leaseTerm < 2 ^ 31
  | .extendLeaseTo leaseTerm => 1 ≤ leaseTerm ∧ leaseTerm < 2 ^ 31
  | _ => True

instance (s : State α) (op : Op) : Decidable (LeaseValid s op) := by
  cases op <;> unfold LeaseValid <;> infer_instance

section

variable (hs : Leased platformQueueId gpuQueueId s)
include hs

lemma Leased.gpu_ne : gpuQueueId ≠ kUnmerged := by
  rintro rfl
  have := hs.gpu_live
  rw [hs.linked.unmerged_dead] at this
  cases this

/-- A call that only replaces the merger. -/
theorem Leased.setMerger (howns : s.taskQueues.owns platformQueueId gpuQueueId = some m.isMerged)
    (hpositive : m.isMerged = true → 0 < m.leaseTerm) :
    Leased platformQueueId gpuQueueId { s with merger := some m } where
  __ := hs
  owns m' hm' := by
    obtain rfl := some.inj hm'
    exact howns
  positive m' hm' := by
    obtain rfl := some.inj hm'
    exact hpositive

/-- A lease that is not over is lowered. -/
lemma Leased.lower (hm : s.merger = some m) {k : ℕ} (hk : (k : ℤ) < m.leaseTerm) :
    Leased platformQueueId gpuQueueId
      { s with merger := some { m with leaseTerm := m.leaseTerm - k } } :=
  hs.setMerger (hs.owns m hm) fun _ => by simp only; omega

variable {m' : GpuThreadMerger} {leaseTerm : ℕ}

/-- A lease is extended. -/
lemma Leased.extendLeaseTo (hm : s.merger = some m) (hlease : 1 ≤ leaseTerm ∧ leaseTerm < 2 ^ 31)
    (h : m.extendLeaseTo leaseTerm = some m') :
    Leased platformQueueId gpuQueueId { s with merger := some m' } := by
  rw [GpuThreadMerger.extendLeaseTo, if_neg (by omega)] at h
  split at h
  · obtain rfl := some.inj h
    refine hs.setMerger (hs.owns m hm) fun _ => ?_
    simp only [intOfSize_eq hlease.2]
    omega
  · obtain rfl := some.inj h
    exact hs.setMerger (hs.owns m hm) (hs.positive m hm)

variable (hne : platformQueueId ≠ gpuQueueId)
include hne

/-- A lease begins. -/
lemma Leased.mergeWithLease {taskQueues : MessageLoopTaskQueues α} (hm : s.merger = some m)
    (hlease : 1 ≤ leaseTerm ∧ leaseTerm < 2 ^ 31)
    (h : m.mergeWithLease platformQueueId gpuQueueId s.taskQueues leaseTerm =
      some (m', taskQueues)) :
    Leased platformQueueId gpuQueueId ⟨taskQueues, some m'⟩ := by
  rw [GpuThreadMerger.mergeWithLease, if_neg (by omega)] at h
  split at h
  · obtain ⟨⟨isMerged, t⟩, hmerge, h⟩ := bind_eq_some_iff.mp h
    obtain ⟨rfl, rfl⟩ := Prod.mk.inj (some.inj h)
    have hstep : s.taskQueues.step (.merge platformQueueId gpuQueueId) = some t := by
      simp [MessageLoopTaskQueues.step, hmerge]
    have hs' : Leased platformQueueId gpuQueueId ⟨t, none⟩ :=
      ⟨hs.linked.step (by simp [FreshIds, created]) hstep, merge_live hmerge hs.platform_live,
        merge_live hmerge hs.gpu_live, nofun, nofun⟩
    refine hs'.setMerger (merge_owns hne hmerge) fun _ => ?_
    simp only [intOfSize_eq hlease.2]
    omega
  · obtain ⟨rfl, rfl⟩ := Prod.mk.inj (some.inj h)
    exact hs.setMerger (hs.owns m hm) (hs.positive m hm)

/-- What `DecrementLease` does while leases are kept. -/
theorem Leased.decrementLease_eq (hm : s.merger = some m) : m.isMerged = false ∧
        m.decrementLease platformQueueId s.taskQueues = some (.kRemainsUnmerged, m, s.taskQueues) ∨
      m.isMerged = true ∧ 1 < m.leaseTerm ∧
        m.decrementLease platformQueueId s.taskQueues =
          some (.kRemainsMerged, { m with leaseTerm := m.leaseTerm - 1 }, s.taskQueues) ∨
      m.isMerged = true ∧ m.leaseTerm = 1 ∧
        ∃ t, s.taskQueues.unmerge platformQueueId = some (true, t) ∧
        m.decrementLease platformQueueId s.taskQueues = some (.kUnmergedNow, ⟨0, false⟩, t) := by
  cases hmerged : m.isMerged with
  | false => simp [decrementLease, hmerged]
  | true =>
    have hpositive := hs.positive m hm hmerged
    have hset : m.leaseTerm ≠ kLeaseNotSet := by
      unfold kLeaseNotSet
      omega
    right
    by_cases hone : m.leaseTerm = 1
    · right
      obtain ⟨⟨owned, by_⟩, hlinks⟩ := isSome_iff_exists.mp hs.platform_live
      have howns := hs.owns m hm
      rw [owns_eq hne hlinks, hmerged] at howns
      obtain rfl : owned = gpuQueueId := by simpa using howns
      obtain ⟨t, ht⟩ := exists_unmerge hs.linked hlinks hs.gpu_ne
      exact ⟨rfl, hone, t, ht, by
        simp [decrementLease, hmerged, hone, ht, kLeaseNotSet]⟩
    · left
      refine ⟨rfl, by omega, ?_⟩
      rw [decrementLease, if_neg (by simp [hmerged]), if_neg hset,
        if_neg (by omega), if_neg (by omega), hmerged]

/-- A lease ends. -/
lemma Leased.unmerge (h : s.taskQueues.unmerge platformQueueId = some (true, t)) :
    Leased platformQueueId gpuQueueId ⟨t, some ⟨0, false⟩⟩ := by
  obtain ⟨howns, hlive⟩ := unmerge_owns hne hs.gpu_ne h
  have hstep : s.taskQueues.step (.unmerge platformQueueId) = some t := by
    simp [MessageLoopTaskQueues.step, h]
  have hs' : Leased platformQueueId gpuQueueId ⟨t, none⟩ :=
    ⟨hs.linked.step (by simp [FreshIds, created]) hstep, hlive _ hs.platform_live,
      hlive _ hs.gpu_live, by simp, by simp⟩
  exact hs'.setMerger howns (by simp)

/-- Each call keeps the lease. -/
lemma Leased.step {t : State α} {op : Op} (hop : LeaseKept platformQueueId gpuQueueId s op)
    (h : step platformQueueId gpuQueueId s op = some t) : Leased platformQueueId gpuQueueId t := by
  cases op with
  | construct =>
    simp only [GpuThreadMerger.step, new, bind_eq_bind, bind_eq_some_iff] at h
    obtain ⟨m, ⟨owns, howns, hm⟩, h⟩ := h
    obtain rfl := some.inj h
    obtain rfl := some.inj hm
    refine hs.setMerger howns fun htrue => ?_
    exact absurd (htrue ▸ howns) hop
  | mergeWithLease leaseTerm =>
    simp only [GpuThreadMerger.step, bind_eq_bind, bind_eq_some_iff] at h
    obtain ⟨m, hm, ⟨m', taskQueues⟩, hmerge, h⟩ := h
    obtain rfl := some.inj h
    exact hs.mergeWithLease hne hm hop hmerge
  | extendLeaseTo leaseTerm =>
    simp only [GpuThreadMerger.step, bind_eq_bind, bind_eq_some_iff] at h
    obtain ⟨m, hm, m', hextend, h⟩ := h
    obtain rfl := some.inj h
    exact hs.extendLeaseTo hm hop hextend
  | decrementLease =>
    simp only [GpuThreadMerger.step, bind_eq_bind, bind_eq_some_iff] at h
    obtain ⟨m, hm, ⟨status, m', taskQueues⟩, hdecrement, h⟩ := h
    obtain rfl := some.inj h
    rcases hs.decrementLease_eq hne hm with ⟨hmerged, heq⟩ | ⟨hmerged, hlease, heq⟩ |
      ⟨hmerged, -, t', hunmerge, heq⟩ <;>
      obtain ⟨-, rfl, rfl⟩ : _ = status ∧ _ = m' ∧ _ = taskQueues := by
        simpa using heq.symm.trans hdecrement
    · exact hs.setMerger (hs.owns m hm) (hs.positive m hm)
    · exact hs.lower hm hlease
    · exact hs.unmerge hne hunmerge

/-! ## Runs -/

/-- Calls of `DecrementLease` short of the lease leave the queues merged. -/
theorem Leased.run_decrementLease (hm : s.merger = some m) (hmerged : m.isMerged = true) (k : ℕ)
    (hk : (k : ℤ) < m.leaseTerm) :
    Run (GpuThreadMerger.step platformQueueId gpuQueueId) unguarded s
      (replicate k .decrementLease)
      { s with merger := some { m with leaseTerm := m.leaseTerm - k } } := by
  induction k with
  | zero =>
    have : s = { s with merger := some { m with leaseTerm := m.leaseTerm - (0 : ℕ) } } := by
      simp [← hm]
    rw [← this]
    exact .nil
  | succ k ih =>
    rw [replicate_succ']
    refine .snoc (ih (by omega)) trivial ?_
    rcases (hs.lower hm (k := k) (by omega)).decrementLease_eq hne rfl with
      ⟨hfalse, -⟩ | ⟨-, -, heq⟩ | ⟨-, hone, -⟩
    · simp [hmerged] at hfalse
    · simp only [GpuThreadMerger.step, bind_eq_bind, bind_some, heq]
      simp only [Option.pure_def, some.injEq, State.mk.injEq, mk.injEq, true_and, and_true]
      omega
    · simp only at hone
      omega

/-- The call of `DecrementLease` that uses up the lease unmerges the queues. -/
theorem Leased.exists_run_unmerged (hm : s.merger = some m) (hmerged : m.isMerged = true) :
    ∃ t, Run (GpuThreadMerger.step platformQueueId gpuQueueId) unguarded s
      (replicate m.leaseTerm.toNat .decrementLease) t ∧
      t.taskQueues.owns platformQueueId gpuQueueId = some false := by
  have hpositive := hs.positive m hm hmerged
  obtain ⟨k, hk⟩ : ∃ k : ℕ, m.leaseTerm = k + 1 := ⟨(m.leaseTerm - 1).toNat, by omega⟩
  have hrun := hs.run_decrementLease hne hm hmerged k (by omega)
  rcases (hs.lower hm (k := k) (by omega)).decrementLease_eq hne rfl with
    ⟨hfalse, -⟩ | ⟨-, hlease, -⟩ | ⟨-, -, t, hunmerge, heq⟩
  · simp [hmerged] at hfalse
  · simp only at hlease
    omega
  · refine ⟨⟨t, some ⟨0, false⟩⟩, ?_, (unmerge_owns hne hs.gpu_ne hunmerge).1⟩
    have hreplicate : m.leaseTerm.toNat = k + 1 := by omega
    rw [hreplicate, replicate_succ']
    refine .snoc hrun trivial ?_
    simp [GpuThreadMerger.step, heq]

end

/-- While no merger is constructed over merged queues, `is_merged_` is what `Owns` returns, a
merger of merged queues has a positive lease, and exactly as many calls of `DecrementLease` as the
lease says unmerge the queues. -/
theorem lease_of_run {taskQueues : MessageLoopTaskQueues α}
    {queueOps : List (MessageLoopTaskQueues.Op α)}
    (hqueues : Run MessageLoopTaskQueues.step FreshIds .init queueOps taskQueues)
    (hne : platformQueueId ≠ gpuQueueId) (hplatform : (taskQueues.links platformQueueId).isSome)
    (hgpu : (taskQueues.links gpuQueueId).isSome) {ops : List Op} {s : State α}
    (hrun : Run (step platformQueueId gpuQueueId) (LeaseKept platformQueueId gpuQueueId)
      ⟨taskQueues, none⟩ ops s) {m : GpuThreadMerger} (hm : s.merger = some m) :
    s.taskQueues.owns platformQueueId gpuQueueId = some m.isMerged ∧
      (s.taskQueues.owns platformQueueId gpuQueueId = some true →
        0 < m.leaseTerm ∧
        (∀ k : ℕ, (k : ℤ) < m.leaseTerm →
          ∃ t, Run (step platformQueueId gpuQueueId) unguarded s
              (replicate k .decrementLease) t ∧
            t.taskQueues.owns platformQueueId gpuQueueId = some true) ∧
        ∃ t, Run (step platformQueueId gpuQueueId) unguarded s
            (replicate m.leaseTerm.toNat .decrementLease) t ∧
          t.taskQueues.owns platformQueueId gpuQueueId = some false) := by
  have hs : Leased platformQueueId gpuQueueId s := by
    refine hrun.invariant ?_ fun _ _ _ hs hop hstep => hs.step hne hop hstep
    exact ⟨wellLinked_of_run hqueues, hplatform, hgpu, nofun, nofun⟩
  refine ⟨hs.owns m hm, fun howns => ?_⟩
  have hmerged : m.isMerged = true := some.inj ((hs.owns m hm).symm.trans howns)
  refine ⟨hs.positive m hm hmerged, fun k hk => ?_, hs.exists_run_unmerged hne hm hmerged⟩
  exact ⟨_, hs.run_decrementLease hne hm hmerged k hk, howns⟩

/-- Task queues with two queues, `0` and `1`. -/
def twoQueues : MessageLoopTaskQueues Unit := (init.createTaskQueue.2).createTaskQueue.2

theorem lease_of_run_extended : ∃ s : State Unit,
    Run (step 0 1) (LeaseKept 0 1) ⟨twoQueues, none⟩
      [.construct, .mergeWithLease 2, .extendLeaseTo 3] s ∧
    s.merger = some ⟨3, true⟩ ∧
    ∃ t, Run (step 0 1) unguarded s (replicate 3 .decrementLease) t ∧
      t.taskQueues.owns 0 1 = some false := by
  have hqueues : Run MessageLoopTaskQueues.step FreshIds .init [.createTaskQueue, .createTaskQueue]
      twoQueues := run_iff_exec.mpr rfl
  have hrun := run_iff_exec.mpr (show exec (step 0 1) (LeaseKept 0 1) ⟨twoQueues, none⟩
    [.construct, .mergeWithLease 2, .extendLeaseTo 3] = some _ from rfl)
  obtain ⟨howns, hlease⟩ := lease_of_run hqueues (by decide) rfl rfl hrun (m := ⟨3, true⟩) rfl
  exact ⟨_, hrun, rfl, (hlease howns).2.2⟩

/-- A merger is constructed while the queues are merged by its predecessor. -/
def reconstructRun : List Op := [.construct, .mergeWithLease 2, .construct]

/-- The new merger knows that the queues are merged but has no lease, and no number of calls of
`DecrementLease` unmerges them. -/
theorem reconstructRun_never_unmerges : ∃ s : State Unit,
    Run (step 0 1) LeaseValid ⟨twoQueues, none⟩ reconstructRun s ∧
    s.taskQueues.owns 0 1 = some true ∧ s.merger = some ⟨-1, true⟩ ∧
    ∀ k, Run (step 0 1) LeaseValid s (replicate k .decrementLease) s := by
  refine ⟨_, run_iff_exec.mpr rfl, rfl, rfl, fun k => ?_⟩
  induction k with
  | zero => exact .nil
  | succ k ih =>
    rw [replicate_succ']
    exact .snoc ih trivial rfl

end GpuThreadMerger

end Fml
