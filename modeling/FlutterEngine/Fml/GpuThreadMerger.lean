import FlutterEngine.Fml.MessageLoopTaskQueues

/-!
# The GPU thread merger

`fml/gpu_thread_merger.h`: merges the GPU task queue into the platform task queue for the duration
of a lease. `Rasterizer::Setup` constructs a new merger over the same two queues each time a
surface is set up, and the new one replaces the old. The task queues themselves outlive them.

As in the task queues, `none` stands for a failed `FML_CHECK` or `FML_DCHECK`.
-/

namespace Fml

open MessageLoopTaskQueues

/-- `fml::GpuThreadStatus` -/
inductive GpuThreadStatus
  | kRemainsMerged
  | kRemainsUnmerged
  | kUnmergedNow
deriving DecidableEq, Repr

/-- The mutable members of `fml::GpuThreadMerger`. -/
structure GpuThreadMerger where
  /-- `lease_term_`, an `atomic_int`. -/
  leaseTerm : ℤ
  /-- `is_merged_` -/
  isMerged : Bool
deriving DecidableEq, Repr

namespace GpuThreadMerger

variable {α : Type} (platformQueueId gpuQueueId : TaskQueueId)

/-- `kLeaseNotSet` -/
def kLeaseNotSet : ℤ := -1

/-- The conversion of a `size_t` to an `int`. -/
def intOfSize (n : ℕ) : ℤ := (BitVec.ofNat 32 n).toInt

/-- The constructor. -/
def new (taskQueues : MessageLoopTaskQueues α) : Option GpuThreadMerger := do
  return { leaseTerm := kLeaseNotSet, isMerged := ← taskQueues.owns platformQueueId gpuQueueId }

variable (m : GpuThreadMerger)

/-- `MergeWithLease`. The lease is also set when the merge fails. -/
def mergeWithLease (taskQueues : MessageLoopTaskQueues α) (leaseTerm : ℕ) :
    Option (GpuThreadMerger × MessageLoopTaskQueues α) :=
  if leaseTerm = 0 then none
  else if m.isMerged = false then do
    let (isMerged, taskQueues) ← taskQueues.merge platformQueueId gpuQueueId
    return ({ leaseTerm := intOfSize leaseTerm, isMerged }, taskQueues)
  else
    return (m, taskQueues)

/-- `ExtendLeaseTo` -/
def extendLeaseTo (leaseTerm : ℕ) : Option GpuThreadMerger :=
  if leaseTerm = 0 then none
  else if m.leaseTerm ≠ kLeaseNotSet ∧ intOfSize leaseTerm > m.leaseTerm then
    some { m with leaseTerm := intOfSize leaseTerm }
  else
    some m

/-- `DecrementLease` -/
def decrementLease (taskQueues : MessageLoopTaskQueues α) :
    Option (GpuThreadStatus × GpuThreadMerger × MessageLoopTaskQueues α) :=
  if m.isMerged = false then
    some (.kRemainsUnmerged, m, taskQueues)
  else if m.leaseTerm = kLeaseNotSet then
    -- `lease_term_` of a merger that was constructed while the queues were merged
    some (.kRemainsUnmerged, m, taskQueues)
  else if m.leaseTerm ≤ 0 then none
  else if m.leaseTerm - 1 = 0 then do
    let (success, taskQueues) ← taskQueues.unmerge platformQueueId
    if success = false then none
    else return (.kUnmergedNow, { leaseTerm := 0, isMerged := false }, taskQueues)
  else
    some (.kRemainsMerged, { m with leaseTerm := m.leaseTerm - 1 }, taskQueues)

/-- The task queues and the current merger, if one was constructed. -/
structure State (α : Type) where
  taskQueues : MessageLoopTaskQueues α
  merger : Option GpuThreadMerger

/-- Constructing a merger, and the calls on the current one. -/
inductive Op
  | construct
  | mergeWithLease (leaseTerm : ℕ)
  | extendLeaseTo (leaseTerm : ℕ)
  | decrementLease
deriving DecidableEq, Repr

/-- One construction or call. -/
def step (s : State α) : Op → Option (State α)
  | .construct => do
    let merger ← new platformQueueId gpuQueueId s.taskQueues
    return { s with merger := some merger }
  | .mergeWithLease leaseTerm => do
    let (merger, taskQueues) ←
      (← s.merger).mergeWithLease platformQueueId gpuQueueId s.taskQueues leaseTerm
    return { taskQueues, merger := some merger }
  | .extendLeaseTo leaseTerm => do
    return { s with merger := some (← (← s.merger).extendLeaseTo leaseTerm) }
  | .decrementLease => do
    let (_, merger, taskQueues) ← (← s.merger).decrementLease platformQueueId s.taskQueues
    return { taskQueues, merger := some merger }

end GpuThreadMerger

end Fml
