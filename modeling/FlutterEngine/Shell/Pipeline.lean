import FlutterEngine.Lib.Run
import Mathlib.Data.Int.Basic

/-!
# The frame pipeline

`shell/common/pipeline.h`: a queue of resources between one producer and one consumer. Two
counting semaphores account for it: `empty` holds the free slots, `available` the items a
consumer may take.

The methods of `Pipeline` are not atomic. `ProducerCommit` and `ProducerCommitFront` release
the queue mutex before they signal `available`, and `Consume` takes its token, pops the item,
runs the consumer and returns the slot in four separate steps. The machine `step` therefore has
one action per semaphore operation or locked region, and its runs are the interleavings of
these regions, with any number of calls in progress at once. `consume` is a whole call of
`Consume` with nothing in between.
-/

namespace Fml

/-- `fml::Semaphore`: a counting semaphore. -/
structure Semaphore where
  /-- The number of tokens. -/
  count : ℕ
deriving DecidableEq, Repr

namespace Semaphore

/-- `TryWait`: take a token, or fail if there is none. -/
def tryWait (sem : Semaphore) : Option Semaphore :=
  if sem.count = 0 then none else some ⟨sem.count - 1⟩

/-- `Signal`: return a token. -/
def signal (sem : Semaphore) : Semaphore := ⟨sem.count + 1⟩

@[simp]
lemma count_signal (sem : Semaphore) : sem.signal.count = sem.count + 1 := rfl

lemma tryWait_eq_some_iff {sem sem' : Semaphore} :
    sem.tryWait = some sem' ↔ sem.count = sem'.count + 1 := by
  obtain ⟨n⟩ := sem
  obtain ⟨m⟩ := sem'
  simp only [tryWait]
  split
  · simp; omega
  · simp only [Option.some.injEq, mk.injEq]
    omega

end Semaphore

end Fml

namespace Flutter

open Fml Lib

/-- What `Consume` reports. -/
inductive PipelineConsumeResult
  | noneAvailable
  | done
  | moreAvailable
deriving DecidableEq, Repr

namespace Pipeline

/-- The commit a continuation is bound to: `ProducerCommit` for `Produce` and
`ProducerCommitFront` for `ProduceToFront`. -/
inductive Commit
  | back
  | front
deriving DecidableEq, Repr

/-- A `ProducerContinuation` that still holds its `continuation_`. -/
structure ProducerContinuation where
  /-- The trace id drawn from `GetNextPipelineTraceID`, unique to this continuation. -/
  traceId : ℕ
  /-- The commit it is bound to. -/
  commit : Commit
deriving DecidableEq, Repr

/-- A pipeline of resources `R` together with the calls in progress on it. -/
structure State (R : Type*) where
  /-- `depth_` -/
  depth : ℕ
  /-- `empty_`: the free slots. -/
  empty : Semaphore
  /-- `available_`: the items that may be consumed. -/
  available : Semaphore
  /-- `inflight_`, which only feeds the trace counter. -/
  inflight : ℤ
  /-- `queue_`. The resource is `none` when the continuation was dropped without one. -/
  queue : List (Option R × ℕ)
  /-- `PipelineLastTraceID` -/
  lastTraceId : ℕ
  /-- Continuations handed out and neither completed nor destroyed. -/
  continuations : List ProducerContinuation
  /-- Commits that have left the queue mutex and not yet signalled `available`. -/
  committing : ℕ
  /-- Calls of `Consume` that hold a token of `available` and have not yet popped an item. -/
  consuming : ℕ
  /-- Calls of `Consume` that have popped an item and not yet signalled `empty`. -/
  consumed : ℕ
deriving DecidableEq, Repr

variable {R : Type*}

/-- `Pipeline(depth)` -/
def init (depth : ℕ) : State R where
  depth := depth
  empty := ⟨depth⟩
  available := ⟨0⟩
  inflight := 0
  queue := []
  lastTraceId := 0
  continuations := []
  committing := 0
  consuming := 0
  consumed := 0

namespace State

variable (s : State R)

/-- Hand out a continuation bound to `commit`, with the next trace id. -/
def bindContinuation (commit : Commit) : State R :=
  { s with
    lastTraceId := s.lastTraceId + 1
    continuations := s.continuations ++ [⟨s.lastTraceId + 1, commit⟩] }

/-- `Produce`: with no free slot it returns an empty continuation. -/
def produce : State R :=
  match s.empty.tryWait with
  | none => s
  | some empty => { s with empty, inflight := s.inflight + 1 }.bindContinuation .back

/-- `ProduceToFront`: takes no slot. -/
def produceToFront : State R := s.bindContinuation .front

/-- The locked region of `ProducerCommit`. -/
def producerCommit (resource : Option R) (traceId : ℕ) : State R :=
  { s with queue := s.queue ++ [(resource, traceId)] }

/-- The locked region of `ProducerCommitFront`: items are popped from the back until at most
`depth` are left. -/
def producerCommitFront (resource : Option R) (traceId : ℕ) : State R :=
  { s with queue := ((resource, traceId) :: s.queue).take s.depth }

/-- The outstanding continuation with this trace id. -/
def continuation? (traceId : ℕ) : Option ProducerContinuation :=
  s.continuations.find? (·.traceId = traceId)

/-- `Complete(resource)`, or the destructor with `resource = none`, up to the end of the locked
region. On a continuation that was used before, nothing happens. -/
def complete (traceId : ℕ) (resource : Option R) : State R :=
  match s.continuation? traceId with
  | none => s
  | some c =>
    let s := { s with
      continuations := s.continuations.erase c
      committing := s.committing + 1 }
    match c.commit with
    | .back => s.producerCommit resource traceId
    | .front => s.producerCommitFront resource traceId

/-- The last step of a commit: `available_.Signal()`. -/
def signalAvailable : Option (State R) :=
  if s.committing = 0 then none
  else some { s with committing := s.committing - 1, available := s.available.signal }

/-- The first step of `Consume`: `available_.TryWait()`. -/
def tryConsume : State R :=
  match s.available.tryWait with
  | none => s
  | some available => { s with available, consuming := s.consuming + 1 }

/-- The locked region of `Consume`. `front()` and `pop_front()` on an empty deque are
undefined, which is the `none` of the inner match. -/
def popFront : Option ((Option R × ℕ) × State R) :=
  if s.consuming = 0 then none
  else match s.queue with
    | [] => none
    | item :: queue =>
      some (item, { s with queue, consuming := s.consuming - 1, consumed := s.consumed + 1 })

/-- The last step of `Consume`, after the consumer has run: `empty_.Signal()`. -/
def signalEmpty : Option (State R) :=
  if s.consumed = 0 then none
  else some { s with
    consumed := s.consumed - 1
    empty := s.empty.signal
    inflight := s.inflight - 1 }

/-- A whole call of `Consume`: the result, the item handed to the consumer and the state
after. `none` is undefined behavior. -/
def consume (hasConsumer : Bool) :
    Option (PipelineConsumeResult × Option (Option R × ℕ) × State R) :=
  if hasConsumer = false then some (.noneAvailable, none, s)
  else match s.available.tryWait with
    | none => some (.noneAvailable, none, s)
    | some _ => do
      let (item, s) ← s.tryConsume.popFront
      let itemsCount := s.queue.length
      let s ← s.signalEmpty
      return (if itemsCount > 0 then .moreAvailable else .done, some item, s)

end State

/-- The atomic actions on a pipeline. -/
inductive Action (R : Type*)
  | produce
  | produceToFront
  | complete (traceId : ℕ) (resource : Option R)
  | signalAvailable
  | tryConsume
  | popFront
  | signalEmpty
deriving DecidableEq, Repr

/-- One atomic action. -/
def step (s : State R) : Action R → Option (State R)
  | .produce => some s.produce
  | .produceToFront => some s.produceToFront
  | .complete traceId resource => some (s.complete traceId resource)
  | .signalAvailable => s.signalAvailable
  | .tryConsume => some s.tryConsume
  | .popFront => s.popFront.map Prod.snd
  | .signalEmpty => s.signalEmpty

/-- A whole call of `Consume` is a run of its atomic actions. -/
theorem State.consume_run {s t : State R} {hasConsumer : Bool} {result : PipelineConsumeResult}
    {item : Option (Option R × ℕ)} (h : s.consume hasConsumer = some (result, item, t)) :
    ∃ as, Run step unguarded s as t := by
  unfold State.consume at h
  split at h
  · obtain ⟨-, -, rfl⟩ : _ = result ∧ _ = item ∧ s = t := by simpa using h
    exact ⟨[], .nil⟩
  · split at h
    · obtain ⟨-, -, rfl⟩ : _ = result ∧ _ = item ∧ s = t := by simpa using h
      exact ⟨[], .nil⟩
    · simp only [Option.bind_eq_bind, Option.bind_eq_some_iff] at h
      obtain ⟨⟨popped, s'⟩, hpop, t', hsignal, h⟩ := h
      obtain ⟨-, -, rfl⟩ : _ = result ∧ _ = item ∧ t' = t := by simpa using h
      exact ⟨[.tryConsume, .popFront, .signalEmpty], .cons trivial rfl
        (.cons trivial (by simp [step, hpop]) (.cons trivial hsignal .nil))⟩

end Pipeline

end Flutter
