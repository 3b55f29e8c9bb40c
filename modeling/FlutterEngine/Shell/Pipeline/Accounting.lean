import FlutterEngine.Shell.Pipeline

/-!
# Token accounting of the frame pipeline

`Ledger` keeps the seven quantities the semaphores of a pipeline account for, and each action
moves tokens between them (`ledger_produce`, …, `step_ledger`). Two conservation laws are read
off the ledger:

* `available + committing + consuming = queued` (`TokensBacked`), kept by every action except a
  front commit into a full queue, which drops an item and signals `available` all the same;
* `free + reserved + queued + consumed = depth` (`SlotsConserved`), kept by every action except
  a front commit into a queue with room, which adds an item that took no slot.

`available_le_queue_length` and `reserved_add_queue_length_le_depth` are the resulting
statements about runs. The excepted commits are the only obstacle and a real one: after the
first of them some continuation of the run breaks the bound (`exists_run_available_gt`,
`exists_run_gt_depth`), as the runs `pushToFrontRun` and `resubmitRun` show.
-/

namespace Flutter.Pipeline

open Fml Lib Option List Semaphore

variable {R : Type*}
variable {s t : State R} {a : Action R} {depth : ℕ} {as : List (Action R)}

/-- The quantities the semaphores account for. -/
@[ext]
structure Ledger where
  /-- Tokens of `empty`. -/
  free : ℕ
  /-- Outstanding continuations of `Produce`. -/
  reserved : ℕ
  /-- Items in the queue. -/
  queued : ℕ
  /-- Commits that have not signalled `available` yet. -/
  committing : ℕ
  /-- Tokens of `available`. -/
  available : ℕ
  /-- Consumers that hold a token and have not popped yet. -/
  consuming : ℕ
  /-- Consumers that have popped and not signalled `empty` yet. -/
  consumed : ℕ

namespace State

/-- The number of outstanding continuations of `Produce`. -/
def reserved (s : State R) : ℕ := s.continuations.countP (·.commit = .back)

/-- The ledger of a pipeline. -/
def ledger (s : State R) : Ledger where
  free := s.empty.count
  reserved := s.reserved
  queued := s.queue.length
  committing := s.committing
  available := s.available.count
  consuming := s.consuming
  consumed := s.consumed

/-- Whether `a` runs `ProducerCommitFront`. -/
def commitsFront (s : State R) : Action R → Bool
  | .complete traceId _ => (s.continuation? traceId).any (·.commit = .front)
  | _ => false

end State

/-! ## What each action does to the ledger -/

/-- The token moves of a pipeline of the given depth. The flag marks the front commits. -/
inductive LedgerStep (depth : ℕ) : Bool → Ledger → Ledger → Prop
  /-- A failed `TryWait`, a call of `ProduceToFront`, or a continuation used before. -/
  | idle (l : Ledger) : LedgerStep depth false l l
  /-- `Produce` -/
  | reserve (l : Ledger) : 0 < l.free →
      LedgerStep depth false l { l with free := l.free - 1, reserved := l.reserved + 1 }
  /-- `ProducerCommit` -/
  | commitBack (l : Ledger) : 0 < l.reserved →
      LedgerStep depth false l
        { l with
          reserved := l.reserved - 1
          queued := l.queued + 1
          committing := l.committing + 1 }
  /-- `ProducerCommitFront` -/
  | commitFront (l : Ledger) :
      LedgerStep depth true l
        { l with queued := min depth (l.queued + 1), committing := l.committing + 1 }
  | signalAvailable (l : Ledger) : 0 < l.committing →
      LedgerStep depth false l
        { l with committing := l.committing - 1, available := l.available + 1 }
  | tryConsume (l : Ledger) : 0 < l.available →
      LedgerStep depth false l
        { l with available := l.available - 1, consuming := l.consuming + 1 }
  | popFront (l : Ledger) : 0 < l.consuming → 0 < l.queued →
      LedgerStep depth false l
        { l with
          consuming := l.consuming - 1
          queued := l.queued - 1
          consumed := l.consumed + 1 }
  | signalEmpty (l : Ledger) : 0 < l.consumed →
      LedgerStep depth false l { l with consumed := l.consumed - 1, free := l.free + 1 }

open State

/-- `Produce` in the ledger. -/
lemma produce_ledger (s : State R) : LedgerStep s.depth false s.ledger s.produce.ledger := by
  unfold produce
  split
  · exact .idle _
  · rename_i empty hwait
    rw [tryWait_eq_some_iff] at hwait
    have hmove := @LedgerStep.reserve s.depth s.ledger (by simp [ledger, hwait])
    simpa [ledger, reserved, bindContinuation, countP_append, hwait] using hmove

/-- `ProduceToFront` in the ledger. -/
lemma produceToFront_ledger (s : State R) :
    LedgerStep s.depth false s.ledger s.produceToFront.ledger := by
  have hmove : LedgerStep s.depth false s.ledger s.ledger := .idle s.ledger
  simpa [ledger, reserved, produceToFront, bindContinuation, countP_append] using hmove

/-- Erasing an outstanding continuation gives back its reservation, if it holds one. -/
theorem countP_erase_add {cs : List ProducerContinuation} {c : ProducerContinuation} (hc : c ∈ cs) :
    (cs.erase c).countP (·.commit = .back) + (if c.commit = .back then 1 else 0) =
      cs.countP (·.commit = .back) := by
  rw [(perm_cons_erase hc).countP_eq, countP_cons]
  simp

/-- A commit in the ledger. -/
lemma complete_ledger (s : State R) (traceId : ℕ) (resource : Option R) :
    LedgerStep s.depth (s.commitsFront (.complete traceId resource)) s.ledger
      (s.complete traceId resource).ledger := by
  cases hfind : s.continuation? traceId with
  | none => simpa [complete, commitsFront, hfind] using LedgerStep.idle s.ledger
  | some c =>
    have herase := countP_erase_add (mem_of_find?_eq_some hfind)
    cases hcommit : c.commit with
    | back =>
      rw [hcommit, if_pos rfl] at herase
      have hpos : 0 < s.ledger.reserved := by
        show 0 < s.reserved
        rw [reserved, ← herase]
        exact Nat.succ_pos _
      have hmove := @LedgerStep.commitBack s.depth s.ledger hpos
      simpa [complete, commitsFront, hfind, hcommit, producerCommit, ledger, reserved, ← herase]
        using hmove
    | front =>
      rw [hcommit, if_neg (by decide), Nat.add_zero] at herase
      have hmove := @LedgerStep.commitFront s.depth s.ledger
      simpa [complete, commitsFront, hfind, hcommit, producerCommitFront, ledger, reserved, herase]
        using hmove

/-- A signal for a consumer in the ledger. -/
lemma signalAvailable_ledger (h : s.signalAvailable = some t) :
    LedgerStep s.depth false s.ledger t.ledger := by
  unfold signalAvailable at h
  split at h
  · cases h
  · obtain rfl := some.inj h
    exact .signalAvailable s.ledger (by simp [ledger]; omega)

/-- A consumer that waits in the ledger. -/
lemma tryConsume_ledger (s : State R) : LedgerStep s.depth false s.ledger s.tryConsume.ledger := by
  unfold tryConsume
  split
  · exact .idle _
  · rename_i available hwait
    rw [tryWait_eq_some_iff] at hwait
    have hmove := @LedgerStep.tryConsume s.depth s.ledger (by simp [ledger, hwait])
    simpa [ledger, reserved, hwait] using hmove

/-- An item that is consumed in the ledger. -/
lemma popFront_ledger {item : Option R × ℕ} (h : s.popFront = some (item, t)) :
    LedgerStep s.depth false s.ledger t.ledger := by
  unfold popFront at h
  split at h
  · cases h
  · split at h
    · cases h
    · rename_i hconsuming _ _ hqueue
      obtain ⟨rfl, rfl⟩ := Prod.mk.inj (some.inj h)
      have hmove := @LedgerStep.popFront s.depth s.ledger
        (by simp [ledger]; omega) (by simp [ledger, hqueue])
      simpa [ledger, reserved, hqueue] using hmove

/-- A signal for a producer in the ledger. -/
lemma signalEmpty_ledger (h : s.signalEmpty = some t) :
    LedgerStep s.depth false s.ledger t.ledger := by
  unfold signalEmpty at h
  split at h
  · cases h
  · obtain rfl := some.inj h
    exact .signalEmpty s.ledger (by simp [ledger]; omega)

/-- Every action of the pipeline is a token move of its ledger. -/
theorem step_ledger (h : step s a = some t) :
    LedgerStep s.depth (s.commitsFront a) s.ledger t.ledger := by
  cases a with
  | produce => obtain rfl := some.inj h; exact produce_ledger s
  | produceToFront => obtain rfl := some.inj h; exact produceToFront_ledger s
  | complete traceId resource =>
    obtain rfl := some.inj h
    exact complete_ledger s traceId resource
  | signalAvailable => exact signalAvailable_ledger h
  | tryConsume => obtain rfl := some.inj h; exact tryConsume_ledger s
  | popFront =>
    obtain ⟨⟨item, t'⟩, hpop, rfl⟩ := map_eq_some_iff.mp h
    exact popFront_ledger hpop
  | signalEmpty => exact signalEmpty_ledger h

/-- The depth stays. -/
lemma step_depth (h : step s a = some t) : t.depth = s.depth := by
  cases a with
  | produce =>
    obtain rfl := some.inj h
    unfold produce
    split <;> rfl
  | produceToFront => obtain rfl := some.inj h; rfl
  | complete traceId resource =>
    obtain rfl := some.inj h
    unfold complete
    split
    · rfl
    · dsimp only
      split <;> rfl
  | signalAvailable =>
    simp only [step, signalAvailable] at h
    split at h <;> cases h
    rfl
  | tryConsume =>
    obtain rfl := some.inj h
    unfold tryConsume
    split <;> rfl
  | popFront =>
    obtain ⟨⟨item, t'⟩, hpop, rfl⟩ := map_eq_some_iff.mp h
    simp only [State.popFront] at hpop
    split at hpop
    · cases hpop
    · split at hpop <;> cases hpop
      rfl
  | signalEmpty =>
    simp only [step, signalEmpty] at h
    split at h <;> cases h
    rfl

/-- A pipeline keeps the depth it was constructed with. -/
theorem run_depth {guard : State R → Action R → Prop} (h : Run step guard (init depth) as s) :
    s.depth = depth :=
  h.invariant (P := fun s => s.depth = depth) rfl fun _ _ _ ih _ hs => (step_depth hs).trans ih

/-! ## Tokens of `available` are backed by items -/

/-- Every token of `available`, whether still in the semaphore, about to be signalled or held
by a consumer, stands for one item of the queue. -/
def TokensBacked (s : State R) : Prop :=
  s.ledger.available + s.ledger.committing + s.ledger.consuming = s.ledger.queued

/-- The action is no front commit, or the queue has room for the item it adds. -/
def FrontCommitFits (s : State R) (a : Action R) : Prop :=
  s.commitsFront a = true → s.queue.length < s.depth

instance (s : State R) (a : Action R) : Decidable (FrontCommitFits s a) :=
  inferInstanceAs (Decidable (_ → _))

/-- Each step that fits keeps the tokens backed. -/
lemma TokensBacked.step (hs : TokensBacked s) (hfits : FrontCommitFits s a)
    (h : step s a = some t) : TokensBacked t := by
  have hmove := step_ledger h
  unfold TokensBacked FrontCommitFits at *
  generalize s.commitsFront a = front at hmove hfits
  have hroom : s.queue.length = s.ledger.queued := rfl
  generalize t.ledger = l' at hmove ⊢
  cases hmove <;> simp_all <;> omega

/-- In runs that fit the tokens are backed. -/
lemma tokensBacked_of_run (h : Run step FrontCommitFits (init depth) as s) : TokensBacked s :=
  h.invariant (by simp [TokensBacked, ledger, init]) fun _ _ _ hs hfits hstep => hs.step hfits hstep

/-- In every run whose front commits all find room in the queue, the tokens of `available`
never outnumber the items of the queue, so a successful `available_.TryWait()` finds an item,
and the item is still there when the consumer comes to pop it. -/
theorem available_le_queue_length {depth : ℕ} {as : List (Action R)} {s : State R}
    (h : Run step FrontCommitFits (init depth) as s) :
    s.available.count ≤ s.queue.length ∧
      (∀ available, s.available.tryWait = some available → s.queue ≠ []) ∧
      (0 < s.consuming → ∃ item t, s.popFront = some (item, t)) := by
  have hcount : s.available.count + s.committing + s.consuming = s.queue.length :=
    tokensBacked_of_run h
  refine ⟨by omega, ?_, ?_⟩
  · intro available hwait hnil
    rw [tryWait_eq_some_iff] at hwait
    rw [hnil, length_nil] at hcount
    omega
  · intro hconsuming
    cases hqueue : s.queue with
    | nil =>
      rw [hqueue, length_nil] at hcount
      omega
    | cons item queue =>
      simp [popFront, hqueue, Nat.ne_of_gt hconsuming]

/-- With more tokens than items, letting the commits signal and the consumers pop leaves a
token without an item. -/
theorem exists_run_of_tokens_gt (n : ℕ) : ∀ s : State R, s.committing + s.consuming = n →
      s.queue.length < s.available.count + s.committing + s.consuming →
      ∃ as t, Run step unguarded s as t ∧
        (t.queue.length < t.available.count ∨ 0 < t.consuming ∧ t.queue = []) := by
  induction n with
  | zero =>
    intro s hn htokens
    exact ⟨[], s, .nil, .inl (by omega)⟩
  | succ n ih =>
    intro s hn htokens
    by_cases hcommitting : s.committing = 0
    · cases hqueue : s.queue with
      | nil => exact ⟨[], s, .nil, .inr ⟨by omega, hqueue⟩⟩
      | cons item queue =>
        rw [hqueue, length_cons] at htokens
        obtain ⟨as, t, hrun, ht⟩ := ih
          { s with queue, consuming := s.consuming - 1, consumed := s.consumed + 1 }
          (by simp only; omega) (by simp only; omega)
        refine ⟨.popFront :: as, t, .cons trivial ?_ hrun, ht⟩
        simp [step, popFront, hqueue, show s.consuming ≠ 0 by omega]
    · obtain ⟨as, t, hrun, ht⟩ := ih
        { s with committing := s.committing - 1, available := s.available.signal }
        (by simp only; omega) (by simp only [count_signal]; omega)
      refine ⟨.signalAvailable :: as, t, .cons trivial ?_ hrun, ht⟩
      simp [step, signalAvailable, hcommitting]

/-- After the first front commit into a full queue there are more tokens than items. -/
theorem exists_run_available_gt (h : Run step FrontCommitFits (init depth) as s)
    (hfull : ¬ FrontCommitFits s a) (hstep : step s a = some t) :
    ∃ bs u, Run step unguarded t bs u ∧
      (u.queue.length < u.available.count ∨ 0 < u.consuming ∧ u.queue = []) := by
  have hbacked : s.ledger.available + s.ledger.committing + s.ledger.consuming =
    s.ledger.queued := tokensBacked_of_run h
  have hmove := step_ledger hstep
  obtain ⟨hfront, hdepth⟩ := Classical.not_imp.mp hfull
  rw [hfront] at hmove
  refine exists_run_of_tokens_gt _ t rfl ?_
  show t.ledger.queued < t.ledger.available + t.ledger.committing + t.ledger.consuming
  have hqueued : s.queue.length = s.ledger.queued := rfl
  generalize t.ledger = l' at hmove ⊢
  cases hmove with
  | commitFront =>
    simp only
    omega

/-- The resource was completed and `available` signalled. -/
private def commitRun (traceId resource : ℕ) : List (Action ℕ) :=
  [.complete traceId (some resource), .signalAvailable]

/-- One whole call of `Consume`. -/
private def consumeRun : List (Action ℕ) := [.tryConsume, .popFront, .signalEmpty]

/-- The run of the unit test `PushingToFrontDropsLastResource`, up to its first `Consume`. -/
def pushToFrontRun : List (Action ℕ) :=
  [.produce, .produce, .produceToFront] ++ commitRun 1 1 ++ commitRun 2 2 ++ commitRun 3 3

/-- A commit to the front of a full queue. -/
theorem exists_run_available_gt_pushToFront : ∃ s t : State ℕ,
    Run step FrontCommitFits (init 1) ([.produce, .produceToFront] ++ commitRun 1 1) s ∧
    step s (.complete 2 (some 2)) = some t ∧ ∃ bs u, Run step unguarded t bs u ∧
      (u.queue.length < u.available.count ∨ 0 < u.consuming ∧ u.queue = []) := by
  have h := run_iff_exec.mpr (rfl : exec step FrontCommitFits (init 1)
    ([.produce, .produceToFront] ++ commitRun 1 1) = some _)
  exact ⟨_, _, h, rfl, exists_run_available_gt (a := .complete 2 (some 2)) h (by decide) rfl⟩

/-- `pushToFrontRun` leaves three tokens for two items. Once both items are consumed,
`available_.TryWait()` succeeds on an empty queue and the pop that follows is undefined. -/
theorem pushToFrontRun_available_gt_queue :
    (∃ s : State ℕ, Run step unguarded (init 2) pushToFrontRun s ∧
      s.queue.length < s.available.count) ∧
    ∃ s : State ℕ,
      Run step unguarded (init 2) (pushToFrontRun ++ consumeRun ++ consumeRun) s ∧
        s.queue = [] ∧ s.available.tryWait = some ⟨0⟩ ∧ s.tryConsume.popFront = none := by
  simp only [run_iff_exec]
  exact ⟨⟨_, rfl, by decide⟩, ⟨_, rfl, by decide, by decide, by decide⟩⟩

/-- `available_le_queue_length` on a run with a front commit that fits. -/
theorem available_le_queue_length_produceToFront :
    ∃ s : State ℕ, Run step FrontCommitFits (init 2)
      ([.produce, .produceToFront] ++ commitRun 1 1 ++ commitRun 2 2) s ∧
        s.available.count ≤ s.queue.length := by
  have h := run_iff_exec.mpr (rfl : exec step FrontCommitFits (init 2)
    ([.produce, .produceToFront] ++ commitRun 1 1 ++ commitRun 2 2) = some _)
  exact ⟨_, h, (available_le_queue_length h).1⟩

/-! ## Slots of `empty` bound the frames in flight -/

/-- The free slots, the reserved ones, the queued items and the items being consumed add up to
`depth`. -/
def SlotsConserved (s : State R) : Prop :=
  s.ledger.free + s.ledger.reserved + s.ledger.queued + s.ledger.consumed = s.depth

/-- The action is no front commit, or the queue is full, so that the item it adds replaces the
one it drops. -/
def FrontCommitReplaces (s : State R) (a : Action R) : Prop :=
  s.commitsFront a = true → s.depth ≤ s.queue.length

instance (s : State R) (a : Action R) : Decidable (FrontCommitReplaces s a) :=
  inferInstanceAs (Decidable (_ → _))

/-- Each step that replaces keeps the slots. -/
lemma SlotsConserved.step (hs : SlotsConserved s) (hreplaces : FrontCommitReplaces s a)
    (h : step s a = some t) : SlotsConserved t := by
  have hmove := step_ledger h
  have hdepth := step_depth h
  unfold SlotsConserved FrontCommitReplaces at *
  generalize s.commitsFront a = front at hmove hreplaces
  have hfull : s.queue.length = s.ledger.queued := rfl
  generalize t.ledger = l' at hmove ⊢
  cases hmove <;> simp_all <;> omega

/-- In runs that replace the slots are kept. -/
lemma slotsConserved_of_run (h : Run step FrontCommitReplaces (init depth) as s) :
    SlotsConserved s :=
  h.invariant (by simp [SlotsConserved, ledger, reserved, init])
    fun _ _ _ hs hreplaces hstep => hs.step hreplaces hstep

/-- The action is not the locked region of a `Consume` that finds the queue empty. What
`pop_front()` does then is undefined, and `empty` is signalled for an item that was not there. -/
def PopsItem (s : State R) : Action R → Prop
  | .popFront => s.queue ≠ []
  | _ => True

instance (s : State R) : ∀ a, Decidable (PopsItem s a)
  | .popFront => inferInstanceAs (Decidable (s.queue ≠ []))
  | .produce | .produceToFront | .complete .. | .signalAvailable | .tryConsume | .signalEmpty =>
    inferInstanceAs (Decidable True)

/-- Front commits replace an item of a full queue, and `Consume` finds an item. -/
def KeepsSlots (s : State R) (a : Action R) : Prop := FrontCommitReplaces s a ∧ PopsItem s a

instance (s : State R) (a : Action R) : Decidable (KeepsSlots s a) :=
  inferInstanceAs (Decidable (_ ∧ _))

/-- In every run whose front commits all replace an item of a full queue and in which no `Consume`
finds the queue empty, the outstanding continuations of `Produce` and the queued items together
are at most `depth`, and so are the tokens of `empty`. -/
theorem reserved_add_queue_length_le_depth {depth : ℕ} {as : List (Action R)} {s : State R}
    (h : Run step KeepsSlots (init depth) as s) :
    s.reserved + s.queue.length ≤ depth ∧ s.empty.count ≤ depth := by
  have hcount : s.empty.count + s.reserved + s.queue.length + s.consumed = s.depth :=
    slotsConserved_of_run (h.mono fun _ _ hkeeps => hkeeps.1)
  rw [run_depth h] at hcount
  omega

/-- The slots held by consumers and the free ones can all be turned into reservations. -/
theorem exists_run_reserved (n : ℕ) : ∀ s : State R, 2 * s.consumed + s.empty.count = n →
      ∃ as t, Run step unguarded s as t ∧
        t.reserved + t.queue.length = s.empty.count + s.reserved + s.queue.length + s.consumed := by
  induction n using Nat.strong_induction_on with
  | _ n ih =>
    intro s hn
    by_cases hconsumed : s.consumed = 0
    · by_cases hfree : s.empty.count = 0
      · exact ⟨[], s, .nil, by omega⟩
      · have hwait : s.empty.tryWait = some ⟨s.empty.count - 1⟩ := by
          rw [tryWait_eq_some_iff]
          simp only
          omega
        obtain ⟨as, t, hrun, ht⟩ := ih (n - 1) (by omega) s.produce
          (by simp only [produce, hwait, bindContinuation]; omega)
        refine ⟨.produce :: as, t, .cons trivial rfl hrun, ?_⟩
        rw [ht]
        simp [produce, hwait, bindContinuation, reserved, countP_append]
        omega
    · obtain ⟨as, t, hrun, ht⟩ := ih (n - 1) (by omega)
        { s with
          consumed := s.consumed - 1
          empty := s.empty.signal
          inflight := s.inflight - 1 }
        (by simp only [count_signal]; omega)
      refine ⟨.signalEmpty :: as, t, .cons trivial ?_ hrun, ?_⟩
      · simp [step, signalEmpty, hconsumed]
      · rw [ht]
        simp only [count_signal, reserved]
        omega

/-- After the first front commit into a queue with room, the frames in flight can exceed the
depth. -/
theorem exists_run_gt_depth (h : Run step FrontCommitReplaces (init depth) as s)
    (hroom : ¬ FrontCommitReplaces s a) (hstep : step s a = some t) :
    ∃ bs u, Run step unguarded t bs u ∧ depth < u.reserved + u.queue.length := by
  have hslots : s.ledger.free + s.ledger.reserved + s.ledger.queued + s.ledger.consumed =
    s.depth := slotsConserved_of_run h
  have hmove := step_ledger hstep
  obtain ⟨hfront, hdepth⟩ := Classical.not_imp.mp hroom
  rw [hfront] at hmove
  obtain ⟨bs, u, hrun, hu⟩ := exists_run_reserved _ t rfl
  refine ⟨bs, u, hrun, ?_⟩
  rw [hu, ← run_depth h]
  show s.depth < t.ledger.free + t.ledger.reserved + t.ledger.queued + t.ledger.consumed
  have hqueued : s.queue.length = s.ledger.queued := rfl
  generalize t.ledger = l' at hmove ⊢
  cases hmove with
  | commitFront =>
    simp only
    omega

/-- `Rasterizer::Draw` twice on one frame: the frame is consumed, resubmitted to the front and
consumed again. -/
def resubmitRun : List (Action ℕ) :=
  [.produce] ++ commitRun 1 1 ++ consumeRun ++ [.produceToFront] ++ commitRun 2 1 ++ consumeRun

/-- A commit to the front of an empty queue. -/
theorem exists_run_gt_depth_resubmit : ∃ s t : State ℕ,
    Run step FrontCommitReplaces (init 1) [.produceToFront] s ∧
    step s (.complete 1 (some 1)) = some t ∧
      ∃ bs u, Run step unguarded t bs u ∧ 1 < u.reserved + u.queue.length := by
  have h : Run step FrontCommitReplaces (init (R := ℕ) 1) [.produceToFront] _ :=
    .snoc .nil (by decide) rfl
  exact ⟨_, _, h, rfl, exists_run_gt_depth (a := .complete 1 (some 1)) h (by decide) rfl⟩

/-- After `resubmitRun` a pipeline of depth 1 has two free slots, and two calls of `Produce`
then get a continuation each. -/
theorem resubmitRun_exceeds_depth :
    (∃ s : State ℕ, Run step unguarded (init 1) resubmitRun s ∧ s.empty.count = 2) ∧
    ∃ s : State ℕ, Run step unguarded (init 1) (resubmitRun ++ [.produce, .produce]) s ∧
      s.reserved + s.queue.length = 2 := by
  simp only [run_iff_exec]
  exact ⟨⟨_, rfl, by decide⟩, ⟨_, rfl, by decide⟩⟩

/-- `reserved_add_queue_length_le_depth` on a run with a front commit into a full queue, of which
the two items are then consumed. -/
theorem reserved_add_queue_length_le_depth_pushToFront :
    ∃ s : State ℕ, Run step KeepsSlots (init 2) (pushToFrontRun ++ consumeRun ++ consumeRun) s ∧
      s.reserved + s.queue.length ≤ 2 ∧ s.empty.count ≤ 2 := by
  have h := run_iff_exec.mpr (rfl : exec step KeepsSlots (init 2)
    (pushToFrontRun ++ consumeRun ++ consumeRun) = some _)
  exact ⟨_, h, reserved_add_queue_length_le_depth h⟩

end Flutter.Pipeline
