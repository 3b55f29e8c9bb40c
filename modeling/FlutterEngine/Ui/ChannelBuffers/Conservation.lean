import FlutterEngine.Ui.ChannelBuffers

/-!
# Messages are not lost

A message leaves its buffer only at the front, and each one that leaves is handed to a drain or
dropped. So what has left a channel and what is stored there are together what has been pushed to
it, in the same order (`accounted`).

A message that is pushed to a channel with the capacity zero is neither stored nor is its callback
called. `conserved_iff` says that such a message is the only one that can be lost.
-/

namespace Ui.History

open Lib List Function Int ChannelBuffers

variable {M : Type} {dart : DartLibraries} {h h' : History M} {action : Action M}
  {channel channel' : List Char} {message : M} {newSize : ℤ}

variable {buffer : RingBuffer M} {α : Type} {actions : List (Action M)}

/-! ## What has happened on a channel -/

/-- The messages that have been pushed to a channel. -/
def pushedTo (pushed : List (List Char × M)) (channel : List Char) : List M :=
  (pushed.filter (·.1 = channel)).map Prod.snd

/-- The messages that are stored for a channel. -/
def stored (buffers : ChannelBuffers M) (channel : List Char) : List M :=
  ((buffers channel).map RingBuffer.queue).getD []

/-- The messages that have left a channel. -/
def left (events : List (Event M)) (channel : List Char) : List M :=
  (events.filter (·.channel = channel)).map Event.message

/-- The messages that have left a channel in some way. -/
def leftBy (fate : Fate) (events : List (Event M)) (channel : List Char) : List M :=
  left (events.filter (·.fate = fate)) channel

/-- The messages of a channel that have not got lost. -/
def accounted (h : History M) (channel : List Char) : List M :=
  left h.events channel ++ stored h.buffers channel

/-- The capacity that a push to a channel finds. -/
def capacity (buffers : ChannelBuffers M) (channel : List Char) : ℤ :=
  ((buffers channel).map RingBuffer.capacity).getD kDefaultBufferSize

/-- What left by two sequences of events. -/
lemma left_append (events events' : List (Event M)) (channel : List Char) :
    left (events ++ events') channel = left events channel ++ left events' channel := by
  rw [left, filter_append, map_append]
  rfl

/-- What left by events of one channel. -/
lemma left_map (messages : List M) (fate : Fate) (channel channel' : List Char) :
    left (messages.map (⟨channel', ·, fate⟩)) channel =
      if channel' = channel then messages else [] := by
  rw [left, filter_map, map_map]
  change (messages.filter fun _ => decide (channel' = channel)).map id = _
  rw [map_id]
  split
  · next heq => exact filter_eq_self.mpr fun _ _ => decide_eq_true heq
  · next hne => exact filter_eq_nil_iff.mpr fun _ _ => by simpa using hne

/-- What is stored after one buffer has changed. -/
lemma stored_update (buffers : ChannelBuffers M) (buffer : RingBuffer M)
    (channel channel' : List Char) :
    stored (update buffers channel' (some buffer)) channel =
      if channel' = channel then buffer.queue else stored buffers channel := by
  split
  · next heq =>
    rw [stored, heq, update_self]
    rfl
  · next hne =>
    rw [stored, update_of_ne (Ne.symm hne)]
    rfl

lemma stored_of_eq_some {buffers : ChannelBuffers M} (hbuffer : buffers channel = some buffer) :
    stored buffers channel = buffer.queue := by
  rw [stored, hbuffer]
  rfl

lemma stored_of_eq_none {buffers : ChannelBuffers M} (hbuffer : buffers channel = none) :
    stored buffers channel = [] := by
  rw [stored, hbuffer]
  rfl

/-! ## Steps -/

/-- A call that changes nothing loses nothing. -/
lemma accounted_after_unchanged (result : Except Failure α) :
    accounted (h.after ⟨h.buffers, [], result⟩) channel = accounted h channel := by
  rw [accounted, after, append_nil]
  rfl

section Leaving

variable {effect : Effect (ChannelBuffers M) (Event M) α} {messages new : List M} {fate : Fate}
  (hstate : effect.state = update h.buffers channel' (some buffer))
  (hemitted : effect.emitted = messages.map (⟨channel', ·, fate⟩))
include hstate hemitted

/-- Messages leave a channel from its front, and new ones are stored at its end. -/
theorem accounted_after (happend : messages ++ buffer.queue = stored h.buffers channel' ++ new) :
    accounted (h.after effect) channel =
      accounted h channel ++ if channel' = channel then new else [] := by
  rw [accounted, after, hstate, hemitted, left_append, left_map, stored_update, accounted]
  split
  · next heq => rw [append_assoc, happend, heq, append_assoc]
  · rw [append_nil, append_nil]

/-- Messages only leave a channel. -/
theorem accounted_after_nil (happend : messages ++ buffer.queue = stored h.buffers channel') :
    accounted (h.after effect) channel = accounted h channel := by
  rw [accounted_after hstate hemitted (happend.trans (append_nil _).symm), ite_self, append_nil]

end Leaving

/-- Resizing loses no message out of sight. -/
lemma accounted_resize :
    accounted (h.after (h.buffers.resize channel' newSize)) channel = accounted h channel := by
  rw [resize]
  cases hbuffer : h.buffers channel' with
  | none =>
    have hemitted : ([] : List (Event M)) = ([] : List M).map (⟨channel', ·, .dropped⟩) := rfl
    exact accounted_after_nil rfl hemitted (stored_of_eq_none hbuffer).symm
  | some buffer =>
    refine accounted_after_nil rfl rfl ?_
    rw [stored_of_eq_some hbuffer, RingBuffer.emitted_resize_append]

/-- A step of draining loses no message out of sight. -/
lemma accounted_drainStep :
    accounted (h.after (h.buffers.drainStep channel')) channel = accounted h channel := by
  rw [drainStep]
  cases hbuffer : h.buffers channel' with
  | none => exact accounted_after_unchanged _
  | some buffer =>
    dsimp only
    rw [RingBuffer.pop]
    cases hqueue : buffer.queue with
    | nil => exact accounted_after_unchanged _
    | cons message queue =>
      have hemitted : [Event.mk channel' message .handed] =
          [message].map (⟨channel', ·, .handed⟩) := rfl
      refine accounted_after_nil rfl hemitted ?_
      rw [stored_of_eq_some hbuffer, hqueue]
      rfl

/-- A control message loses no message out of sight. -/
lemma accounted_handleMessage (data : List UInt8) :
    accounted (h.after (h.buffers.handleMessage dart data)) channel = accounted h channel := by
  rw [handleMessage]
  split
  · exact accounted_after_unchanged _
  · exact accounted_resize

/-- A message that is pushed is stored, if there is some capacity. -/
theorem accounted_push (h : History M) (channel channel' : List Char) (message : M) :
    accounted (h.after (h.buffers.push channel' message)) channel = accounted h channel ++
      if channel' = channel ∧ 0 < capacity h.buffers channel' then [message] else [] := by
  obtain ⟨buffer, hbuffer⟩ : ∃ buffer, buffer =
    (h.buffers channel').getD ⟨kDefaultBufferSize, []⟩ := ⟨_, rfl⟩
  have hqueue : stored h.buffers channel' = buffer.queue := by
    rw [hbuffer, stored]
    cases h.buffers channel' <;> rfl
  have hcapacity : capacity h.buffers channel' = buffer.capacity := by
    rw [hbuffer, capacity]
    cases h.buffers channel' <;> rfl
  rw [push, ← hbuffer, hcapacity]
  rcases Int.lt_or_le 0 buffer.capacity with hpos | hnonpos
  · rw [accounted_after rfl rfl (hqueue ▸ (RingBuffer.push_of_pos hpos message).1)]
    simp only [hpos, and_true]
  · have hemitted : ([] : List (Event M)) = ([] : List M).map (⟨channel', ·, .dropped⟩) := rfl
    rw [RingBuffer.push_of_nonpos hnonpos, if_neg fun h => not_lt.mpr hnonpos h.2, append_nil]
    exact accounted_after_nil rfl hemitted hqueue.symm

/-- What was pushed to a channel. -/
lemma pushedTo_append (pushed : List (List Char × M)) (channel channel' : List Char)
    (message : M) : pushedTo (pushed ++ [(channel', message)]) channel =
      pushedTo pushed channel ++ if channel' = channel then [message] else [] := by
  rw [pushedTo, filter_append, map_append]
  split
  · next heq =>
    rw [filter_cons_of_pos (by simpa using heq)]
    rfl
  · next hne =>
    rw [filter_cons_of_neg (by simpa using hne)]
    rfl

/-- What an action does on a channel. -/
inductive Progress (h h' : History M) (channel : List Char) (action : Action M) : Prop
  | unchanged (pushed : pushedTo h'.pushed channel = pushedTo h.pushed channel)
      (accounted : accounted h' channel = accounted h channel)
  | stored {message : M}
      (pushed : pushedTo h'.pushed channel = pushedTo h.pushed channel ++ [message])
      (accounted : accounted h' channel = accounted h channel ++ [message])
  | lost {message : M} (push : action = .push channel message)
      (nonpos : capacity h.buffers channel ≤ 0)
      (pushed : pushedTo h'.pushed channel = pushedTo h.pushed channel ++ [message])
      (accounted : accounted h' channel = accounted h channel)

/-- Each action keeps account of the messages. -/
lemma progress_of_step (hstep : h.step dart action = some h') (channel : List Char) :
    Progress h h' channel action := by
  cases action with
  | push channel' message =>
    cases hstep
    have hpushed := pushedTo_append h.pushed channel channel' message
    have haccounted := accounted_push h channel channel' message
    by_cases heq : channel' = channel
    · rw [if_pos heq] at hpushed
      rcases Int.lt_or_le 0 (capacity h.buffers channel') with hpos | hnonpos
      · rw [if_pos ⟨heq, hpos⟩] at haccounted
        exact .stored hpushed haccounted
      · rw [if_neg fun h => not_lt.mpr hnonpos h.2, append_nil] at haccounted
        exact .lost (heq ▸ rfl) (heq ▸ hnonpos) hpushed haccounted
    · rw [if_neg heq, append_nil] at hpushed
      rw [if_neg fun h => heq h.1, append_nil] at haccounted
      exact .unchanged hpushed haccounted
  | resize channel' newSize =>
    cases hstep
    exact .unchanged rfl accounted_resize
  | drainStep channel' =>
    cases hstep
    exact .unchanged rfl accounted_drainStep
  | handleMessage data =>
    cases hstep
    exact .unchanged rfl (accounted_handleMessage data)

/-! ## Runs -/

/-- A push finds some capacity. -/
def Stores (h : History M) : Action M → Prop
  | .push channel _ => 0 < capacity h.buffers channel
  | _ => True

instance (h : History M) : ∀ action, Decidable (Stores h action)
  | .push channel _ => inferInstanceAs (Decidable (0 < capacity h.buffers channel))
  | .resize .. | .drainStep .. | .handleMessage .. => inferInstanceAs (Decidable True)

variable {guard : History M → Action M → Prop}

/-- Messages stay in the order in which they have been pushed. -/
theorem sublist_of_run (hrun : Run (step dart) guard init actions h) (channel : List Char) :
    (accounted h channel).Sublist (pushedTo h.pushed channel) := by
  refine hrun.invariant (P := fun h => (accounted h channel).Sublist (pushedTo h.pushed channel))
    (List.Sublist.refl _) fun s action t hsublist _ hstep => ?_
  cases progress_of_step hstep channel with
  | unchanged pushed accounted => rwa [pushed, accounted]
  | stored pushed accounted =>
    rw [pushed, accounted]
    exact hsublist.append_right _
  | lost _ _ pushed accounted =>
    rw [pushed, accounted]
    exact hsublist.trans (sublist_append_left _ _)

/-- If each push finds some capacity, no message is lost. -/
theorem accounted_of_run (hrun : Run (step dart) Stores init actions h) (channel : List Char) :
    accounted h channel = pushedTo h.pushed channel := by
  refine hrun.invariant (P := fun h => accounted h channel = pushedTo h.pushed channel) rfl
    fun s action t heq hstores hstep => ?_
  cases progress_of_step hstep channel with
  | unchanged pushed accounted => rwa [pushed, accounted]
  | stored pushed accounted => rw [pushed, accounted, heq]
  | lost push nonpos =>
    subst push
    exact absurd hstores (not_lt.mpr nonpos)

/-- A message that is pushed to a channel without any capacity is lost. -/
theorem length_lt_of_push (hnonpos : capacity h.buffers channel ≤ 0)
    (haccounted : accounted h channel = pushedTo h.pushed channel)
    (hstep : h.step dart (.push channel message) = some h') :
    (accounted h' channel).length < (pushedTo h'.pushed channel).length := by
  cases hstep
  change (accounted (h.after (h.buffers.push channel message)) channel).length <
    (pushedTo (h.pushed ++ [(channel, message)]) channel).length
  rw [accounted_push, if_neg fun hand => not_lt.mpr hnonpos hand.2, append_nil, haccounted,
    pushedTo_append, if_pos rfl, length_append]
  exact Nat.lt_succ_self _

/-- A message that is lost stays lost. -/
theorem length_lt_of_run (hrun : Run (step dart) guard h actions h')
    (hlt : (accounted h channel).length < (pushedTo h.pushed channel).length) :
    (accounted h' channel).length < (pushedTo h'.pushed channel).length := by
  refine hrun.invariant
    (P := fun h => (accounted h channel).length < (pushedTo h.pushed channel).length) hlt
    fun s action t hlt _ hstep => ?_
  cases progress_of_step hstep channel with
  | unchanged pushed accounted => rwa [pushed, accounted]
  | stored pushed accounted =>
    rw [pushed, accounted, length_append, length_append]
    exact Nat.add_lt_add_right hlt 1
  | lost _ _ pushed accounted =>
    rw [pushed, accounted, length_append]
    exact Nat.lt_add_right 1 hlt

/-- No buffer has more messages than its capacity. -/
def Bounded (buffers : ChannelBuffers M) : Prop :=
  ∀ channel buffer, buffers channel = some buffer → (buffer.queue.length : ℤ) ≤ buffer.capacity

section Bounded

variable {buffers : ChannelBuffers M}

section Resizing

variable (hbounded : Bounded buffers)

include hbounded

/-- A buffer within its capacity takes the place of another. -/
lemma Bounded.update (hbuffer : (buffer.queue.length : ℤ) ≤ buffer.capacity) :
    Bounded (update buffers channel (some buffer)) := by
  intro channel' buffer' heq
  by_cases hchannel : channel' = channel
  · rw [hchannel, update_self] at heq
    cases heq
    exact hbuffer
  · rw [update_of_ne hchannel] at heq
    exact hbounded channel' buffer' heq

lemma Bounded.getD (hbuffer : buffer = (buffers channel).getD ⟨kDefaultBufferSize, []⟩) :
    (buffer.queue.length : ℤ) ≤ buffer.capacity := by
  subst hbuffer
  cases hbuffer : buffers channel with
  | none => exact Int.one_nonneg
  | some buffer => exact hbounded channel buffer hbuffer

/-- A push keeps buffers within their capacities. -/
lemma Bounded.push : Bounded (buffers.push channel message).state := by
  rw [ChannelBuffers.push]
  obtain ⟨buffer, hbuffer⟩ : ∃ buffer, buffer =
    (buffers channel).getD ⟨kDefaultBufferSize, []⟩ := ⟨_, rfl⟩
  rw [← hbuffer]
  refine hbounded.update ?_
  rcases Int.lt_or_le 0 buffer.capacity with hpos | hnonpos
  · obtain ⟨_, hcapacity, hlength, _⟩ := RingBuffer.push_of_pos hpos message
    rwa [hcapacity]
  · rw [RingBuffer.push_of_nonpos hnonpos]
    exact hbounded.getD hbuffer

/-- A resize keeps buffers within their capacities. -/
lemma Bounded.resize (hsize : 0 ≤ newSize) : Bounded (buffers.resize channel newSize).state := by
  rw [ChannelBuffers.resize]
  cases hbuffer : buffers channel with
  | none => exact hbounded.update hsize
  | some buffer => exact hbounded.update (buffer.length_resize_le hsize)

/-- Draining keeps buffers within their capacities. -/
lemma Bounded.drainStep : Bounded (buffers.drainStep channel).state := by
  rw [ChannelBuffers.drainStep]
  cases hbuffer : buffers channel with
  | none => exact hbounded
  | some buffer =>
    dsimp only
    rw [RingBuffer.pop]
    cases hqueue : buffer.queue with
    | nil => exact hbounded
    | cons message queue =>
      have hlength := hbounded channel buffer hbuffer
      rw [hqueue, length_cons] at hlength
      exact hbounded.update (by dsimp only; omega)

end Resizing

/-- Each action keeps buffers within their capacities. -/
lemma Bounded.step (hbounded : Bounded h.buffers) (hsize : NonNegative dart h action)
    (hstep : h.step dart action = some h') : Bounded h'.buffers := by
  cases action with
  | push channel message =>
    cases hstep
    exact hbounded.push
  | resize channel newSize =>
    cases hstep
    exact hbounded.resize hsize
  | drainStep channel =>
    cases hstep
    exact hbounded.drainStep
  | handleMessage data =>
    cases hstep
    rw [handleMessage]
    cases hparse : parseCommand dart data with
    | error failure => exact hbounded
    | ok command => exact hbounded.resize (hsize command.1 command.2 hparse)

/-- In every run buffers are within their capacities. -/
lemma bounded_of_run (hrun : Run (History.step dart) (NonNegative dart) init actions h) :
    Bounded h.buffers := by
  refine hrun.invariant (P := fun h => Bounded h.buffers) ?_ fun _ _ _ => Bounded.step
  intro _ _ hnone
  cases hnone

end Bounded

/-! ## Conservation -/

/-- What left in one way is a part of what left. -/
lemma leftBy_sublist (fate : Fate) (events : List (Event M)) (channel : List Char) :
    (leftBy fate events channel).Sublist (left events channel) :=
  (filter_sublist.filter _).map _

/-- A message that leaves a channel is handed over or dropped. -/
theorem leftBy_append_perm (events : List (Event M)) (channel : List Char) :
    (leftBy .handed events channel ++ leftBy .dropped events channel).Perm
      (left events channel) := by
  have hdropped : (fun event : Event M => decide (event.fate = .dropped)) =
      fun event => !decide (event.fate = .handed) := by
    funext event
    cases event.fate <;> rfl
  rw [leftBy, leftBy, ← left_append, hdropped]
  exact ((filter_append_perm _ events).filter _).map _

/-- Each pushed message is stored, has been handed over or has been dropped, as often as it has been
pushed. -/
def Conserved (h : History M) : Prop :=
  ∀ channel, (pushedTo h.pushed channel).Perm (stored h.buffers channel ++
    leftBy .handed h.events channel ++ leftBy .dropped h.events channel)

/-- Stored, handed over or dropped: that is all. -/
lemma accounted_perm (h : History M) (channel : List Char) :
    (stored h.buffers channel ++ leftBy .handed h.events channel ++
      leftBy .dropped h.events channel).Perm (accounted h channel) := by
  rw [append_assoc]
  exact ((leftBy_append_perm _ _).append_left _).trans perm_append_comm

/-- A message is lost if and only if it is pushed to a channel that cannot store anything. In any
case messages are handed over in the order in which they have been pushed, and no buffer exceeds its
capacity. -/
theorem conserved_iff (dart : DartLibraries) (actions : List (Action M)) (h : History M)
    (hrun : Run (step dart) (NonNegative dart) init actions h) :
    (Conserved h ↔ Run (step dart) Stores init actions h) ∧
      (∀ channel, (leftBy .handed h.events channel).Sublist (pushedTo h.pushed channel)) ∧
      Bounded h.buffers := by
  refine ⟨⟨fun hconserved => ?_, fun hstores channel => ?_⟩, fun channel => ?_, bounded_of_run hrun⟩
  · -- After a first message that is lost, fewer messages are accounted for than have been pushed.
    refine hrun.guarded_or.resolve_right ?_
    rintro ⟨before, action, after, s, t, -, hbefore, hlost, hstep, hafter⟩
    cases action with
    | push channel message =>
      have hlt := length_lt_of_run hafter <|
        length_lt_of_push (not_lt.mp hlost) (accounted_of_run hbefore channel) hstep
      have hlength := ((hconserved channel).trans (accounted_perm h channel)).length_eq
      exact ne_of_lt hlt hlength.symm
    | resize | drainStep | handleMessage => exact hlost trivial
  · rw [← accounted_of_run hstores channel]
    exact (accounted_perm h channel).symm
  · refine (leftBy_sublist _ _ _).trans (List.Sublist.trans ?_ (sublist_of_run hrun channel))
    exact sublist_append_left _ _

/-- A push that overflows, and a drain. -/
theorem conserved_iff_overflow : ∃ actions, ∃ h : History ℕ,
    Run (step .decimal) (NonNegative .decimal) init actions h ∧
    Conserved h ∧ h.events = [⟨['a'], 1, .dropped⟩, ⟨['a'], 2, .handed⟩] := by
  obtain ⟨actions, hactions⟩ : ∃ actions : List (Action ℕ), actions = [.push ['a'] 1,
    .resize ['a'] 2, .push ['a'] 2, .push ['a'] 3, .drainStep ['a']] := ⟨_, rfl⟩
  obtain ⟨h, hrun, hstores, hevents⟩ : ∃ h,
      Run (step .decimal) (NonNegative .decimal) init actions h ∧
      Run (step .decimal) Stores init actions h ∧
      h.events = [⟨['a'], 1, .dropped⟩, ⟨['a'], 2, .handed⟩] := by
    subst hactions
    exact ⟨_, .cons trivial rfl <| .cons (show (0 : ℤ) ≤ 2 by decide) rfl <|
        .cons trivial rfl <| .cons trivial rfl <| .cons trivial rfl .nil,
      .cons (by decide) rfl <| .cons trivial rfl <| .cons (by decide) rfl <|
        .cons (by decide) rfl <| .cons trivial rfl .nil,
      by decide⟩
  exact ⟨actions, h, hrun, (conserved_iff .decimal actions h hrun).1.mpr hstores, hevents⟩

/-- A message that is pushed to a buffer of the size zero. -/
theorem not_conserved_zero : ∃ h : History ℕ,
    Run (step .decimal) (NonNegative .decimal) init [.resize ['a'] 0, .push ['a'] 1] h ∧
    h.pushed = [(['a'], 1)] ∧ stored h.buffers ['a'] = [] ∧ h.events = [] ∧ ¬Conserved h := by
  refine ⟨_, .cons (show (0 : ℤ) ≤ 0 from le_rfl) rfl <| .cons trivial rfl .nil, rfl, rfl, rfl,
    fun hconserved => ?_⟩
  exact absurd (hconserved ['a']).length_eq (by decide)

end Ui.History
