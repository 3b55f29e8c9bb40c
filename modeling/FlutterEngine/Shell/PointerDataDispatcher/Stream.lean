import FlutterEngine.Shell.PointerDataDispatcher
import FlutterEngine.Shell.VsyncWaiter.Balance

/-!
# The stream of packets is preserved

What has been dispatched, followed by the packet that is held back, is what has arrived. A secondary
callback waits as long as the dispatcher is in progress, so that a packet that is held back will be
released.

* `Ready` is what holds of the waiter, `Sound` of the dispatcher between two calls.
* `distance` counts the steps up to the next dispatch, of which there is one (`exists_advances`).
* `packets_preserved` puts both together.
-/

namespace Flutter

open Lib Option List

namespace VsyncWaiter

variable {κ σ : Type} {s t : VsyncWaiter κ σ} {a : Action κ σ}

/-- The UI thread is not about to call `AwaitVSync`. -/
structure Ready (s : VsyncWaiter κ σ) : Prop where
  balanced : s.Balanced
  accounted : s.Accounted
  secondaryCalling : s.secondaryCalling = false

lemma waiting_isRight_pos (h : s.secondaryCallback.isSome = true) : 0 < s.waiting Sum.isRight := by
  obtain ⟨callback, hset⟩ := isSome_iff_exists.mp h
  rw [waiting, Multiset.countP_pos]
  refine ⟨(s.fires, .inr callback), ?_, rfl⟩
  simp [pending, registered, hset]

/-- After a call of `ScheduleSecondaryCallback` a secondary callback waits. -/
theorem Ready.scheduleSecondary (h : s.Ready) (callback : σ) :
    ∃ t, s.scheduleSecondary callback = some t ∧ t.Ready ∧ 0 < t.waiting Sum.isRight := by
  cases hset : s.secondaryCallback with
  | none =>
    -- otherwise the one that is registered waits
    have hcall := scheduleSecondary_eq h.secondaryCalling hset callback
    refine ⟨_, hcall, ⟨?_, ?_, h.secondaryCalling⟩, waiting_isRight_pos rfl⟩
    · exact invariant_scheduleSecondary .step h.balanced hcall
    · exact invariant_scheduleSecondary .step h.accounted hcall
  | some =>
    have hsome : s.secondaryCallback.isSome = true := by
      rw [hset]
      rfl
    exact ⟨s, scheduleSecondary_of_isSome h.secondaryCalling hsome callback, h,
      waiting_isRight_pos hsome⟩

/-- The actions that leave the secondary callbacks waiting, and the UI thread without a call that
is in progress. -/
def LeavesSecondary (s : VsyncWaiter κ σ) : Action κ σ → Prop
  | .scheduleSecondaryCallback _ | .secondaryAwaitVSync => False
  | .runTask index => ∀ task ∈ s.queue[index]?, task.2.isRight = false
  | _ => True

/-- Each step of the waiter keeps it ready. -/
lemma Ready.step (h : s.Ready) (hsecondary : t.secondaryCalling = s.secondaryCalling)
    (hmoves : Moves s a t) : t.Ready :=
  ⟨h.balanced.step hmoves, h.accounted.step hmoves, hsecondary.trans h.secondaryCalling⟩

/-- A secondary callback stays until it is called. -/
lemma Ready.leavesSecondary (h : s.Ready) (hleaves : s.LeavesSecondary a)
    (hmoves : Moves s a t) : t.Ready ∧ s.waiting Sum.isRight ≤ t.waiting Sum.isRight := by
  -- a secondary callback waits until it is run, and only a callback of the other kind may be run
  have hkept : t.secondaryCalling = s.secondaryCalling ∧ ∃ new gone,
      t.accepted = s.accepted ++ new ∧ t.ran = s.ran ++ gone ∧
      gone.countP (fun task => task.2.isRight) = 0 := by
    cases hmoves with
    | asyncIgnored | asyncAwait | fire | post => exact ⟨rfl, [], [], by simp⟩
    | async callback => exact ⟨rfl, [(s.fires, .inl callback)], [], by simp⟩
    | run index task htask =>
      have hleft : task.2.isRight = false := hleaves task htask
      exact ⟨rfl, [], [task], by simp [hleft]⟩
    | secondaryIgnored | secondary | secondaryAwait => exact absurd hleaves not_false
  obtain ⟨hsecondary, new, gone, haccepted, hran, hgone⟩ := hkept
  have hready := h.step hsecondary hmoves
  have hwaiting := h.accounted.waiting_add hready.accounted Sum.isRight haccepted hran
  exact ⟨hready, by omega⟩

end VsyncWaiter

open VsyncWaiter

namespace SmoothPointerDataDispatcher

variable {κ π : Type} {s t : SmoothPointerDataDispatcher κ π} {a : Action κ π}
  {actions : List (Action κ π)}

/-- The packets that have been dispatched or are held back, in this order. -/
def stream (s : SmoothPointerDataDispatcher κ π) : List (Option π) :=
  s.dispatched.map Prod.fst ++ s.pendingPacket.toList.map some

/-- What the dispatcher's methods rely on. -/
structure Checked (s : SmoothPointerDataDispatcher κ π) : Prop where
  ready : s.waiter.Ready
  inProgress : s.pendingPacket.isSome = true → s.isPointerDataInProgress = true
  dchecks : s.dcheckFailed = false

/-- The invariant: a secondary callback waits while the dispatcher is in progress. -/
structure Sound (s : SmoothPointerDataDispatcher κ π) : Prop extends Checked s where
  waiting : s.isPointerDataInProgress = true → 0 < s.waiter.waiting Sum.isRight

/-- At first no packet is pending. -/
lemma sound_init : (init : SmoothPointerDataDispatcher κ π).Sound where
  ready := ⟨balanced_init, accounted_init, rfl⟩
  inProgress := nofun
  dchecks := rfl
  waiting := nofun

/-- The callback is scheduled and nothing else happens. -/
theorem Checked.scheduleSecondaryVsyncCallback (h : s.Checked) :
    ∃ t, s.scheduleSecondaryVsyncCallback = some t ∧ t.Sound ∧ t.stream = s.stream ∧
      t.pendingPacket = s.pendingPacket ∧
      t.isPointerDataInProgress = s.isPointerDataInProgress := by
  obtain ⟨waiter, hcall, hready, hwaiting⟩ := h.ready.scheduleSecondary ()
  refine ⟨{ s with waiter }, ?_, ⟨⟨hready, h.inProgress, h.dchecks⟩, fun _ => hwaiting⟩, rfl, rfl,
    rfl⟩
  rw [SmoothPointerDataDispatcher.scheduleSecondaryVsyncCallback, hcall]
  rfl

/-- A pending packet is dispatched. -/
lemma Checked.dispatchPendingPacket (h : s.Checked) {packet : π}
    (hpacket : s.pendingPacket = some packet) :
    ∃ t, s.dispatchPendingPacket = some t ∧ t.Sound ∧ t.stream = s.stream ∧
      t.pendingPacket = none ∧ t.isPointerDataInProgress = true := by
  have hprogress : s.isPointerDataInProgress = true := h.inProgress (by rw [hpacket]; rfl)
  have hchecked : Checked { s with
      pendingPacket := none
      pendingTraceFlowId := -1
      dispatched := s.dispatched ++ [(some packet, s.pendingTraceFlowId.signExtend 64)] } :=
    ⟨h.ready, nofun, h.dchecks⟩
  -- both checks hold, so that what is left is to schedule the callback in the new state
  obtain ⟨t, hcall, hsound, hstream, hpending, hkept⟩ := hchecked.scheduleSecondaryVsyncCallback
  refine ⟨t, ?_, hsound, ?_, hpending, hkept.trans hprogress⟩
  · rw [← hcall]
    simp [SmoothPointerDataDispatcher.dispatchPendingPacket, dcheck, doDispatchPacket, hpacket,
      hprogress, h.dchecks]
  · rw [hstream]
    simp [stream, hpacket]

/-- A packet that arrives is added to the stream. -/
theorem Checked.dispatchPacket (h : s.Checked) (packet : π) (traceFlowId : BitVec 64) :
    ∃ t, s.dispatchPacket packet traceFlowId = some t ∧ t.Sound ∧
      t.stream = s.stream ++ [some packet] := by
  rw [SmoothPointerDataDispatcher.dispatchPacket, holdOrDispatch]
  cases hprogress : s.isPointerDataInProgress with
  | true =>
    -- the packet is held back, in place of the one that is released
    have hreleased : ∃ u : SmoothPointerDataDispatcher κ π,
        (if s.pendingPacket.isSome then s.dispatchPendingPacket else some s) = some u ∧
          u.Checked ∧ u.stream = s.stream ∧ u.pendingPacket = none := by
      cases hpacket : s.pendingPacket with
      | none => exact ⟨s, rfl, h, rfl, hpacket⟩
      | some previous =>
        obtain ⟨u, hu, hsound, hstream, hnone, -⟩ := h.dispatchPendingPacket hpacket
        exact ⟨u, hu, hsound.toChecked, hstream, hnone⟩
    obtain ⟨u, hu, hchecked, hstream, hnone⟩ := hreleased
    have hchecked' : Checked { u with
        pendingPacket := some packet
        pendingTraceFlowId := traceFlowId.setWidth 32
        isPointerDataInProgress := true } := ⟨hchecked.ready, fun _ => rfl, hchecked.dchecks⟩
    obtain ⟨t, ht, hsound, htstream, -, -⟩ := hchecked'.scheduleSecondaryVsyncCallback
    refine ⟨t, ?_, hsound, ?_⟩
    · rw [if_pos rfl, hu]
      exact ht
    · rw [htstream, ← hstream]
      simp [stream, hnone]
  | false =>
    -- when idle no packet is held back, which is what the check asks for
    have hnone : s.pendingPacket = none := by
      cases hpacket : s.pendingPacket with
      | none => rfl
      | some previous =>
        cases (h.inProgress (by rw [hpacket]; rfl)).symm.trans hprogress
    have hchecked : Checked { s with
        dispatched := s.dispatched ++ [(some packet, traceFlowId)]
        isPointerDataInProgress := true } := ⟨h.ready, fun _ => rfl, h.dchecks⟩
    obtain ⟨t, ht, hsound, htstream, -, -⟩ := hchecked.scheduleSecondaryVsyncCallback
    refine ⟨t, ?_, hsound, ?_⟩
    · rw [← ht]
      simp [dcheck, doDispatchPacket, hnone, h.dchecks]
    · rw [htstream]
      simp [stream, hnone]

/-- The secondary callback releases the packet that is held back. -/
theorem Checked.onSecondaryVsync (h : s.Checked) :
    ∃ t, s.onSecondaryVsync = some t ∧ t.Sound ∧ t.stream = s.stream ∧ t.pendingPacket = none := by
  rw [SmoothPointerDataDispatcher.onSecondaryVsync]
  cases hpacket : s.pendingPacket with
  | some packet =>
    obtain ⟨t, ht, hsound, hstream, hnone, -⟩ := h.dispatchPendingPacket hpacket
    rw [if_pos (h.inProgress (by rw [hpacket]; rfl)), if_pos (by rfl)]
    exact ⟨t, ht, hsound, hstream, hnone⟩
  | none =>
    cases hprogress : s.isPointerDataInProgress with
    | true =>
      refine ⟨{ s with isPointerDataInProgress := false }, by rw [hpacket]; rfl,
        ⟨⟨h.ready, fun hsome => ?_, h.dchecks⟩, nofun⟩, rfl, hpacket⟩
      rw [hpacket] at hsome
      cases hsome
    | false =>
      refine ⟨s, rfl, ⟨h, fun htrue => ?_⟩, rfl, hpacket⟩
      rw [hprogress] at htrue
      cases htrue

/-! ## Runs -/

/-- What happens to the waiter alone leaves the callbacks of the dispatcher waiting. -/
theorem Sound.of_waiter (h : s.Sound) {a : VsyncWaiter.Action κ Unit}
    (hleaves : s.waiter.LeavesSecondary a)
    (hstep : (s.waiter.step a >>= fun waiter => some { s with waiter }) = some t) :
    t.Sound ∧ t.stream = s.stream ++ [] := by
  obtain ⟨waiter, hwaiter, rfl⟩ := exists_of_bind hstep
  have hkept := h.ready.leavesSecondary hleaves (moves_of_step hwaiter)
  refine ⟨⟨⟨hkept.1, h.inProgress, h.dchecks⟩, fun hprogress => ?_⟩, (append_nil _).symm⟩
  exact (h.waiting hprogress).trans_le hkept.2

/-- A task of the waiter keeps the account of packets. -/
lemma Sound.runTask_waiter (h : s.Sound) {index : ℕ} {waiter : VsyncWaiter κ Unit}
    (hstep : s.waiter.step (.runTask index) = some waiter) : Checked { s with waiter } := by
  have hmoves := moves_of_step hstep
  have hsecondary : waiter.secondaryCalling = s.waiter.secondaryCalling := by
    cases hmoves
    rfl
  exact ⟨h.ready.step hsecondary hmoves, h.inProgress, h.dchecks⟩

/-- Each action keeps the account of packets. -/
lemma Sound.step (h : s.Sound) (hstep : step s a = some t) :
    t.Sound ∧ t.stream = s.stream ++ (arrived [a]).map some := by
  cases a with
  | dispatchPacket packet traceFlowId =>
    obtain ⟨u, hu, hsound, hstream⟩ := h.dispatchPacket packet traceFlowId
    cases hu.symm.trans hstep
    exact ⟨hsound, hstream⟩
  | asyncWaitForVsync callback => exact h.of_waiter (a := .asyncWaitForVsync callback) trivial hstep
  | asyncAwaitVSync => exact h.of_waiter (a := .asyncAwaitVSync) trivial hstep
  | fireCallback => exact h.of_waiter (a := .fireCallback) trivial hstep
  | postTask index => exact h.of_waiter (a := .postTask index) trivial hstep
  | runTask index =>
    obtain ⟨⟨number, task⟩, htask, hrest⟩ := bind_eq_some_iff.mp hstep
    cases task with
    | inl callback =>
      refine h.of_waiter ?_ hrest
      intro task htask'
      cases htask.symm.trans htask'
      rfl
    | inr =>
      obtain ⟨waiter, hwaiter, heq⟩ := bind_eq_some_iff.mp hrest
      obtain ⟨u, hu, hsound, hstream, -⟩ := (h.runTask_waiter hwaiter).onSecondaryVsync
      -- `onSecondaryVsync` is what the step does after the task has been taken from the queue
      cases hu.symm.trans heq
      exact ⟨hsound, hstream.trans (append_nil _).symm⟩

/-- In every run no packet is lost. -/
lemma sound_of_run (h : Run step unguarded (init : SmoothPointerDataDispatcher κ π) actions s) :
    s.Sound ∧ s.stream = (arrived actions).map some := by
  induction h with
  | nil => exact ⟨sound_init, rfl⟩
  | snoc _ _ hstep ih =>
    obtain ⟨hsound, hstream⟩ := ih.1.step hstep
    refine ⟨hsound, ?_⟩
    rw [hstream, ih.2, arrived, arrived, arrived, filterMap_append, map_append]

/-- There is a callback of the dispatcher at a position of the UI task runner's queue. -/
def PostedAt (s : SmoothPointerDataDispatcher κ π) (index : ℕ) : Prop :=
  ∃ number : ℕ, s.waiter.queue[index]? = some (number, .inr ())

/-- The action brings a callback closer to the UI task runner. -/
def Advances (_ : SmoothPointerDataDispatcher κ π) : Action κ π → Prop
  | .asyncAwaitVSync | .fireCallback | .postTask _ => True
  | _ => False

/-- Each step of the waiter leads closer to the next dispatch. -/
lemma Sound.distance_lt (h : s.Sound) {a : VsyncWaiter.Action κ Unit}
    (hadvances : s.waiter.Advances a)
    (hstep : (s.waiter.step a >>= fun waiter => some { s with waiter }) = some t) :
    t.waiter.distance < s.waiter.distance := by
  obtain ⟨waiter, hwaiter, rfl⟩ := exists_of_bind hstep
  exact h.ready.balanced.distance_lt hadvances (moves_of_step hwaiter)

/-- How many steps there are up to the next dispatch. -/
lemma Sound.length_le_distance (h : s.Sound) {more : List (Action κ π)}
    (hrun : Run SmoothPointerDataDispatcher.step Advances s more t) :
    t.Sound ∧ more.length + t.waiter.distance ≤ s.waiter.distance := by
  induction hrun with
  | nil => exact ⟨h, (Nat.zero_add _).le⟩
  | @snoc _ a u v _ hadvances hstep ih =>
    have hlt : v.waiter.distance < u.waiter.distance := by
      cases a with
      | asyncAwaitVSync => exact ih.1.distance_lt (a := .asyncAwaitVSync) trivial hstep
      | fireCallback => exact ih.1.distance_lt (a := .fireCallback) trivial hstep
      | postTask index => exact ih.1.distance_lt (a := .postTask index) trivial hstep
      | dispatchPacket | asyncWaitForVsync | runTask => exact absurd hadvances not_false
    refine ⟨(ih.1.step hstep).1, ?_⟩
    rw [length_append, length_singleton]
    omega

/-- A callback of the dispatcher that waits has been posted, or something can be done about it. -/
theorem Sound.exists_advances (h : s.Sound) (hprogress : s.isPointerDataInProgress = true) :
    (∃ index, s.PostedAt index) ∨
      ∃ a, s.Advances a ∧ (SmoothPointerDataDispatcher.step s a).isSome := by
  obtain ⟨index, ⟨number, task⟩, hindex, hright⟩ | ⟨a, hadvances, ha⟩ :=
    h.ready.balanced.exists_advances (h.waiting hprogress)
  · cases task with
    | inl => cases hright
    | inr => exact .inl ⟨index, number, hindex⟩
  · obtain ⟨waiter, hwaiter⟩ := isSome_iff_exists.mp ha
    have hsome : ((some waiter).bind fun waiter => some { s with waiter }).isSome := rfl
    rw [← hwaiter] at hsome
    cases a with
    | asyncAwaitVSync => exact .inr ⟨.asyncAwaitVSync, trivial, hsome⟩
    | secondaryAwaitVSync => simp [VsyncWaiter.step, h.ready.secondaryCalling] at ha
    | fireCallback => exact .inr ⟨.fireCallback, trivial, hsome⟩
    | postTask index => exact .inr ⟨.postTask index, trivial, hsome⟩
    | asyncWaitForVsync | scheduleSecondaryCallback | runTask => exact absurd hadvances not_false

/-- Running a callback of the dispatcher releases the packet that is held back. -/
theorem Sound.runTask (h : s.Sound) {index : ℕ} (hposted : s.PostedAt index) :
    ∃ t, SmoothPointerDataDispatcher.step s (.runTask index) = some t ∧
      t.pendingPacket = none ∧ t.stream = s.stream := by
  obtain ⟨number, htask⟩ := hposted
  have hwaiter : s.waiter.step (.runTask index) = some { s.waiter with
      queue := s.waiter.queue.eraseIdx index
      ran := s.waiter.ran ++ [(number, .inr ())] } := by
    rw [VsyncWaiter.step, htask]
  obtain ⟨t, ht, -, hstream, hnone⟩ := (h.runTask_waiter hwaiter).onSecondaryVsync
  refine ⟨t, ?_, hnone, hstream⟩
  rw [SmoothPointerDataDispatcher.step, htask, hwaiter]
  exact ht

/-- What has been dispatched, followed by the packet that is held back, is what has arrived; no
`FML_DCHECK` has failed and a packet can always be dispatched. While the dispatcher is in progress,
a callback of it waits. As long as it has not been posted, something can be done about it, for at
most `distance` times, and when it is run it releases the packet that is held back. -/
theorem packets_preserved
    (h : Run step unguarded (init : SmoothPointerDataDispatcher κ π) actions s) :
    s.dispatched.map Prod.fst ++ s.pendingPacket.toList.map some = (arrived actions).map some ∧
      s.dcheckFailed = false ∧
      (∀ packet traceFlowId, (step s (.dispatchPacket packet traceFlowId)).isSome) ∧
      (s.pendingPacket.isSome = true → s.isPointerDataInProgress = true) ∧
      (s.isPointerDataInProgress = true →
        (∃ task ∈ s.waiter.pending, task.2 = .inr ()) ∧
        ((∃ index, s.PostedAt index) ∨ ∃ a, s.Advances a ∧ (step s a).isSome)) ∧
      (∀ more t, Run step Advances s more t → more.length ≤ s.waiter.distance) ∧
      ∀ index, s.PostedAt index →
        ∃ t, step s (.runTask index) = some t ∧ t.pendingPacket = none ∧ t.stream = s.stream := by
  obtain ⟨hsound, hstream⟩ := sound_of_run h
  refine ⟨hstream, hsound.dchecks, fun packet traceFlowId => ?_, hsound.inProgress,
    fun hprogress => ⟨?_, hsound.exists_advances hprogress⟩, fun more t hrun => ?_,
    fun _ => hsound.runTask⟩
  · obtain ⟨t, ht, -, -⟩ := hsound.dispatchPacket packet traceFlowId
    exact isSome_iff_exists.mpr ⟨t, ht⟩
  · obtain ⟨task, hmem, hright⟩ := Multiset.countP_pos.mp (hsound.waiting hprogress)
    exact ⟨task, hmem, Sum.isRight_iff.mp hright |>.choose_spec⟩
  · have hle := (hsound.length_le_distance hrun).2
    omega

/-- Three packets arrive between two vsyncs; the last one is held back until the vsync. -/
def threePackets : List (Action ℕ ℕ) :=
  [.dispatchPacket 1 7, .dispatchPacket 2 8, .dispatchPacket 3 9, .fireCallback, .postTask 0]

theorem packets_preserved_three : ∃ s, Run step unguarded init threePackets s ∧
    s.dispatched.map Prod.fst ++ s.pendingPacket.toList.map some = [some 1, some 2, some 3] ∧
    s.pendingPacket = some 3 ∧ ∃ t, step s (.runTask 0) = some t ∧ t.pendingPacket = none ∧
      t.stream = s.stream := by
  have hrun := run_iff_exec.mpr (show exec step unguarded
    (init : SmoothPointerDataDispatcher ℕ ℕ) threePackets = some _ from rfl)
  obtain ⟨hstream, -, -, -, -, -, hrelease⟩ := packets_preserved hrun
  exact ⟨_, hrun, hstream, rfl, hrelease 0 ⟨_, rfl⟩⟩

end SmoothPointerDataDispatcher

end Flutter
