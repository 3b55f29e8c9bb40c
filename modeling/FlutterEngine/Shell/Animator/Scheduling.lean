import FlutterEngine.Shell.Animator
import FlutterEngine.Shell.VsyncWaiter.Balance

/-!
# Frames that are requested are begun

The token of `pending_frame_semaphore_` is either there or stands for one request: a task that will
call `AwaitVSync`, or the callback that the waiter holds, fires or has posted (`Sound`). A layer
tree that has to be regenerated has such a request unless the animator is paused, and only
`BeginFrame` makes that unnecessary.

* `Sound` is about the animator alone, `Scheduled` about the animator with its waiter.
* `distance` counts the steps up to the next frame.
* `requests_never_stall` says that a frame that was requested is begun.
-/

namespace Flutter

open Lib Fml Option List Semaphore Sum

namespace Animator

variable {s : Animator} {inFlight : ℕ}

/-- There is one token, for at most one request of which `inFlight` are with the waiter. A layer
tree that has to be regenerated is requested unless the animator is paused. -/
structure Sound (s : Animator) (inFlight : ℕ) : Prop where
  tokens : s.pendingFrameSemaphore.count + s.awaitTasks + inFlight = 1
  requested : s.regenerateLayerTree = true → s.paused = false → s.pendingFrameSemaphore.count = 0

/-- At first one token is free. -/
lemma sound_init : init.Sound 0 := ⟨rfl, nofun⟩

/-- A request takes the token, unless the animator is paused or there is none. -/
theorem requestFrame_eq (s : Animator) (regenerate : Bool) :
    (s.paused = true ∨ s.pendingFrameSemaphore.count = 0) ∧
        s.requestFrame regenerate =
          { s with regenerateLayerTree := s.regenerateLayerTree || regenerate } ∨
      ∃ semaphore : Semaphore, s.pendingFrameSemaphore.count = semaphore.count + 1 ∧
        s.requestFrame regenerate = { s with
          regenerateLayerTree := s.regenerateLayerTree || regenerate
          pendingFrameSemaphore := semaphore
          awaitTasks := s.awaitTasks + 1
          frameScheduled := true } := by
  have hmarked : (if regenerate then { s with regenerateLayerTree := true } else s) =
      { s with regenerateLayerTree := s.regenerateLayerTree || regenerate } := by
    cases regenerate <;> simp
  simp only [requestFrame, hmarked]
  split
  · next hpaused =>
    rw [Bool.and_eq_true] at hpaused
    exact .inl ⟨.inl hpaused.1, rfl⟩
  · cases hwait : s.pendingFrameSemaphore.tryWait with
    | none =>
      rw [tryWait] at hwait
      split at hwait
      · next hcount => exact .inl ⟨.inr hcount, rfl⟩
      · cases hwait
    | some semaphore => exact .inr ⟨semaphore, tryWait_eq_some_iff.mp hwait, rfl⟩

/-- A request awaits vsync once. -/
lemma sound_requestFrame (htokens : s.pendingFrameSemaphore.count + s.awaitTasks + inFlight = 1)
    (regenerate : Bool) : (s.requestFrame regenerate).Sound inFlight := by
  obtain ⟨hkept, heq⟩ | ⟨semaphore, hcount, heq⟩ := s.requestFrame_eq regenerate
  · rw [heq]
    refine ⟨htokens, fun _ hnot => ?_⟩
    obtain hpaused | hnone := hkept
    · cases hpaused.symm.trans hnot
    · exact hnone
  · rw [heq]
    refine ⟨?_, fun _ _ => ?_⟩ <;> dsimp only <;> omega

/-- Each call keeps the account of tokens. -/
lemma Sound.perform (h : s.Sound inFlight) (call : Call) : (s.perform call).Sound inFlight := by
  cases call with
  | requestFrame regenerate => exact sound_requestFrame h.tokens regenerate
  | start =>
    rw [Animator.perform, start]
    split
    · exact h
    · exact sound_requestFrame (s := { s with paused := false }) h.tokens true
  | stop => exact ⟨h.tokens, fun _ hpaused => absurd hpaused nofun⟩
  | setDimensionChangePending | render => exact ⟨h.tokens, h.requested⟩

/-- All calls during a frame keep the account of tokens. -/
lemma Sound.foldl_perform (h : s.Sound inFlight) (calls : List Call) :
    (calls.foldl Animator.perform s).Sound inFlight := by
  induction calls generalizing s with
  | nil => exact h
  | cons call calls ih => exact ih (h.perform call)

/-- An idle task has no influence on tokens. -/
lemma Sound.postIdleTask (h : s.Sound inFlight) : s.postIdleTask.Sound inFlight := by
  rw [Animator.postIdleTask]
  split
  · exact h
  · exact ⟨h.tokens, h.requested⟩

/-- A frame gives its token back or awaits vsync again. -/
lemma Sound.beginFrame (h : s.Sound 1) (produced : Bool) (calls : List Call) :
    (s.beginFrame produced calls).Sound 0 := by
  have htokens : s.pendingFrameSemaphore.signal.count + s.awaitTasks + 0 = 1 := by
    have htokens := h.tokens
    rw [count_signal]
    omega
  rw [Animator.beginFrame]
  split
  · exact sound_requestFrame htokens true
  -- nothing has to be regenerated when the framework is asked, so that its calls start afresh
  · refine Sound.postIdleTask (Sound.foldl_perform ?_ calls)
    exact ⟨htokens, fun hregenerate => absurd hregenerate nofun⟩

/-- The vsync callback returns the token. -/
theorem Sound.onVsync (h : s.Sound 1) (produced : Bool) (calls : List Call) :
    (s.onVsync produced calls).Sound 0 := by
  rw [Animator.onVsync]
  split
  · next hreuse =>
    rw [canReuseLastLayerTree, Bool.not_eq_true'] at hreuse
    refine ⟨?_, fun hregenerate => absurd (hreuse.symm.trans hregenerate) nofun⟩
    have htokens := h.tokens
    simp only [drawLastLayerTree, count_signal]
    omega
  · exact h.beginFrame produced calls

end Animator

open Animator

namespace VsyncWaiter

variable {κ σ : Type} {s : VsyncWaiter κ σ}

/-- Nobody waits, so there is no callback. -/
lemma callback_eq_none (h : s.waiting isLeft = 0) : s.callback = none := by
  cases hset : s.callback with
  | none => rfl
  | some callback => simp [waiting, pending, registered, hset] at h

end VsyncWaiter

namespace AnimatorWithWaiter

variable {σ : Type} {s t : AnimatorWithWaiter σ} {a : Action σ} {actions : List (Action σ)}

/-- The invariant: no call of the waiter is in progress, and the animator agrees with it about the
number of requests. -/
structure Scheduled (s : AnimatorWithWaiter σ) : Prop where
  balanced : s.waiter.Balanced
  accounted : s.waiter.Accounted
  asyncCalling : s.waiter.asyncCalling = false
  secondaryCalling : s.waiter.secondaryCalling = false
  sound : s.animator.Sound (s.waiter.waiting isLeft)

/-- At first nothing is scheduled. -/
lemma scheduled_init : (init : AnimatorWithWaiter σ).Scheduled :=
  ⟨VsyncWaiter.balanced_init, VsyncWaiter.accounted_init, rfl, rfl, sound_init⟩

variable {waiter : VsyncWaiter Unit σ}

/-- What happens to the waiter alone keeps the number of requests. -/
theorem Scheduled.of_waiter (h : s.Scheduled) (hbalanced : waiter.Balanced)
    (haccounted : waiter.Accounted) (hasync : waiter.asyncCalling = false)
    (hsecondary : waiter.secondaryCalling = false) {new gone : List (ℕ × (Unit ⊕ σ))}
    (haccepted : waiter.accepted = s.waiter.accepted ++ new)
    (hran : waiter.ran = s.waiter.ran ++ gone) (hnew : new.countP (fun task => task.2.isLeft) = 0)
    (hgone : gone.countP (fun task => task.2.isLeft) = 0) : Scheduled { s with waiter } := by
  have hwaiting := h.accounted.waiting_add haccounted isLeft haccepted hran
  rw [hnew, hgone, add_zero, add_zero] at hwaiting
  refine ⟨hbalanced, haccounted, hasync, hsecondary, ?_⟩
  rw [hwaiting]
  exact h.sound

/-- `FireCallback` hands the requests on. -/
theorem Scheduled.of_fire (h : s.Scheduled) {action : VsyncWaiter.Action Unit σ}
    (hstep : s.waiter.step action = some waiter)
    (haction : action = .fireCallback ∨ ∃ index, action = .postTask index) :
    Scheduled { s with waiter } := by
  have hmoves := VsyncWaiter.moves_of_step hstep
  have hbalanced := h.balanced.step hmoves
  have haccounted := h.accounted.step hmoves
  obtain rfl | ⟨index, rfl⟩ := haction
  · cases hmoves
    exact h.of_waiter hbalanced haccounted h.asyncCalling h.secondaryCalling
      (append_nil _).symm (append_nil _).symm rfl rfl
  · cases hmoves
    exact h.of_waiter hbalanced haccounted h.asyncCalling h.secondaryCalling
      (append_nil _).symm (append_nil _).symm rfl rfl

/-- Each action keeps the schedule. -/
lemma Scheduled.step (h : s.Scheduled) (hstep : step s a = some t) : t.Scheduled := by
  cases a with
  | call call =>
    cases hstep
    exact ⟨h.balanced, h.accounted, h.asyncCalling, h.secondaryCalling, h.sound.perform call⟩
  | awaitVSync =>
    have htokens := h.sound.tokens
    simp only [step] at hstep
    split at hstep
    · cases hstep
    · next awaitTasks htasks =>
      -- the task stands for the token, so that nothing is registered yet
      have hnone := VsyncWaiter.callback_eq_none (s := s.waiter) (by omega)
      obtain ⟨waiter, hcall, heq⟩ := bind_eq_some_iff.mp hstep
      have hbalanced := VsyncWaiter.invariant_asyncWait .step h.balanced hcall
      have haccounted := VsyncWaiter.invariant_asyncWait .step h.accounted hcall
      rw [VsyncWaiter.asyncWait_eq h.asyncCalling hnone] at hcall
      cases hcall
      cases heq
      -- one task less and one callback more
      have hwaiting := h.accounted.waiting_add haccounted isLeft rfl (append_nil _).symm
      refine ⟨hbalanced, haccounted, h.asyncCalling, h.secondaryCalling, ?_, h.sound.requested⟩
      dsimp only
      simp at hwaiting
      omega
  | scheduleSecondaryVsyncCallback callback =>
    obtain ⟨waiter, hcall, rfl⟩ := exists_of_bind hstep
    have hbalanced := VsyncWaiter.invariant_scheduleSecondary .step h.balanced hcall
    have haccounted := VsyncWaiter.invariant_scheduleSecondary .step h.accounted hcall
    cases hset : s.waiter.secondaryCallback with
    | none =>
      rw [VsyncWaiter.scheduleSecondary_eq h.secondaryCalling hset] at hcall
      cases hcall
      exact h.of_waiter hbalanced haccounted h.asyncCalling h.secondaryCalling rfl
        (append_nil _).symm rfl rfl
    | some =>
      rw [VsyncWaiter.scheduleSecondary_of_isSome h.secondaryCalling (by rw [hset]; rfl)] at hcall
      cases hcall
      exact h
  | fireCallback =>
    obtain ⟨waiter, hfire, rfl⟩ := exists_of_bind hstep
    exact h.of_fire hfire (.inl rfl)
  | postTask index =>
    obtain ⟨waiter, hpost, rfl⟩ := exists_of_bind hstep
    exact h.of_fire hpost (.inr ⟨index, rfl⟩)
  | runTask index produced calls =>
    obtain ⟨task, htask, hrest⟩ := bind_eq_some_iff.mp hstep
    obtain ⟨waiter, hrun, heq⟩ := bind_eq_some_iff.mp hrest
    have hmoves := VsyncWaiter.moves_of_step hrun
    have hbalanced := h.balanced.step hmoves
    have haccounted := h.accounted.step hmoves
    cases hmoves with
    | run _ task' htask' =>
    obtain rfl : task = task' := some.inj (htask.symm.trans htask')
    obtain ⟨number, callback⟩ := task
    cases callback with
    -- the callback that is run was the one request, and none is left with the waiter
    | inl =>
      cases heq
      have htokens := h.sound.tokens
      have hwaiting := h.accounted.waiting_add haccounted isLeft (append_nil _).symm rfl
      simp only [countP_singleton, isLeft_inl, if_true, countP_nil] at hwaiting
      refine ⟨hbalanced, haccounted, h.asyncCalling, h.secondaryCalling, ?_⟩
      have hbefore : s.waiter.waiting isLeft = 1 := by omega
      have hsound := (hbefore ▸ h.sound : s.animator.Sound 1).onVsync produced calls
      rw [hbefore] at hwaiting
      rw [← Nat.succ.inj hwaiting] at hsound
      exact hsound
    | inr callback =>
      cases heq
      exact h.of_waiter hbalanced haccounted h.asyncCalling h.secondaryCalling
        (append_nil _).symm rfl rfl rfl
  | idleTask index =>
    simp only [step] at hstep
    split at hstep
    · cases hstep
      exact ⟨h.balanced, h.accounted, h.asyncCalling, h.secondaryCalling, h.sound.tokens,
        h.sound.requested⟩
    · cases hstep

/-- In every run the schedule is kept. -/
lemma scheduled_of_run (h : Run step unguarded (init : AnimatorWithWaiter σ) actions s) :
    s.Scheduled :=
  h.invariant scheduled_init fun _ _ _ hs _ hstep => hs.step hstep

/-! ## The next vsync -/

/-- The number of requests that have not been answered. -/
def outstanding (s : AnimatorWithWaiter σ) : ℕ := s.animator.awaitTasks + s.waiter.waiting isLeft

/-- The action runs the vsync callback. -/
def RunsVsync (s : AnimatorWithWaiter σ) : Action σ → Prop
  | .runTask index _ _ => ∃ number, s.waiter.queue[index]? = some (number, .inl ())
  | _ => False

/-- The action brings a request closer to its vsync. -/
def Advances (_ : AnimatorWithWaiter σ) : Action σ → Prop
  | .awaitVSync | .fireCallback | .postTask _ => True
  | _ => False

/-- A request for a new tree is not forgotten by another one. -/
lemma regenerateLayerTree_requestFrame (animator : Animator) (regenerate : Bool)
    (h : animator.regenerateLayerTree = true) :
    (animator.requestFrame regenerate).regenerateLayerTree = true := by
  obtain ⟨-, heq⟩ | ⟨semaphore, -, heq⟩ := animator.requestFrame_eq regenerate <;>
    simp [heq, h]

/-- A request for a new tree is not forgotten by a call. -/
lemma regenerateLayerTree_perform {animator : Animator} (call : Animator.Call)
    (h : animator.regenerateLayerTree = true) :
    (animator.perform call).regenerateLayerTree = true := by
  cases call with
  | requestFrame regenerate => exact regenerateLayerTree_requestFrame animator regenerate h
  | start =>
    rw [perform, start]
    split
    · exact h
    · exact regenerateLayerTree_requestFrame { animator with paused := false } true h
  | stop | setDimensionChangePending | render => exact h

lemma animator_of_waiter {waiter : Option (VsyncWaiter Unit σ)}
    (h : (waiter >>= fun waiter => some { s with waiter }) = some t) : t.animator = s.animator := by
  obtain ⟨_, -, rfl⟩ := exists_of_bind h
  rfl

/-- Only the vsync callback makes it unnecessary to regenerate the layer tree. -/
theorem regenerateLayerTree_of_step (hvsync : ¬s.RunsVsync a) (hstep : step s a = some t)
    (h : s.animator.regenerateLayerTree = true) : t.animator.regenerateLayerTree = true := by
  cases a with
  | call call =>
    cases hstep
    exact regenerateLayerTree_perform call h
  | awaitVSync =>
    simp only [step] at hstep
    split at hstep
    · cases hstep
    · obtain ⟨waiter, -, rfl⟩ := exists_of_bind hstep
      exact h
  | scheduleSecondaryVsyncCallback | fireCallback | postTask =>
    exact (congrArg _ (animator_of_waiter hstep)).trans h
  | runTask index produced calls =>
    obtain ⟨⟨number, task⟩, htask, hrest⟩ := bind_eq_some_iff.mp hstep
    obtain ⟨waiter, -, heq⟩ := bind_eq_some_iff.mp hrest
    cases task with
    | inl => exact absurd ⟨number, htask⟩ hvsync
    | inr =>
      cases heq
      exact h
  | idleTask index =>
    simp only [step] at hstep
    split at hstep
    · cases hstep
      exact h
    · cases hstep

/-- A task that awaits vsync can run. -/
lemma Scheduled.isSome_awaitVSync (h : s.Scheduled) (htasks : 0 < s.animator.awaitTasks) :
    (AnimatorWithWaiter.step s .awaitVSync).isSome := by
  have htokens := h.sound.tokens
  have hnone := VsyncWaiter.callback_eq_none (s := s.waiter) (by omega)
  obtain ⟨awaitTasks, heq⟩ := Nat.exists_eq_add_one_of_ne_zero htasks.ne'
  simp only [AnimatorWithWaiter.step, heq, VsyncWaiter.asyncWait_eq h.asyncCalling hnone]
  rfl

/-- As long as there is a request, something can be done about it. -/
theorem Scheduled.exists_advances (h : s.Scheduled) (hout : s.outstanding = 1) :
    ∃ a, (s.Advances a ∨ s.RunsVsync a) ∧ (AnimatorWithWaiter.step s a).isSome := by
  by_cases htasks : 0 < s.animator.awaitTasks
  · exact ⟨.awaitVSync, .inl trivial, h.isSome_awaitVSync htasks⟩
  have hwaiting : 0 < s.waiter.waiting isLeft := by
    rw [outstanding] at hout
    omega
  obtain ⟨index, ⟨number, task⟩, hindex, hleft⟩ | ⟨a, hadvances, ha⟩ :=
    h.balanced.exists_advances hwaiting
  · -- the callback has been posted
    cases task with
    | inl =>
      refine ⟨.runTask index true [], .inr ⟨number, hindex⟩, ?_⟩
      simp [AnimatorWithWaiter.step, VsyncWaiter.step, hindex]
    | inr => cases hleft
  -- an action of the waiter is one of the animator's too, as no call is in progress
  · obtain ⟨waiter, hwaiter⟩ := isSome_iff_exists.mp ha
    cases a with
    | asyncAwaitVSync => simp [VsyncWaiter.step, h.asyncCalling] at ha
    | secondaryAwaitVSync => simp [VsyncWaiter.step, h.secondaryCalling] at ha
    | fireCallback =>
      exact ⟨.fireCallback, .inl trivial, by simp [AnimatorWithWaiter.step, hwaiter]⟩
    | postTask index =>
      exact ⟨.postTask index, .inl trivial, by simp [AnimatorWithWaiter.step, hwaiter]⟩
    | asyncWaitForVsync | scheduleSecondaryCallback | runTask => exact absurd hadvances not_false

/-- A bound for the number of actions before the vsync callback. -/
def distance (s : AnimatorWithWaiter σ) : ℕ := 3 * s.animator.awaitTasks + s.waiter.distance

/-- Each step leads closer to the frame. -/
lemma Scheduled.distance_lt (h : s.Scheduled) (hadvances : s.Advances a)
    (hstep : AnimatorWithWaiter.step s a = some t) : t.distance < s.distance := by
  cases a with
  | awaitVSync =>
    have htokens := h.sound.tokens
    simp only [AnimatorWithWaiter.step] at hstep
    split at hstep
    · cases hstep
    · next awaitTasks htasks =>
      have hnone := VsyncWaiter.callback_eq_none (s := s.waiter) (by omega)
      rw [VsyncWaiter.asyncWait_eq h.asyncCalling hnone] at hstep
      cases hstep
      -- a registered callback is two steps from the queue, and its task one more
      simp only [distance, VsyncWaiter.distance, VsyncWaiter.registered, hnone, htasks,
        length_append, length_map, toList_none, toList_some,
        length_nil, length_singleton]
      omega
  | fireCallback =>
    obtain ⟨waiter, hfire, rfl⟩ := exists_of_bind hstep
    have hmoves := VsyncWaiter.moves_of_step hfire
    have hlt := h.balanced.distance_lt (a := .fireCallback) trivial hmoves
    exact Nat.add_lt_add_left hlt _
  | postTask index =>
    obtain ⟨waiter, hpost, rfl⟩ := exists_of_bind hstep
    have hmoves := VsyncWaiter.moves_of_step hpost
    have hlt := h.balanced.distance_lt (a := .postTask index) trivial hmoves
    exact Nat.add_lt_add_left hlt _
  | call | scheduleSecondaryVsyncCallback | runTask | idleTask => exact absurd hadvances not_false

/-- How many steps there are up to the frame. -/
lemma Scheduled.length_le_distance (h : s.Scheduled) {more : List (Action σ)}
    (hrun : Run AnimatorWithWaiter.step Advances s more t) :
    t.Scheduled ∧ more.length + t.distance ≤ s.distance := by
  induction hrun with
  | nil => exact ⟨h, (Nat.zero_add _).le⟩
  | snoc _ hadvances hstep ih =>
    have hlt := ih.1.distance_lt hadvances hstep
    refine ⟨ih.1.step hstep, ?_⟩
    rw [length_append, length_singleton]
    omega

/-- There is one token for at most one request. A layer tree that has to be regenerated is requested
unless the animator is paused. Something can be done about every request until the vsync callback is
run, which takes at most `distance` actions, and until then the layer tree has to be regenerated:
the next vsync begins a frame. -/
theorem requests_never_stall
    (h : Run step unguarded (init : AnimatorWithWaiter σ) actions s) :
    s.animator.pendingFrameSemaphore.count + s.outstanding = 1 ∧
      (s.animator.regenerateLayerTree = true → s.animator.paused = false → s.outstanding = 1) ∧
      (s.outstanding = 1 → ∃ a, (s.Advances a ∨ s.RunsVsync a) ∧ (step s a).isSome) ∧
      (∀ more t, Run step Advances s more t → more.length ≤ s.distance) ∧
      (s.animator.regenerateLayerTree = true →
        (∀ a t, ¬s.RunsVsync a → step s a = some t → t.animator.regenerateLayerTree = true) ∧
        ∀ index produced calls t, s.RunsVsync (.runTask index produced calls) →
          step s (.runTask index produced calls) = some t →
          t.animator = s.animator.beginFrame produced calls) := by
  have hscheduled := scheduled_of_run h
  have htokens := hscheduled.sound.tokens
  have hone : s.animator.pendingFrameSemaphore.count + s.outstanding = 1 := by
    rw [outstanding]
    omega
  refine ⟨hone, fun hregenerate hpaused => ?_, hscheduled.exists_advances, fun more t hrun => ?_,
    fun hregenerate => ⟨fun a t hvsync hstep => ?_, ?_⟩⟩
  · have hcount := hscheduled.sound.requested hregenerate hpaused
    omega
  · have hle := (hscheduled.length_le_distance hrun).2
    omega
  · exact regenerateLayerTree_of_step hvsync hstep hregenerate
  · rintro index produced calls t ⟨number, htask⟩ hstep
    simp only [step, htask, VsyncWaiter.step, bind_eq_bind, bind_some, some.injEq] at hstep
    rw [← hstep]
    -- the layer tree cannot be reused
    simp only [onVsync, canReuseLastLayerTree, hregenerate]
    rfl

/-- The pipeline is full at the first vsync, and the frame is begun at the second one. -/
def fullPipeline : List (Action ℕ) :=
  [.call (.requestFrame true), .awaitVSync, .fireCallback, .postTask 0, .runTask 0 false [],
    .scheduleSecondaryVsyncCallback 7, .awaitVSync, .fireCallback, .postTask 1]

theorem requests_never_stall_fullPipeline : ∃ s, Run step unguarded init fullPipeline s ∧
    s.animator.regenerateLayerTree = true ∧ s.animator.paused = false ∧ s.outstanding = 1 ∧
    ∃ t, step s (.runTask 0 true [.render (3, 4)]) = some t ∧
      t.animator = s.animator.beginFrame true [.render (3, 4)] := by
  have hrun := run_iff_exec.mpr
    (show exec step unguarded (init : AnimatorWithWaiter ℕ) fullPipeline = some _ from rfl)
  obtain ⟨-, houtstanding, -, -, hnext⟩ := requests_never_stall hrun
  exact ⟨_, hrun, rfl, rfl, houtstanding rfl rfl, _, rfl,
    (hnext rfl).2 0 true [.render (3, 4)] _ ⟨_, rfl⟩ rfl⟩

end AnimatorWithWaiter

end Flutter
