import FlutterEngine.Shell.VsyncWaiter
import FlutterEngine.Lib.Multiset

/-!
# Vsync requests are balanced

Each call of `AwaitVSync` is answered by one of `FireCallback`, so that the difference between their
numbers says whether a vsync has been requested. It is 1 as long as a callback is registered, except
that the call which is to make the request may not have come to it (`Balanced`). Whatever has been
accepted is posted by the next call of `FireCallback` (`accounted_of_run`).

* `Moves` lists what each step does.
* `Accounted` compares the callbacks accepted with those posted, `distance` counts the steps left.
* `requests_balanced` says so for every run. A secondary call may return before the vsync is
  requested (`not_balanced_secondary`).
-/

namespace Flutter.VsyncWaiter

open Lib List Option Multiset

variable {κ σ : Type} {s t : VsyncWaiter κ σ} {a : Action κ σ} {actions : List (Action κ σ)}

/-! ## What an action does -/

/-- The actions with their effects. -/
inductive Moves (s : VsyncWaiter κ σ) : Action κ σ → VsyncWaiter κ σ → Prop
  | asyncIgnored (callback : Option κ) : s.asyncCalling = false →
      (callback.isSome → s.callback.isSome) → Moves s (.asyncWaitForVsync callback) s
  | async (callback : κ) : s.asyncCalling = false → s.callback = none →
      Moves s (.asyncWaitForVsync (some callback)) { s with
        callback := some callback
        asyncCalling := s.secondaryCallback.isNone
        accepted := s.accepted ++ [(s.fires, .inl callback)] }
  | asyncAwait : s.asyncCalling = true →
      Moves s .asyncAwaitVSync { s with asyncCalling := false, awaits := s.awaits + 1 }
  | secondaryIgnored (callback : Option σ) : s.secondaryCalling = false →
      (callback.isSome → s.secondaryCallback.isSome) →
      Moves s (.scheduleSecondaryCallback callback) s
  | secondary (callback : σ) : s.secondaryCalling = false → s.secondaryCallback = none →
      Moves s (.scheduleSecondaryCallback (some callback)) { s with
        secondaryCallback := some callback
        secondaryCalling := s.callback.isNone
        accepted := s.accepted ++ [(s.fires, .inr callback)] }
  | secondaryAwait : s.secondaryCalling = true →
      Moves s .secondaryAwaitVSync { s with secondaryCalling := false, awaits := s.awaits + 1 }
  | fire : s.fires < s.awaits →
      Moves s .fireCallback { s with
        callback := none
        secondaryCallback := none
        fires := s.fires + 1
        firing := s.firing ++ [s.registered] }
  | post (index : ℕ) (task : ℕ × (κ ⊕ σ)) (tasks : List (ℕ × (κ ⊕ σ))) :
      s.firing[index]? = some (task :: tasks) →
      Moves s (.postTask index)
        { s with firing := s.firing.set index tasks, queue := s.queue ++ [task] }
  | run (index : ℕ) (task : ℕ × (κ ⊕ σ)) : s.queue[index]? = some task →
      Moves s (.runTask index)
        { s with queue := s.queue.eraseIdx index, ran := s.ran ++ [task] }

/-- What each step does. -/
lemma moves_of_step (h : step s a = some t) : Moves s a t := by
  cases a with
  | asyncWaitForVsync callback =>
    simp only [step] at h
    split at h
    · cases h
    · next hcalling =>
      rw [Bool.not_eq_true] at hcalling
      cases callback with
      | none =>
        cases h
        exact .asyncIgnored none hcalling (by simp)
      | some callback =>
        dsimp only at h
        split at h
        · next hset =>
          cases h
          exact .asyncIgnored (some callback) hcalling fun _ => hset
        · next hset =>
          cases h
          exact .async callback hcalling (not_isSome_iff_eq_none.mp hset)
  | asyncAwaitVSync =>
    simp only [step] at h
    split at h
    · next hcalling =>
      cases h
      exact .asyncAwait hcalling
    · cases h
  | scheduleSecondaryCallback callback =>
    simp only [step] at h
    split at h
    · cases h
    · next hcalling =>
      rw [Bool.not_eq_true] at hcalling
      cases callback with
      | none =>
        cases h
        exact .secondaryIgnored none hcalling (by simp)
      | some callback =>
        dsimp only at h
        split at h
        · next hset =>
          cases h
          exact .secondaryIgnored (some callback) hcalling fun _ => hset
        · next hset =>
          cases h
          exact .secondary callback hcalling (not_isSome_iff_eq_none.mp hset)
  | secondaryAwaitVSync =>
    simp only [step] at h
    split at h
    · next hcalling =>
      cases h
      exact .secondaryAwait hcalling
    · cases h
  | fireCallback =>
    simp only [step] at h
    split at h
    · next hlt =>
      cases h
      exact .fire hlt
    · cases h
  | postTask index =>
    simp only [step] at h
    split at h
    · next task tasks htasks =>
      cases h
      exact .post index task tasks htasks
    · cases h
  | runTask index =>
    simp only [step] at h
    split at h
    · next task htask =>
      cases h
      exact .run index task htask
    · cases h

/-! ## Requests -/

/-- Requests that have been made, or will be by a call that is in progress, are answered or are for
what is registered. -/
structure Balanced (s : VsyncWaiter κ σ) : Prop where
  fires_le : s.fires ≤ s.awaits
  balance : s.awaits + s.asyncCalling.toNat + s.secondaryCalling.toNat = s.fires + s.isSet.toNat

/-- At first there is no callback. -/
lemma balanced_init : (init : VsyncWaiter κ σ).Balanced := ⟨le_rfl, rfl⟩

/-- Each step keeps the balance. -/
lemma Balanced.step (h : s.Balanced) (hmoves : Moves s a t) : t.Balanced := by
  obtain ⟨hfires, hbalance⟩ := h
  cases hmoves with
  | asyncIgnored | secondaryIgnored | post | run => exact ⟨hfires, hbalance⟩
  | async callback hcalling hset =>
    refine ⟨hfires, ?_⟩
    simp only [isSet, hset, hcalling] at hbalance ⊢
    -- the request is made already if there is a secondary callback
    cases hsecondary : s.secondaryCallback <;> simp [hsecondary] at hbalance ⊢ <;> omega
  | asyncAwait hcalling | secondaryAwait hcalling =>
    refine ⟨Nat.le_succ_of_le hfires, ?_⟩
    simp only [isSet, hcalling, Bool.toNat_true, Bool.toNat_false] at hbalance ⊢
    omega
  | secondary callback hcalling hset =>
    refine ⟨hfires, ?_⟩
    simp only [isSet, hset, hcalling] at hbalance ⊢
    cases hcallback : s.callback <;> simp [hcallback] at hbalance ⊢ <;> omega
  | fire hlt =>
    -- there is at most one request, so this was the one, and no call is about to make another
    have hle := Bool.toNat_le s.isSet
    refine ⟨hlt, ?_⟩
    simp only [isSet, isSome_none, Bool.or_self, Bool.toNat_false]
    omega

/-- In every run the balance is kept. -/
lemma balanced_of_run (h : Run step unguarded (init : VsyncWaiter κ σ) actions s) : s.Balanced :=
  h.invariant balanced_init fun _ _ _ hs _ hstep => hs.step (moves_of_step hstep)

/-- A request that has been made can be answered. -/
theorem Balanced.isSome_fireCallback (h : s.Balanced) (hset : s.isSet = true)
    (hasync : s.asyncCalling = false) (hsecondary : s.secondaryCalling = false) :
    (VsyncWaiter.step s .fireCallback).isSome := by
  have hbalance := h.balance
  rw [hasync, hsecondary, hset, Bool.toNat_true, Bool.toNat_false] at hbalance
  rw [VsyncWaiter.step, if_pos (by omega)]
  rfl

/-- Only requests for something that is registered are answered. -/
theorem Balanced.isSet_of_lt (h : s.Balanced) (hlt : s.fires < s.awaits) : s.isSet = true := by
  have hbalance := h.balance
  cases hset : s.isSet with
  | true => rfl
  | false =>
    rw [hset, Bool.toNat_false] at hbalance
    omega

lemma isSet_iff : s.isSet = true ↔ s.registered ≠ [] := by
  rw [isSet, registered]
  cases s.callback <;> cases s.secondaryCallback <;> simp

/-- `FireCallback` takes the callbacks that are registered. -/
lemma registered_fire (s : VsyncWaiter κ σ) (fires : ℕ) (firing : List (List (ℕ × (κ ⊕ σ)))) :
    registered { s with callback := none, secondaryCallback := none, fires, firing } = [] :=
  rfl

/-! ## Callbacks -/

/-- The tasks that have been posted. -/
def posted (s : VsyncWaiter κ σ) : Multiset (ℕ × (κ ⊕ σ)) := s.ran + s.queue

/-- The callbacks that have been accepted and not been run. -/
def pending (s : VsyncWaiter κ σ) : Multiset (ℕ × (κ ⊕ σ)) :=
  s.queue + s.firing.flatten + s.registered

/-- Everything that was accepted is posted once, by the next call of `FireCallback`: its number is
the number of those before. -/
def Accounted (s : VsyncWaiter κ σ) : Prop :=
  (s.accepted : Multiset (ℕ × (κ ⊕ σ))) = s.ran + s.pending

/-- At first nothing was called. -/
lemma accounted_init : (init : VsyncWaiter κ σ).Accounted := rfl

/-- Each step keeps the account. -/
lemma Accounted.step (h : s.Accounted) (hmoves : Moves s a t) : t.Accounted := by
  rw [Accounted, pending] at h ⊢
  cases hmoves with
  | asyncIgnored | asyncAwait | secondaryIgnored | secondaryAwait => exact h
  | async callback _ hset =>
    have hregistered : registered { s with
        callback := some callback
        asyncCalling := s.secondaryCallback.isNone
        accepted := s.accepted ++ [(s.fires, .inl callback)] } =
          [(s.fires, .inl callback)] ++ s.registered := by
      simp [registered, hset]
    rw [hregistered]
    -- the callback is new in what is registered, with the number it has in what is accepted
    rw [← coe_add, h, ← coe_add]
    abel
  | secondary callback _ hset =>
    have hregistered : registered { s with
        secondaryCallback := some callback
        secondaryCalling := s.callback.isNone
        accepted := s.accepted ++ [(s.fires, .inr callback)] } =
          s.registered ++ [(s.fires, .inr callback)] := by
      simp [registered, hset]
    rw [hregistered]
    rw [← coe_add, h, ← coe_add]
    abel
  | fire =>
    rw [registered_fire]
    rw [flatten_append, flatten_singleton, ← coe_add, h, coe_nil]
    abel
  | post index task tasks htasks =>
    have hregistered : registered { s with
        firing := s.firing.set index tasks, queue := s.queue ++ [task] } = s.registered := rfl
    rw [coe_flatten_set htasks] at h
    rw [hregistered]
    rw [← Multiset.coe_add, h]
    abel
  | run index task htask =>
    have hregistered : registered { s with
        queue := s.queue.eraseIdx index, ran := s.ran ++ [task] } = s.registered := rfl
    rw [coe_eraseIdx htask] at h
    rw [hregistered]
    rw [← Multiset.coe_add, h]
    abel

/-- In every run the account is right. -/
lemma accounted_of_run (h : Run step unguarded (init : VsyncWaiter κ σ) actions s) : s.Accounted :=
  h.invariant accounted_init fun _ _ _ hs _ hstep => hs.step (moves_of_step hstep)

/-- The number of callbacks of a kind that have been accepted and not been run. -/
def waiting (s : VsyncWaiter κ σ) (kind : κ ⊕ σ → Bool) : ℕ :=
  s.pending.countP fun task => kind task.2

/-- Callbacks that are accepted wait until they are run. -/
theorem Accounted.waiting_add (h : s.Accounted) (h' : t.Accounted) (kind : κ ⊕ σ → Bool)
    {new gone : List (ℕ × (κ ⊕ σ))} (haccepted : t.accepted = s.accepted ++ new)
    (hran : t.ran = s.ran ++ gone) :
    t.waiting kind + gone.countP (fun task => kind task.2) =
      s.waiting kind + new.countP (fun task => kind task.2) := by
  have hs := congrArg (Multiset.countP fun task => kind task.2 = true) h
  have ht := congrArg (Multiset.countP fun task => kind task.2 = true) h'
  rw [haccepted, hran] at ht
  simp only [countP_add, coe_countP, countP_append] at hs ht
  rw [waiting, waiting]
  simp only [Bool.decide_eq_true] at hs ht ⊢
  omega

/-- A call of `FireCallback` that has something to post can do so. -/
theorem exists_postTask (h : s.firing.flatten ≠ []) :
    ∃ index, (step s (.postTask index)).isSome := by
  obtain ⟨task, htask⟩ := exists_mem_of_ne_nil _ h
  obtain ⟨tasks, htasks, hmem⟩ := mem_flatten.mp htask
  obtain ⟨index, hindex⟩ := mem_iff_getElem?.mp htasks
  obtain ⟨first, rest, rfl⟩ := exists_cons_of_ne_nil (ne_nil_of_mem hmem)
  refine ⟨index, ?_⟩
  rw [step, hindex]
  rfl

/-! ## The way to the UI task runner -/

/-- The action brings a callback closer to the UI task runner. -/
def Advances (_ : VsyncWaiter κ σ) : Action κ σ → Prop
  | .asyncAwaitVSync | .secondaryAwaitVSync | .fireCallback | .postTask _ => True
  | _ => False

/-- A bound for the number of such actions. -/
def distance (s : VsyncWaiter κ σ) : ℕ :=
  s.asyncCalling.toNat + s.secondaryCalling.toNat + 2 * s.registered.length +
    s.firing.flatten.length

/-- Each step leads closer to the callbacks. -/
lemma Balanced.distance_lt (h : s.Balanced) (hadvances : s.Advances a) (hmoves : Moves s a t) :
    t.distance < s.distance := by
  cases hmoves with
  -- registering a callback and running a task are not on the way
  | asyncIgnored | async | secondaryIgnored | secondary | run => exact absurd hadvances not_false
  | asyncAwait hcalling | secondaryAwait hcalling =>
    simp only [distance, registered, hcalling, Bool.toNat_true, Bool.toNat_false]
    omega
  | fire hlt =>
    -- each registered callback has one step less to go, and there is one
    have hpos := length_pos_iff.mpr (isSet_iff.mp (h.isSet_of_lt hlt))
    simp only [distance, registered_fire, flatten_append, flatten_singleton, List.length_append,
      length_nil]
    omega
  | post index task tasks htasks =>
    have hlength := congrArg card (coe_flatten_set htasks)
    rw [card_add, coe_card, coe_card, coe_card, length_singleton] at hlength
    simp only [distance, registered]
    omega

/-- A callback that waits has been posted, or something can be done about it. -/
theorem Balanced.exists_advances (h : s.Balanced) {kind : κ ⊕ σ → Bool}
    (hwaiting : 0 < s.waiting kind) :
    (∃ (index : ℕ) (task : ℕ × (κ ⊕ σ)), s.queue[index]? = some task ∧ kind task.2 = true) ∨
      ∃ a, s.Advances a ∧ (VsyncWaiter.step s a).isSome := by
  rw [waiting, countP_pos] at hwaiting
  obtain ⟨task, hmem, hkind⟩ := hwaiting
  rw [pending, mem_add, mem_add] at hmem
  obtain (hqueue | hfiring) | hregistered := hmem
  · obtain ⟨index, hindex⟩ := mem_iff_getElem?.mp hqueue
    exact .inl ⟨index, task, hindex, hkind⟩
  · obtain ⟨index, hindex⟩ := exists_postTask (ne_nil_of_mem hfiring)
    exact .inr ⟨.postTask index, trivial, hindex⟩
  -- the request comes first if it has still to be made
  · have hset := isSet_iff.mpr (ne_nil_of_mem hregistered)
    cases hasync : s.asyncCalling with
    | true => exact .inr ⟨.asyncAwaitVSync, trivial, by simp [VsyncWaiter.step, hasync]⟩
    | false =>
      cases hsecondary : s.secondaryCalling with
      | true => exact .inr ⟨.secondaryAwaitVSync, trivial, by simp [VsyncWaiter.step, hsecondary]⟩
      | false => exact .inr ⟨.fireCallback, trivial, h.isSome_fireCallback hset hasync hsecondary⟩

/-! ## Whole calls -/

section Invariant

variable {P : VsyncWaiter κ σ → Prop} (hmoves : ∀ {s a t}, P s → Moves s a t → P t) (hs : P s)
include hmoves hs

/-- A call that registers a callback and then possibly requests a vsync consists of actions. -/
theorem invariant_call {register await : Action κ σ} {calling : VsyncWaiter κ σ → Bool}
    (hcall : (s.step register >>= fun u => if calling u then u.step await else some u) = some t) :
    P t := by
  obtain ⟨u, hregister, hawait⟩ := bind_eq_some_iff.mp hcall
  have hu := hmoves hs (moves_of_step hregister)
  split at hawait
  · exact hmoves hu (moves_of_step hawait)
  · cases hawait
    exact hu

/-- `AsyncWait` is a sequence of steps. -/
lemma invariant_asyncWait {callback : κ} (hcall : s.asyncWait callback = some t) : P t := by
  rw [asyncWait] at hcall
  exact invariant_call hmoves hs hcall

/-- `ScheduleSecondaryCallback` is a sequence of steps. -/
lemma invariant_scheduleSecondary {callback : σ} (hcall : s.scheduleSecondary callback = some t) :
    P t := by
  rw [scheduleSecondary] at hcall
  exact invariant_call hmoves hs hcall

end Invariant

/-- What `AsyncWait` does. -/
lemma asyncWait_eq (hcalling : s.asyncCalling = false) (hset : s.callback = none)
    (callback : κ) : s.asyncWait callback = some { s with
      callback := some callback
      awaits := s.awaits + s.secondaryCallback.isNone.toNat
      accepted := s.accepted ++ [(s.fires, .inl callback)] } := by
  cases hsecondary : s.secondaryCallback <;> simp [asyncWait, step, hcalling, hset, hsecondary]

/-- What `ScheduleSecondaryCallback` does. -/
lemma scheduleSecondary_eq (hcalling : s.secondaryCalling = false)
    (hset : s.secondaryCallback = none) (callback : σ) :
    s.scheduleSecondary callback = some { s with
      secondaryCallback := some callback
      awaits := s.awaits + s.callback.isNone.toNat
      accepted := s.accepted ++ [(s.fires, .inr callback)] } := by
  cases hcallback : s.callback <;> simp [scheduleSecondary, step, hcalling, hset, hcallback]

/-- A second secondary callback is dropped. -/
lemma scheduleSecondary_of_isSome (hcalling : s.secondaryCalling = false)
    (hset : s.secondaryCallback.isSome = true) (callback : σ) :
    s.scheduleSecondary callback = some s := by
  simp [scheduleSecondary, step, hcalling, hset]

/-! ## The balance of requests and vsyncs -/

/-- A call that has registered a callback is about to request a vsync for it. -/
def Calling (s : VsyncWaiter κ σ) : Prop := s.asyncCalling = true ∨ s.secondaryCalling = true

instance : Decidable s.Calling := inferInstanceAs (Decidable (_ ∨ _))

/-- Unless a call is about to make the request, one vsync is requested if a callback is registered,
and none otherwise; if a call is about to, none is requested yet. A vsync that is requested can be
answered. Every callback that was accepted is posted exactly once, by the next call of
`FireCallback`, which can always go on. -/
theorem requests_balanced (h : Run step unguarded (init : VsyncWaiter κ σ) actions s) :
    (¬s.Calling → (s.awaits : ℤ) - s.fires = if s.isSet then 1 else 0) ∧
      (s.Calling → s.isSet = true ∧ (s.awaits : ℤ) - s.fires = 0 ∧
        ¬(s.asyncCalling = true ∧ s.secondaryCalling = true)) ∧
      (s.isSet = true → ¬s.Calling → (step s .fireCallback).isSome) ∧
      (s.accepted : Multiset (ℕ × (κ ⊕ σ))) = s.posted + s.firing.flatten + s.registered ∧
      (s.firing.flatten ≠ [] → ∃ index, (step s (.postTask index)).isSome) := by
  obtain ⟨hfires, hbalance⟩ := balanced_of_run h
  have haccounted := accounted_of_run h
  have hbound := Bool.toNat_le s.isSet
  refine ⟨fun hcalling => ?_, fun hcalling => ?_, fun hset hcalling => ?_, ?_, exists_postTask⟩
  · rw [Calling, not_or, Bool.not_eq_true, Bool.not_eq_true] at hcalling
    rw [hcalling.1, hcalling.2] at hbalance
    cases hset : s.isSet <;> simp [hset] at hbalance ⊢ <;> omega
  -- of the four numbers of the balance only the two calls and the request can be 1
  · have hcalls : 1 ≤ s.asyncCalling.toNat + s.secondaryCalling.toNat := by
      obtain hasync | hsecondary := hcalling
      · rw [hasync, Bool.toNat_true]
        omega
      · rw [hsecondary, Bool.toNat_true]
        omega
    refine ⟨?_, by omega, fun ⟨hasync, hsecondary⟩ => ?_⟩
    · cases hset : s.isSet with
      | true => rfl
      | false =>
        rw [hset, Bool.toNat_false] at hbalance
        omega
    · rw [hasync, hsecondary, Bool.toNat_true] at hbalance
      omega
  · rw [Calling, not_or, Bool.not_eq_true, Bool.not_eq_true] at hcalling
    exact (balanced_of_run h).isSome_fireCallback hset hcalling.1 hcalling.2
  · rw [haccounted, pending, posted]
    abel

/-- Both callbacks are registered, and posted by the same vsync. -/
theorem requests_balanced_both : ∃ s, Run step unguarded (init : VsyncWaiter ℕ ℕ)
    [.asyncWaitForVsync (some 1), .asyncAwaitVSync, .scheduleSecondaryCallback (some 2),
      .fireCallback, .postTask 0, .postTask 0] s ∧
    (s.awaits : ℤ) - s.fires = 0 ∧
    (s.accepted : Multiset (ℕ × (ℕ ⊕ ℕ))) = s.posted ∧
    s.queue = [(0, .inl 1), (0, .inr 2)] := by
  have hrun := run_iff_exec.mpr (show exec step unguarded (init : VsyncWaiter ℕ ℕ)
    [.asyncWaitForVsync (some 1), .asyncAwaitVSync, .scheduleSecondaryCallback (some 2),
      .fireCallback, .postTask 0, .postTask 0] = some _ from rfl)
  obtain ⟨hbalance, -, -, haccepted, -⟩ := requests_balanced hrun
  rw [add_assoc] at haccepted
  exact ⟨_, hrun, hbalance (by decide), haccepted, rfl⟩

/-- A secondary callback is registered and its call has returned before the vsync is requested, by
the call that has registered the other callback. -/
theorem not_balanced_secondary : ∃ s, Run step unguarded (init : VsyncWaiter ℕ ℕ)
    [.asyncWaitForVsync (some 1), .scheduleSecondaryCallback (some 2)] s ∧
    s.secondaryCallback = some 2 ∧ s.secondaryCalling = false ∧ (s.awaits : ℤ) - s.fires ≠ 1 :=
  ⟨_, run_iff_exec.mpr rfl, rfl, rfl, by decide⟩

end Flutter.VsyncWaiter
