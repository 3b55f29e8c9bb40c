import Mathlib.Data.List.Induction

/-!
# Runs of a partial step function

A machine is a partial step function `step : σ → α → Option σ`; `none` means that the action
cannot be taken in that state (the program aborts, or its behavior is undefined). A `Run` is a
finite sequence of actions performed one after another, each meeting a `guard` in the state it
starts from. Since every prefix of a run is a run, a statement about the last state of every
run is a statement about every state a run passes through.

* `Run.invariant`, `Run.invariant_history`: what one step preserves, a whole run preserves.
* `run_iff_exec`: for a decidable guard a run can be computed.
-/

namespace Lib

open List

variable {σ α : Type*}

/-- `Run step guard init as s`: performing `as` from `init`, each action meeting `guard` in the
state it starts from, ends in `s`. -/
inductive Run (step : σ → α → Option σ) (guard : σ → α → Prop) (init : σ) : List α → σ → Prop
  | nil : Run step guard init [] init
  | snoc {as : List α} {a : α} {s t : σ} :
      Run step guard init as s → guard s a → step s a = some t →
      Run step guard init (as ++ [a]) t

/-- The guard that admits every action. -/
def unguarded (_ : σ) (_ : α) : Prop := True

instance (s : σ) (a : α) : Decidable (unguarded s a) := inferInstanceAs (Decidable True)

variable {step : σ → α → Option σ} {guard : σ → α → Prop} {init : σ}
variable {s t u : σ} {as bs : List α} {a : α}

/-- What a step has called, if it only fails together with it. -/
theorem exists_of_bind {x : Option α} {f : α → σ} (h : (x.bind fun a => some (f a)) = some t) :
    ∃ a, x = some a ∧ f a = t := by
  cases x with
  | none => cases h
  | some a => exact ⟨a, rfl, Option.some.inj h⟩

namespace Run

/-- A property of the actions performed and the state reached that every guarded step
preserves holds after every run. -/
theorem invariant_history {P : List α → σ → Prop} (hinit : P [] init)
    (hstep : ∀ as s a t, P as s → guard s a → step s a = some t → P (as ++ [a]) t)
    (h : Run step guard init as s) : P as s := by
  induction h with
  | nil => exact hinit
  | snoc _ hguard hs ih => exact hstep _ _ _ _ ih hguard hs

/-- A property of states that every guarded step preserves holds after every run. -/
theorem invariant {P : σ → Prop} (hinit : P init)
    (hstep : ∀ s a t, P s → guard s a → step s a = some t → P t) (h : Run step guard init as s) :
    P s :=
  invariant_history (P := fun _ s => P s) hinit (fun _ s a t => hstep s a t) h

variable {guard' : σ → α → Prop}

/-- Weakening the guard keeps a run a run. -/
theorem mono (hguard : ∀ s a, guard s a → guard' s a) (h : Run step guard init as s) :
    Run step guard' init as s := by
  induction h with
  | nil => exact .nil
  | snoc _ hg hs ih => exact .snoc ih (hguard _ _ hg) hs

/-- A run may start with one more step. -/
theorem cons (hguard : guard init a) (hstep : step init a = some t) (h : Run step guard t as u) :
    Run step guard init (a :: as) u := by
  induction h with
  | nil => exact Run.snoc .nil hguard hstep
  | snoc _ hg hs ih => exact Run.snoc ih hg hs

lemma eq_of_nil (h : Run step guard init [] s) : s = init := by
  generalize hactions : [] = actions at h
  cases h with
  | nil => rfl
  | snoc => simp at hactions

/-- The last step of a run. -/
theorem of_append_singleton (h : Run step guard init (as ++ [a]) t) :
    ∃ s, Run step guard init as s ∧ guard s a ∧ step s a = some t := by
  generalize hactions : as ++ [a] = actions at h
  cases h with
  | nil => simp at hactions
  | snoc hrun hguard hstep =>
    obtain ⟨rfl, heq⟩ := append_inj' hactions rfl
    cases heq
    exact ⟨_, hrun, hguard, hstep⟩

/-- The actions performed determine the state reached. -/
theorem unique {s' : σ} (h : Run step guard init as s) (h' : Run step guard' init as s') :
    s = s' := by
  induction h generalizing s' with
  | nil => exact h'.eq_of_nil.symm
  | snoc _ _ hstep ih =>
    obtain ⟨t, hrun, -, hstep'⟩ := h'.of_append_singleton
    rw [← ih hrun] at hstep'
    exact Option.some.inj (hstep.symm.trans hstep')

/-- A run is a run of its first actions, and from there one of the others. -/
theorem of_append (h : Run step guard init (as ++ bs) u) :
    ∃ s, Run step guard init as s ∧ Run step guard s bs u := by
  induction bs using reverseRecOn generalizing u with
  | nil => exact ⟨u, as.append_nil ▸ h, .nil⟩
  | append_singleton bs b ih =>
    rw [← append_assoc] at h
    obtain ⟨t, hrun, hguard, hstep⟩ := h.of_append_singleton
    obtain ⟨s, hbefore, hafter⟩ := ih hrun
    exact ⟨s, hbefore, .snoc hafter hguard hstep⟩

/-- The state in front of an action of a run. -/
theorem of_append_cons (h : Run step guard init (as ++ a :: bs) u) :
    ∃ s t, Run step guard init as s ∧ guard s a ∧ step s a = some t := by
  rw [append_cons] at h
  obtain ⟨t, hrun, -⟩ := h.of_append
  obtain ⟨s, hbefore, hguard, hstep⟩ := hrun.of_append_singleton
  exact ⟨s, t, hbefore, hguard, hstep⟩

/-- Runs compose. -/
theorem append (h : Run step guard init as s) (h' : Run step guard s bs t) :
    Run step guard init (as ++ bs) t := by
  induction h' with
  | nil => simpa using h
  | snoc _ hg hs ih =>
    rw [← append_assoc]
    exact .snoc ih hg hs

/-- A run meets another guard throughout, or there is a first step that does not. -/
theorem guarded_or (h : Run step guard init as s) :
    Run step guard' init as s ∨ ∃ before a after t u, as = before ++ a :: after ∧
      Run step guard' init before t ∧ ¬guard' t a ∧ step t a = some u ∧
      Run step guard u after s := by
  induction h with
  | nil => exact .inl .nil
  | @snoc as a s t hrun hguard hstep ih =>
    rcases ih with hrun' | ⟨before, b, after, u, v, rfl, hbefore, hb, hu, hafter⟩
    · by_cases hguard' : guard' s a
      · exact .inl (.snoc hrun' hguard' hstep)
      · exact .inr ⟨as, a, [], s, t, rfl, hrun', hguard', hstep, .nil⟩
    · refine .inr ⟨before, b, after ++ [a], u, v, ?_, hbefore, hb, hu, .snoc hafter hguard hstep⟩
      rw [append_assoc, cons_append]

end Run

section Exec

variable [∀ s a, Decidable (guard s a)]

/-- One guarded step: `none` when the guard fails as well as when the action cannot be taken. -/
def guardedStep (step : σ → α → Option σ) (guard : σ → α → Prop) [∀ s a, Decidable (guard s a)]
    (s : σ) (a : α) : Option σ :=
  if guard s a then step s a else none

/-- Perform `as` from `init`, stopping at the first action that fails its guard or cannot be
taken. -/
def exec (step : σ → α → Option σ) (guard : σ → α → Prop) [∀ s a, Decidable (guard s a)]
    (init : σ) (as : List α) : Option σ :=
  as.foldlM (guardedStep step guard) init

lemma exec_snoc (as : List α) (a : α) : exec step guard init (as ++ [a]) =
      (exec step guard init as).bind fun s => guardedStep step guard s a := by
  simp [exec, foldlM_append]

/-- A run is what `exec` computes. -/
theorem run_iff_exec : Run step guard init as s ↔ exec step guard init as = some s := by
  constructor
  · intro h
    induction h with
    | nil => rfl
    | snoc _ hguard hs ih => simp [exec_snoc, ih, guardedStep, hguard, hs]
  · induction as using reverseRecOn generalizing s with
    | nil =>
      intro h
      obtain rfl : init = s := by simpa [exec] using h
      exact .nil
    | append_singleton as a ih =>
      intro h
      rw [exec_snoc, Option.bind_eq_some_iff] at h
      obtain ⟨t, ht, hs⟩ := h
      by_cases hguard : guard t a
      · exact .snoc (ih ht) hguard (by simpa [guardedStep, hguard] using hs)
      · simp [guardedStep, hguard] at hs

end Exec

end Lib
