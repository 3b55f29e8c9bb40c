import Mathlib.Data.List.Basic

/-!
# Outcomes of programs that throw

`Ensures allowed post x` says that `x` returns something with `post`, or throws one of the `allowed`
exceptions, and `Returns post x` that it does not throw at all. The rules follow the program:
`Ensures.bind` for a sequence, `Ensures.assertion` for an assertion and `ensures_foldlM` for a loop
over a list.
-/

namespace Lib

variable {ε α β σ : Type} {allowed : ε → Prop} {post : α → Prop} {post' : β → Prop}
variable {x : Except ε α}

/-- A program returns something with `post`, or throws an `allowed` exception. -/
def Ensures (allowed : ε → Prop) (post : α → Prop) : Except ε α → Prop
  | .ok a => post a
  | .error e => allowed e

variable {allowed' : ε → Prop} {f : α → Except ε β} {failure : ε} {condition : Prop}

section

variable (h : Ensures allowed post x)
include h

/-- Fewer guarantees. -/
lemma Ensures.imp {post' : α → Prop} (hallowed : ∀ e, allowed e → allowed' e)
    (hpost : ∀ a, post a → post' a) : Ensures allowed' post' x := by
  cases x with
  | ok a => exact hpost a h
  | error e => exact hallowed e h

/-- A weaker result. -/
lemma Ensures.mono {post' : α → Prop} (hpost : ∀ a, post a → post' a) : Ensures allowed post' x :=
  h.imp (fun _ he => he) hpost

/-- What is known of a result. -/
lemma Ensures.of_eq_ok {a : α} (hx : x = .ok a) : post a := by
  rw [hx] at h
  exact h

/-- The result itself is known, too. -/
lemma Ensures.with_eq : Ensures allowed (fun a => post a ∧ x = .ok a) x := by
  cases x with
  | error => exact h
  | ok => exact ⟨h, rfl⟩

end

/-- One program after another. -/
theorem Ensures.bind (h : Ensures allowed post x) (hf : ∀ a, post a → Ensures allowed post' (f a)) :
    Ensures allowed post' (x >>= f) := by
  cases x with
  | ok a => exact hf a h
  | error e => exact h

/-- A program returns something with `post`. -/
abbrev Returns (post : α → Prop) (x : Except ε α) : Prop := Ensures (fun _ => False) post x

/-- There is a result. -/
lemma Returns.exists_eq_ok (h : Returns post x) : ∃ a, x = .ok a ∧ post a := by
  cases x with
  | ok a => exact ⟨a, rfl, h⟩
  | error e => exact h.elim

/-- Throw unless a condition holds. -/
def assertThat (failure : ε) (condition : Prop) [Decidable condition] : Except ε Unit :=
  if condition then .ok () else .error failure

lemma assertThat_of [Decidable condition] (h : condition) : assertThat failure condition = .ok () :=
  if_pos h

/-- When two computations succeed one after the other. -/
lemma bind_eq_ok_iff {b : β} : (x >>= f) = .ok b ↔ ∃ a, x = .ok a ∧ f a = .ok b := by
  cases x with
  | ok a =>
    constructor
    · exact fun h => ⟨a, rfl, h⟩
    · rintro ⟨a', ⟨⟩, h⟩
      exact h
  | error e =>
    constructor
    · exact fun h => nomatch h
    · rintro ⟨a, h, -⟩
      cases h

lemma mem_toOption_iff {a : α} : a ∈ x.toOption ↔ x = .ok a := by
  cases x <;> simp [Except.toOption]

lemma ok_bind (a : α) (f : α → Except ε β) : (Except.ok a >>= f) = f a := rfl

/-- An assertion that holds, unless it may fail. -/
theorem Ensures.assertion [Decidable condition] {f : Unit → Except ε β}
    (hfailure : ¬condition → allowed failure) (hf : condition → Ensures allowed post' (f ())) :
    Ensures allowed post' (assertThat failure condition >>= f) := by
  by_cases h : condition
  · rw [assertThat_of h]
    exact hf h
  · rw [assertThat, if_neg h]
    exact hfailure h

/-- A loop that only asserts something. -/
theorem forM_eq_ok {f : α → Except ε PUnit} {l : List α} (h : ∀ a ∈ l, f a = .ok ⟨⟩) :
    l.forM f = .ok ⟨⟩ := by
  induction l with
  | nil => rfl
  | cons a l ih =>
    obtain ⟨ha, hl⟩ := List.forall_mem_cons.mp h
    rw [List.forM, ha]
    exact ih hl

/-- A loop over a list keeps what each of its rounds keeps. -/
theorem ensures_foldlM {f : σ → α → Except ε σ} {inv : List α → σ → Prop} {l : List α} {s : σ}
    (hinit : inv l s)
    (hstep : ∀ a rest s, inv (a :: rest) s → Ensures allowed (inv rest) (f s a)) :
    Ensures allowed (inv []) (l.foldlM f s) := by
  induction l generalizing s with
  | nil => exact hinit
  | cons a l ih =>
    rw [List.foldlM_cons]
    exact (hstep a l s hinit).bind fun s' hs' => ih hs'

end Lib
