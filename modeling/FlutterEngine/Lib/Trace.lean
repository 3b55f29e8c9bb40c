import Mathlib.Data.List.Basic

/-!
# Sequences that grow at their end

Statements about the members of a sequence in view of those before them, with the rule for one more
member. What is said of a sequence is then proved by following how it grows.

* `Throughout P l`: every member `x` satisfies `P before x`, where `before` are the members in front
  of it.
* `Since p q l`: some member satisfies `p`, and no later one satisfies `q`.
* `lastOf p l`: the last member that satisfies `p`.
-/

namespace Lib

open List

variable {α : Type}

/-- Every member satisfies `P`, given the members in front of it. -/
def Throughout (P : List α → α → Prop) (l : List α) : Prop :=
  ∀ before x after, l = before ++ x :: after → P before x

section Throughout

variable {P : List α → α → Prop} {l : List α} {x : α}

@[simp] lemma throughout_nil : Throughout P [] := by
  intro before x after h
  simp at h

lemma throughout_snoc : Throughout P (l ++ [x]) ↔ Throughout P l ∧ P l x := by
  constructor
  · intro h
    refine ⟨fun before y after hl => ?_, h l x [] rfl⟩
    exact h before y (after ++ [x]) (by simp [hl])
  · rintro ⟨hl, hx⟩ before y after heq
    rcases eq_nil_or_concat' after with rfl | ⟨after, z, rfl⟩
    · obtain ⟨rfl, hxy⟩ := append_inj' heq rfl
      cases hxy
      exact hx
    · rw [← cons_append, ← append_assoc] at heq
      exact hl before y after (append_inj_left' heq rfl)

end Throughout

/-- Some member satisfies `p`, and no later one satisfies `q`. -/
def Since (p q : α → Prop) (l : List α) : Prop :=
  ∃ before x after, l = before ++ x :: after ∧ p x ∧ ∀ y ∈ after, ¬q y

section Since

variable {p q : α → Prop} {l : List α} {x : α}

@[simp] lemma not_since_nil : ¬Since p q [] := by
  rintro ⟨before, x, after, h, -⟩
  simp at h

lemma since_snoc : Since p q (l ++ [x]) ↔ p x ∨ Since p q l ∧ ¬q x := by
  constructor
  · rintro ⟨before, y, after, heq, hp, hq⟩
    rcases eq_nil_or_concat' after with rfl | ⟨after, z, rfl⟩
    · obtain ⟨rfl, hxy⟩ := append_inj' heq rfl
      cases hxy
      exact .inl hp
    · rw [← cons_append, ← append_assoc] at heq
      obtain ⟨rfl, hxz⟩ := append_inj' heq rfl
      cases hxz
      refine .inr ⟨⟨before, y, after, rfl, hp, fun w hw => hq w (by simp [hw])⟩, hq x (by simp)⟩
  · rintro (hp | ⟨⟨before, y, after, rfl, hp, hq⟩, hx⟩)
    · exact ⟨l, x, [], rfl, hp, by simp⟩
    · refine ⟨before, y, after ++ [x], by simp, hp, fun w hw => ?_⟩
      rcases mem_append.mp hw with hw | hw
      · exact hq w hw
      · rwa [mem_singleton.mp hw]

end Since

/-- The last member that satisfies `p`. -/
def lastOf (p : α → Bool) (l : List α) : Option α := (l.filter p).getLast?

section LastOf

variable {p : α → Bool} {l : List α} {x : α}

@[simp] lemma lastOf_nil : lastOf p [] = none := rfl

lemma lastOf_snoc : lastOf p (l ++ [x]) = if p x then some x else lastOf p l := by
  rw [lastOf, lastOf, filter_append]
  cases h : p x with
  | true | false => simp [h]

end LastOf

end Lib
