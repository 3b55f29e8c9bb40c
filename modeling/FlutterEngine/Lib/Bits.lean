import Mathlib.Tactic.Ring

/-!
# Numbers as sequences of bits

Bits are listed from the most significant one on. `ofBits` is the number that a sequence stands for,
and `toBits n v` are the `n` last bits of `v`. Numbers of a fixed width that are written one behind
another can be told apart again (`flatMap_toBits_injective`).
-/

namespace Lib

open List Nat

/-- The number with the given bits. -/
def ofBits : List Bool → ℕ
  | [] => 0
  | b :: l => b.toNat * 2 ^ l.length + ofBits l

/-- The `n` last bits of a number. -/
def toBits : ℕ → ℕ → List Bool
  | 0, _ => []
  | n + 1, v => (v / 2 ^ n % 2 == 1) :: toBits n v

@[simp] lemma length_toBits (n v : ℕ) : (toBits n v).length = n := by
  induction n with
  | zero => rfl
  | succ n ih => rw [toBits, length_cons, ih]

lemma ofBits_append (l l' : List Bool) :
    ofBits (l ++ l') = ofBits l * 2 ^ l'.length + ofBits l' := by
  induction l with
  | nil => simp [ofBits]
  | cons b l ih =>
    rw [cons_append, ofBits, ofBits, ih, List.length_append, pow_add]
    ring

lemma ofBits_lt (l : List Bool) : ofBits l < 2 ^ l.length := by
  induction l with
  | nil => exact one_pos
  | cons b l ih =>
    rw [ofBits, length_cons, pow_succ]
    cases b
    · rw [Bool.toNat_false]
      omega
    · rw [Bool.toNat_true]
      omega

lemma ofBits_toBits (n v : ℕ) : ofBits (toBits n v) = v % 2 ^ n := by
  induction n with
  | zero => simp [toBits, ofBits, mod_one]
  | succ n ih =>
    have hbit : (v / 2 ^ n % 2 == 1).toNat = v / 2 ^ n % 2 := by
      rcases mod_two_eq_zero_or_one (v / 2 ^ n) with h | h <;> rw [h] <;> rfl
    rw [toBits, ofBits, length_toBits, ih, hbit, pow_succ, mod_mul]
    ring

variable {n : ℕ} {l : List Bool}

lemma ofBits_toBits_of_lt {v : ℕ} (h : v < 2 ^ n) : ofBits (toBits n v) = v := by
  rw [ofBits_toBits, mod_eq_of_lt h]

/-- The last bits of a number do not depend on what stands before them. -/
theorem toBits_mul_add {m : ℕ} (h : n ≤ m) (k v : ℕ) : toBits n (k * 2 ^ m + v) = toBits n v := by
  induction n with
  | zero => rfl
  | succ n ih =>
    obtain ⟨d, rfl⟩ := Nat.exists_eq_add_of_le h
    have hpow : k * 2 ^ (n + 1 + d) + v = v + 2 ^ n * (2 * (k * 2 ^ d)) := by
      rw [pow_add, pow_succ]
      ring
    rw [toBits, toBits, ih (by omega)]
    congr 2
    rw [hpow, Nat.add_mul_div_left _ _ (Nat.two_pow_pos n), Nat.add_mul_mod_self_left]

lemma toBits_ofBits (l : List Bool) : toBits l.length (ofBits l) = l := by
  induction l with
  | nil => rfl
  | cons b l ih =>
    have hdiv : (b.toNat * 2 ^ l.length + ofBits l) / 2 ^ l.length = b.toNat := by
      rw [Nat.add_comm, Nat.add_mul_div_right _ _ (Nat.two_pow_pos _),
        Nat.div_eq_of_lt (ofBits_lt l), Nat.zero_add]
    rw [length_cons, toBits, ofBits, toBits_mul_add (le_refl _), ih, hdiv]
    cases b <;> rfl

/-- The bits of the higher half of a number. -/
theorem ofBits_take {k : ℕ} (h : n + k = l.length) : ofBits (l.take n) = ofBits l / 2 ^ k := by
  have hk : (l.drop n).length = k := by
    rw [length_drop]
    omega
  have hlt := ofBits_lt (l.drop n)
  rw [hk] at hlt
  rw [← take_append_drop n l, ofBits_append, take_append_drop, hk, Nat.add_comm,
    Nat.add_mul_div_right _ _ (Nat.two_pow_pos k), Nat.div_eq_of_lt hlt, Nat.zero_add]

/-- The bits of the lower half of a number. -/
theorem ofBits_drop {k : ℕ} (h : n + k = l.length) : ofBits (l.drop n) = ofBits l % 2 ^ k := by
  have hk : (l.drop n).length = k := by
    rw [length_drop]
    omega
  have hlt := ofBits_lt (l.drop n)
  rw [hk] at hlt
  rw [← take_append_drop n l, ofBits_append, take_append_drop, hk, add_comm,
    add_mul_mod_self_right, mod_eq_of_lt hlt]

lemma ofBits_replicate_false (n : ℕ) : ofBits (List.replicate n false) = 0 := by
  induction n with
  | zero => rfl
  | succ n ih => rw [replicate_succ, ofBits, ih, Bool.toNat_false, zero_mul]

/-- Numbers of `n` bits that are written one behind another. -/
theorem flatMap_toBits_injective (hn : 0 < n) {l l' : List ℕ} (hl : ∀ v ∈ l, v < 2 ^ n)
    (hl' : ∀ v ∈ l', v < 2 ^ n) (h : l.flatMap (toBits n) = l'.flatMap (toBits n)) : l = l' := by
  induction l generalizing l' with
  | nil =>
    cases l' with
    | nil => rfl
    | cons v l' =>
      have hlength := congrArg List.length h
      simp at hlength
      omega
  | cons v l ih =>
    cases l' with
    | nil =>
      have hlength := congrArg List.length h
      simp at hlength
      omega
    | cons v' l' =>
      obtain ⟨hv, hl⟩ := forall_mem_cons.mp hl
      obtain ⟨hv', hl'⟩ := forall_mem_cons.mp hl'
      rw [flatMap_cons, flatMap_cons] at h
      obtain ⟨hhead, htail⟩ := append_inj h (by simp)
      rw [ih hl hl' htail, ← ofBits_toBits_of_lt hv, hhead, ofBits_toBits_of_lt hv']

end Lib
