import Mathlib.Algebra.GroupWithZero.Nat
import Mathlib.Data.List.Perm.Subperm

/-!
# Maps filled entry by entry

Two ways in which programs build a map from a sequence of entries.

* An *ordered map* (`emplaceAll`) keeps its entries in the order of its keys and ignores an entry
  whose key is equivalent to one already there. Entries that arrive in order stay as they are
  (`emplaceAll_of_sorted`), entries with pairwise inequivalent keys are all kept
  (`emplaceAll_perm`), and no entry is ever invented (`emplaceAll_subperm`).
* A *hash map* (`putAll`) keeps the first of two equal keys with the last of their values. Entries
  with pairwise different keys stay as they are (`putAll_of_distinct`), and so do any entries of
  which none is dropped (`putAll_of_length_le`). Whatever is dropped, the map weighs no more than
  its entries (`sum_putAll_le`).
-/

namespace Lib

open List

variable {κ ν : Type}

/-- Entries stay as they are if each of them is added at the end. -/
theorem foldl_eq_append {R : κ × ν → κ × ν → Prop} {f : List (κ × ν) → κ × ν → List (κ × ν)}
    (hf : ∀ {m e}, (∀ e' ∈ m, R e' e) → f m e = m ++ [e]) {m l : List (κ × ν)}
    (h : (m ++ l).Pairwise R) : l.foldl f m = m ++ l := by
  induction l generalizing m with
  | nil => exact (append_nil m).symm
  | cons e l ih =>
    have hlast : f m e = m ++ [e] :=
      hf fun e' he' => (pairwise_append.mp h).2.2 e' he' e mem_cons_self
    have hassoc : m ++ e :: l = m ++ [e] ++ l := by rw [append_assoc, singleton_append]
    rw [foldl_cons, hlast, ih (by rwa [← hassoc]), hassoc]

/-! ## Ordered maps -/

section Ordered

variable (lt : κ → κ → Bool)

/-- Insert an entry before the first key that is not smaller, unless that key is equivalent. -/
def emplace (k : κ) (v : ν) : List (κ × ν) → List (κ × ν)
  | [] => [(k, v)]
  | (k', v') :: m =>
    if lt k' k then (k', v') :: emplace k v m
    else if lt k k' then (k, v) :: (k', v') :: m
    else (k', v') :: m

/-- Insert the entries of a list one after the other. -/
def emplaceFrom (m : List (κ × ν)) (l : List (κ × ν)) : List (κ × ν) :=
  l.foldl (fun m e => emplace lt e.1 e.2 m) m

/-- The ordered map filled with the entries of a list. -/
def emplaceAll (l : List (κ × ν)) : List (κ × ν) := emplaceFrom lt [] l

variable {lt} {k : κ} {v : ν} {m l : List (κ × ν)}

/-- A largest key goes to the end. -/
theorem emplace_of_forall_lt (h : ∀ e ∈ m, lt e.1 k = true) : emplace lt k v m = m ++ [(k, v)] := by
  induction m with
  | nil => rfl
  | cons e m ih =>
    obtain ⟨he, hm⟩ := forall_mem_cons.mp h
    rw [emplace, if_pos he, ih hm, cons_append]

/-- Entries that arrive in order stay as they are. -/
theorem emplaceAll_of_sorted (h : l.Pairwise fun e e' => lt e.1 e'.1 = true) :
    emplaceAll lt l = l :=
  foldl_eq_append emplace_of_forall_lt (by rwa [nil_append])

/-- An entry is ignored or added. -/
theorem emplace_eq_or_perm : emplace lt k v m = m ∨ (emplace lt k v m).Perm ((k, v) :: m) := by
  induction m with
  | nil => exact .inr (List.Perm.refl _)
  | cons e m ih =>
    obtain ⟨k', v'⟩ := e
    rw [emplace]
    split
    · rcases ih with ih | ih
      · rw [ih]
        exact .inl rfl
      · exact .inr ((ih.cons (k', v')).trans (List.Perm.swap _ _ _))
    · split
      · exact .inr (List.Perm.refl _)
      · exact .inl rfl

/-- Entries come from the map or the list. -/
lemma emplaceFrom_subperm : (emplaceFrom lt m l).Subperm (m ++ l) := by
  induction l generalizing m with
  | nil => exact (append_nil m).symm ▸ List.Subperm.refl m
  | cons e l ih =>
    rw [emplaceFrom, foldl_cons, ← emplaceFrom]
    refine ih.trans ?_
    have hcases : emplace lt e.1 e.2 m = m ∨ (emplace lt e.1 e.2 m).Perm (e :: m) :=
      emplace_eq_or_perm
    rcases hcases with h | h
    · rw [h]
      exact ((sublist_cons_self e l).append_left m).subperm
    · exact ((h.append_right l).trans perm_middle.symm).subperm

/-- Every entry of the map was inserted, and as often. -/
theorem emplaceAll_subperm : (emplaceAll lt l).Subperm l := emplaceFrom_subperm

/-- An entry whose key is comparable with all others is added. -/
theorem emplace_perm (h : ∀ e ∈ m, lt e.1 k = true ∨ lt k e.1 = true) :
    (emplace lt k v m).Perm ((k, v) :: m) := by
  induction m with
  | nil => exact List.Perm.refl _
  | cons e m ih =>
    obtain ⟨he, hm⟩ := forall_mem_cons.mp h
    rw [emplace]
    split
    · exact ((ih hm).cons e).trans (List.Perm.swap _ _ _)
    · next hlt => rw [if_pos (he.resolve_left hlt)]

/-- With different keys all entries are kept. -/
lemma emplaceFrom_perm (h : (m ++ l).Pairwise fun e e' => lt e.1 e'.1 = true ∨ lt e'.1 e.1 = true) :
    (emplaceFrom lt m l).Perm (m ++ l) := by
  induction l generalizing m with
  | nil => exact (append_nil m).symm ▸ List.Perm.refl m
  | cons e l ih =>
    have hadd : (emplace lt e.1 e.2 m).Perm (e :: m) :=
      emplace_perm fun e' he' => (pairwise_append.mp h).2.2 e' he' e mem_cons_self
    have hperm : (emplace lt e.1 e.2 m ++ l).Perm (m ++ e :: l) :=
      (hadd.append_right l).trans perm_middle.symm
    rw [emplaceFrom, foldl_cons, ← emplaceFrom]
    exact (ih (h.perm hperm.symm fun hor => hor.symm)).trans hperm

/-- Entries with pairwise comparable keys are all kept. -/
theorem emplaceAll_perm (h : l.Pairwise fun e e' => lt e.1 e'.1 = true ∨ lt e'.1 e.1 = true) :
    (emplaceAll lt l).Perm l :=
  emplaceFrom_perm (by rwa [nil_append])

end Ordered

/-! ## Hash maps -/

section Hashed

variable (eq : κ → κ → Bool)

/-- Replace the value of an equal key, or add an entry. -/
def put (k : κ) (v : ν) : List (κ × ν) → List (κ × ν)
  | [] => [(k, v)]
  | (k', v') :: m => if eq k' k then (k', v) :: m else (k', v') :: put k v m

/-- Put the entries of a list one after the other. -/
def putFrom (m : List (κ × ν)) (l : List (κ × ν)) : List (κ × ν) :=
  l.foldl (fun m e => put eq e.1 e.2 m) m

/-- The hash map filled with the entries of a list. -/
def putAll (l : List (κ × ν)) : List (κ × ν) := putFrom eq [] l

variable {eq} {k : κ} {v : ν} {m l : List (κ × ν)}

/-- A new key is added at the end. -/
lemma put_of_forall_ne (h : ∀ e ∈ m, eq e.1 k = false) : put eq k v m = m ++ [(k, v)] := by
  induction m with
  | nil => rfl
  | cons e m ih =>
    obtain ⟨he, hm⟩ := forall_mem_cons.mp h
    rw [put, he, ih hm]
    rfl

/-- Entries with pairwise different keys stay as they are. -/
theorem putAll_of_distinct (h : l.Pairwise fun e e' => eq e.1 e'.1 = false) : putAll eq l = l :=
  foldl_eq_append put_of_forall_ne (by rwa [nil_append])

/-- An entry replaces another or goes to the end. -/
theorem put_eq_or_length : put eq k v m = m ++ [(k, v)] ∨ (put eq k v m).length = m.length := by
  induction m with
  | nil => exact .inl rfl
  | cons e m ih =>
    rw [put]
    split
    · exact .inr rfl
    · rcases ih with h | h
      · exact .inl (by rw [h, cons_append])
      · exact .inr (by rw [length_cons, h, length_cons])

/-- There are no more entries than were put. -/
lemma length_putFrom_le : (putFrom eq m l).length ≤ m.length + l.length := by
  induction l generalizing m with
  | nil => exact Nat.le_refl _
  | cons e l ih =>
    rw [putFrom, foldl_cons, ← putFrom, length_cons]
    have hle := ih (m := put eq e.1 e.2 m)
    have hput : put eq e.1 e.2 m = m ++ [e] ∨ (put eq e.1 e.2 m).length = m.length :=
      put_eq_or_length
    rcases hput with h | h
    · rw [h, length_append, length_singleton] at hle
      rw [h]
      omega
    · omega

/-- If none is missing, all were added. -/
lemma putFrom_of_length_le (h : m.length + l.length ≤ (putFrom eq m l).length) :
    putFrom eq m l = m ++ l := by
  induction l generalizing m with
  | nil => exact (append_nil m).symm
  | cons e l ih =>
    rw [putFrom, foldl_cons, ← putFrom, length_cons] at h
    rw [putFrom, foldl_cons, ← putFrom]
    have hput : put eq e.1 e.2 m = m ++ [e] ∨ (put eq e.1 e.2 m).length = m.length :=
      put_eq_or_length
    rcases hput with hlast | hlength
    · rw [hlast] at h ⊢
      rw [ih (by rwa [length_append, length_singleton, Nat.add_assoc, Nat.add_comm 1]),
        append_assoc, singleton_append]
    · -- An entry that was dropped is missing in the end.
      have : (putFrom eq (put eq e.1 e.2 m) l).length ≤ (put eq e.1 e.2 m).length + l.length :=
        length_putFrom_le
      omega

/-- Entries of which none is dropped stay as they are. -/
theorem putAll_of_length_le (h : l.length ≤ (putAll eq l).length) : putAll eq l = l :=
  putFrom_of_length_le (by rwa [length_nil, Nat.zero_add])

lemma length_putAll_le : (putAll eq l).length ≤ l.length := by
  have : (putFrom eq [] l).length ≤ [].length + l.length := length_putFrom_le
  rwa [length_nil, Nat.zero_add] at this

section Weight

variable (eq) (w : κ → ℕ) (w' : ν → ℕ)

/-- An entry adds its weight at most. -/
lemma sum_put_le : ((put eq k v m).map fun e => w e.1 + w' e.2).sum ≤
      (m.map fun e => w e.1 + w' e.2).sum + (w k + w' v) := by
  induction m with
  | nil => simp [put]
  | cons e m ih =>
    rw [put]
    split
    · simp only [map_cons, sum_cons]
      omega
    · simp only [map_cons, sum_cons] at ih ⊢
      omega

/-- Entries add their weights at most. -/
lemma sum_putFrom_le : ((putFrom eq m l).map fun e => w e.1 + w' e.2).sum ≤
      (m.map fun e => w e.1 + w' e.2).sum + (l.map fun e => w e.1 + w' e.2).sum := by
  induction l generalizing m with
  | nil => exact Nat.le_refl _
  | cons e l ih =>
    rw [putFrom, foldl_cons, ← putFrom, map_cons, sum_cons]
    have hrest := ih (m := put eq e.1 e.2 m)
    have hput := sum_put_le eq w w' (k := e.1) (v := e.2) (m := m)
    omega

/-- A map weighs no more than the entries that were put into it. -/
theorem sum_putAll_le :
    ((putAll eq l).map fun e => w e.1 + w' e.2).sum ≤ (l.map fun e => w e.1 + w' e.2).sum := by
  have := sum_putFrom_le eq w w' (m := []) (l := l)
  rwa [map_nil, sum_nil, Nat.zero_add] at this

end Weight

end Hashed

end Lib
