import Mathlib.Data.List.Nodup

/-!
# Maps that keep the order of their keys

A `LinkedMap` lists its keys in the order in which they were inserted.
-/

namespace Lib

open Function

/-- A map with the list of its keys. -/
structure LinkedMap (κ ν : Type) where
  keys : List κ
  get : κ → Option ν
  mem_keys : ∀ {k}, k ∈ keys ↔ (get k).isSome
  nodup : keys.Nodup

namespace LinkedMap

variable {κ ν : Type} {m : LinkedMap κ ν} {k k' : κ} {v : ν}

def empty : LinkedMap κ ν where
  keys := []
  get _ := none
  mem_keys := by simp
  nodup := List.nodup_nil

variable [DecidableEq κ]

/-- `m[k] = v` -/
def insert (m : LinkedMap κ ν) (k : κ) (v : ν) : LinkedMap κ ν where
  keys := if k ∈ m.keys then m.keys else m.keys ++ [k]
  get := Function.update m.get k (some v)
  mem_keys := by
    intro k'
    by_cases hk : k' = k
    · subst hk
      rw [update_self]
      split
      · next hmem => simpa using hmem
      · simp
    · rw [update_of_ne hk, ← m.mem_keys]
      split
      · exact Iff.rfl
      · simp [hk]
  nodup := by
    split
    · exact m.nodup
    · next hmem => simpa [List.nodup_append] using ⟨m.nodup, fun k' hk' heq => hmem (heq ▸ hk')⟩

/-- `m.remove(k)` -/
def erase (m : LinkedMap κ ν) (k : κ) : LinkedMap κ ν where
  keys := m.keys.erase k
  get := Function.update m.get k none
  mem_keys := by
    intro k'
    rw [m.nodup.mem_erase_iff, m.mem_keys]
    by_cases hk : k' = k
    · simp [hk]
    · simp [hk]
  nodup := m.nodup.erase k

@[simp] lemma get_insert_self : (m.insert k v).get k = some v := update_self ..

@[simp] lemma get_insert_of_ne (hk : k' ≠ k) : (m.insert k v).get k' = m.get k' :=
  update_of_ne hk ..

@[simp] lemma get_erase_self : (m.erase k).get k = none := update_self ..

@[simp] lemma get_erase_of_ne (hk : k' ≠ k) : (m.erase k).get k' = m.get k' := update_of_ne hk ..

end LinkedMap

end Lib
