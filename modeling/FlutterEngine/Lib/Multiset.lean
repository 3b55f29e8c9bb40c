import Mathlib.Algebra.Order.Group.Multiset
import Mathlib.Tactic.Abel

/-!
# Bags of list elements

Machines that hand elements from list to list keep the bag of all of them. Taking one element out of
a list, or out of a list of lists, leaves the rest.
-/

namespace Lib

open List Multiset

variable {α : Type*}

lemma coe_eraseIdx {l : List α} {index : ℕ} {x : α} (h : l[index]? = some x) :
    (l : Multiset α) = ([x] : List α) + (l.eraseIdx index : List α) := by
  obtain ⟨hlt, rfl⟩ := List.getElem?_eq_some_iff.mp h
  rw [coe_add]
  exact coe_eq_coe.mpr (getElem_cons_eraseIdx_perm hlt).symm

lemma coe_flatten_set {lists : List (List α)} {index : ℕ} {x : α} {xs : List α}
    (h : lists[index]? = some (x :: xs)) :
    (lists.flatten : Multiset α) = ([x] : List α) + ((lists.set index xs).flatten : List α) := by
  obtain ⟨hlt, heq⟩ := List.getElem?_eq_some_iff.mp h
  have hsplit : lists = lists.take index ++ (x :: xs) :: lists.drop (index + 1) := by
    rw [← heq, getElem_cons_drop, take_append_drop]
  rw [set_eq_take_append_cons_drop, if_pos hlt]
  conv_lhs => rw [hsplit]
  simp only [flatten_append, flatten_cons, cons_append, ← coe_add, ← cons_coe, ← singleton_add]
  abel

end Lib
