import Mathlib.Data.List.Sort

/-!
# Priority queues

A priority queue over a total preorder `r`, kept as a list in ascending order. It has the
interface of `std::priority_queue`: `push`, `top`, `pop`. Among equivalent elements the order is
unspecified there; here the last one pushed comes first.
-/

namespace Lib

open List

/-- A priority queue whose `top` is a least element for `r`. -/
@[ext]
structure PriorityQueue {α : Type*} (r : α → α → Prop) where
  /-- The elements in ascending order. -/
  toList : List α
  sorted : toList.Pairwise r

namespace PriorityQueue

variable {α : Type*} {r : α → α → Prop}

/-- The queue with no element. -/
def empty : PriorityQueue r := ⟨[], .nil⟩

/-- Whether the queue has no element. -/
def isEmpty (q : PriorityQueue r) : Bool := q.toList.isEmpty

/-- A least element, `none` on the empty queue. -/
def top? (q : PriorityQueue r) : Option α := q.toList.head?

/-- Remove the element `top?` returns. -/
def pop (q : PriorityQueue r) : PriorityQueue r := ⟨q.toList.tail, q.sorted.tail⟩

/-- Add an element. -/
def push [DecidableRel r] [Std.Total r] [IsTrans α r] (q : PriorityQueue r) (a : α) :
    PriorityQueue r :=
  ⟨q.toList.orderedInsert r a, q.sorted.orderedInsert a⟩

variable {q : PriorityQueue r} {a : α}

@[simp]
lemma isEmpty_eq_false_iff : q.isEmpty = false ↔ q.toList ≠ [] := by simp [isEmpty]

lemma top?_eq_some_iff : q.top? = some a ↔ q.toList = a :: q.pop.toList := by
  cases h : q.toList with
  | nil => simp [top?, h]
  | cons b l => simp [top?, pop, h]

/-- The top of a queue is below every element. -/
theorem top?_le [Std.Total r] {b : α} (htop : q.top? = some a) (hb : b ∈ q.toList) : r a b := by
  have hsorted := q.sorted
  rw [top?_eq_some_iff.mp htop] at hsorted hb
  rcases mem_cons.mp hb with rfl | hb
  · exact (Std.Total.total b b).elim id id
  · exact (pairwise_cons.mp hsorted).1 b hb

variable [DecidableRel r] [Std.Total r] [IsTrans α r]

lemma push_perm (q : PriorityQueue r) (a : α) : (q.push a).toList.Perm (a :: q.toList) :=
  perm_orderedInsert r a q.toList

lemma mem_push {b : α} : b ∈ (q.push a).toList ↔ b = a ∨ b ∈ q.toList := by
  rw [(push_perm q a).mem_iff, mem_cons]

end PriorityQueue

/-- The head of the merge of two lists is the head of one of them, and merging goes on with its
tail. -/
theorem merge_eq_cons {α : Type*} {le : α → α → Bool} {xs ys rest : List α} {a : α}
    (h : xs.merge ys le = a :: rest) :
    (∃ xs', xs = a :: xs' ∧ rest = xs'.merge ys le) ∨
      ∃ ys', ys = a :: ys' ∧ rest = xs.merge ys' le := by
  cases xs with
  | nil =>
    rw [nil_merge] at h
    exact .inr ⟨rest, h, by rw [nil_merge]⟩
  | cons x xs =>
    cases ys with
    | nil =>
      rw [merge_right] at h
      obtain ⟨rfl, rfl⟩ := cons.inj h
      exact .inl ⟨xs, rfl, by rw [merge_right]⟩
    | cons y ys =>
      rw [cons_merge_cons] at h
      split at h
      · obtain ⟨rfl, rfl⟩ := cons.inj h
        exact .inl ⟨xs, rfl, rfl⟩
      · obtain ⟨rfl, rfl⟩ := cons.inj h
        exact .inr ⟨ys, rfl, rfl⟩

end Lib
