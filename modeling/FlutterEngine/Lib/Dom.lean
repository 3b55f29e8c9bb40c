import FlutterEngine.Lib.Outcome
import Mathlib.Data.List.Nodup
import Mathlib.Data.Set.Insert

/-!
# Elements of the DOM

A `Dom` is a forest of elements, which are numbered in the order of their creation. An element that
is inserted or appended leaves its former parent. The browser refuses to put an element into itself
or into one of its descendants.

Programs that rearrange elements step by step are verified by splitting the children of an element
with a set: `within s` are those that belong to it, in their order. An element that is put into its
place joins the set (`within_moveTo_insert_self`), and all others stay as they are
(`within_moveTo_of_notMem`).
-/

namespace Lib

open Function List

/-- Why the browser refuses an operation. -/
inductive DomException where
  | hierarchyRequestError
  | notFoundError
deriving DecidableEq, Repr

/-- A forest of elements. -/
structure Dom where
  size : ℕ
  parent : ℕ → Option ℕ
  children : ℕ → List ℕ
  mem_children : ∀ {p c}, c ∈ children p ↔ parent c = some p
  nodup : ∀ p, (children p).Nodup
  lt_size : ∀ {p c}, parent c = some p → c < size ∧ p < size

namespace Dom

/-- No elements. -/
def empty : Dom where
  size := 0
  parent _ := none
  children _ := []
  mem_children := by simp
  nodup _ := nodup_nil
  lt_size := by simp

/-- The element that is created next is `d.size`. -/
def createElement (d : Dom) : Dom where
  size := d.size + 1
  parent := d.parent
  children := d.children
  mem_children := d.mem_children
  nodup := d.nodup
  lt_size h := ⟨Nat.lt_succ_of_lt (d.lt_size h).1, Nat.lt_succ_of_lt (d.lt_size h).2⟩

/-- Put an element in front of another one, or at the end. -/
def place (c : ℕ) : Option ℕ → List ℕ → List ℕ
  | none, l => l ++ [c]
  | some ref, l => l.takeWhile (· ≠ ref) ++ c :: l.dropWhile (· ≠ ref)

/-- Placing adds one child. -/
lemma place_perm (c : ℕ) (ref : Option ℕ) (l : List ℕ) : (place c ref l).Perm (c :: l) := by
  cases ref with
  | none => exact perm_append_singleton c l
  | some ref =>
    refine perm_middle.trans (List.Perm.cons c ?_)
    rw [takeWhile_append_dropWhile]

/-- The children after placing. -/
lemma mem_place {c x : ℕ} {ref : Option ℕ} {l : List ℕ} : x ∈ place c ref l ↔ x = c ∨ x ∈ l := by
  rw [(place_perm c ref l).mem_iff, mem_cons]

/-- `remove()` -/
def remove (d : Dom) (c : ℕ) : Dom where
  size := d.size
  parent := Function.update d.parent c none
  children p := (d.children p).erase c
  mem_children := by
    intro p x
    rw [(d.nodup p).mem_erase_iff, d.mem_children]
    by_cases h : x = c
    · simp [h]
    · simp [h]
  nodup p := (d.nodup p).erase c
  lt_size := by
    intro p x h
    by_cases hx : x = c
    · rw [hx, update_self] at h
      cases h
    · rw [update_of_ne hx] at h
      exact d.lt_size h

/-- Make an element a child of another, in front of a sibling or at the end. -/
def moveTo (d : Dom) (p c : ℕ) (ref : Option ℕ) (h : p < d.size ∧ c < d.size) : Dom where
  size := d.size
  parent := Function.update d.parent c (some p)
  children q := if q = p then place c ref ((d.children p).erase c) else (d.children q).erase c
  mem_children := by
    intro q x
    by_cases hx : x = c
    · subst hx
      rw [update_self]
      split
      · next hq => simp [hq, mem_place]
      · next hq =>
        rw [(d.nodup q).mem_erase_iff]
        simpa using fun h => hq h.symm
    · rw [update_of_ne hx]
      split
      · next hq =>
        rw [mem_place, (d.nodup p).mem_erase_iff, d.mem_children, hq]
        simp [hx]
      · rw [(d.nodup q).mem_erase_iff, d.mem_children]
        simp [hx]
  nodup q := by
    split
    · refine (place_perm c ref _).nodup_iff.mpr (nodup_cons.mpr ⟨?_, (d.nodup p).erase c⟩)
      rw [(d.nodup p).mem_erase_iff]
      exact fun hmem => hmem.1 rfl
    · exact (d.nodup q).erase c
  lt_size := by
    intro q x hparent
    by_cases hx : x = c
    · rw [hx, update_self] at hparent
      rw [hx, ← Option.some.inj hparent]
      exact ⟨h.2, h.1⟩
    · rw [update_of_ne hx] at hparent
      exact d.lt_size hparent

/-- An element with its parent, its parent's parent and so on. There are at most `d.size` of
them. -/
def inclusiveAncestors (d : Dom) : ℕ → ℕ → List ℕ
  | 0, _ => []
  | fuel + 1, e => e :: (d.parent e).elim [] (d.inclusiveAncestors fuel)

/-- `insertBefore(c, ref)`, and `append(c)` if there is no `ref`. -/
def insertBefore (d : Dom) (p c : ℕ) (ref : Option ℕ) : Except DomException Dom :=
  if h : p < d.size ∧ c < d.size then
    if c ∈ d.inclusiveAncestors d.size p then .error .hierarchyRequestError
    else if ref.any fun r => d.parent r ≠ some p then .error .notFoundError
    else if ref = some c then .ok d
    else .ok (d.moveTo p c ref h)
  else .error .notFoundError

/-- `append(c)` -/
def append (d : Dom) (p c : ℕ) : Except DomException Dom := d.insertBefore p c none

/-! ## The children within a set -/

section Restrict

open Classical

variable {s t : Set ℕ} {l l' : List ℕ} {c e r : ℕ}

/-- The members of a list that belong to a set. -/
noncomputable def restrict (s : Set ℕ) (l : List ℕ) : List ℕ := l.filter fun e => e ∈ s

lemma mem_restrict : e ∈ restrict s l ↔ e ∈ l ∧ e ∈ s := by simp [restrict]

@[simp] lemma restrict_nil : restrict s [] = [] := rfl

lemma restrict_cons_of_mem (he : e ∈ s) : restrict s (e :: l) = e :: restrict s l :=
  filter_cons_of_pos (decide_eq_true he)

lemma restrict_cons_of_notMem (he : e ∉ s) : restrict s (e :: l) = restrict s l :=
  filter_cons_of_neg (by simpa using he)

@[simp] lemma restrict_append : restrict s (l ++ l') = restrict s l ++ restrict s l' :=
  filter_append _ _

/-- Nothing is left out. -/
lemma restrict_eq_self (h : ∀ e ∈ l, e ∈ s) : restrict s l = l :=
  filter_eq_self.mpr fun e he => decide_eq_true (h e he)

/-- Everything is left out. -/
lemma restrict_eq_nil (h : ∀ e ∈ l, e ∉ s) : restrict s l = [] :=
  filter_eq_nil_iff.mpr fun e he => by simpa using h e he

/-- Only the elements of the list matter. -/
lemma restrict_congr (h : ∀ e ∈ l, e ∈ s ↔ e ∈ t) : restrict s l = restrict t l :=
  filter_congr fun e he => decide_eq_decide.mpr (h e he)

/-- Restricting twice. -/
lemma restrict_restrict (hst : s ⊆ t) : restrict s (restrict t l) = restrict s l := by
  rw [restrict, restrict, filter_filter]
  refine filter_congr fun e _ => ?_
  by_cases he : e ∈ s
  · simp [he, hst he]
  · simp [he]

/-- An element that is not in the list does not matter. -/
lemma restrict_insert (hc : c ∉ l) : restrict (insert c s) l = restrict s l := by
  refine restrict_congr fun e he => ?_
  have hne : e ≠ c := fun heq => hc (heq ▸ he)
  simp [hne]

/-- Erasing what is left out anyway. -/
lemma restrict_erase (hl : l.Nodup) (hc : c ∉ s) : restrict s (l.erase c) = restrict s l := by
  rw [hl.erase_eq_filter, restrict, filter_filter]
  refine filter_congr fun e _ => ?_
  by_cases he : e = c
  · simp [he, hc]
  · simp [he]

/-- Restricting in front of an element that stays. -/
lemma restrict_takeWhile (hr : r ∈ s) :
    restrict s (l.takeWhile (· ≠ r)) = (restrict s l).takeWhile (· ≠ r) := by
  induction l with
  | nil => rfl
  | cons e l ih =>
    by_cases he : e = r
    · rw [he, restrict_cons_of_mem hr, takeWhile_cons_of_neg (by simp),
        takeWhile_cons_of_neg (by simp), restrict_nil]
    · rw [takeWhile_cons_of_pos (by simpa using he)]
      by_cases hes : e ∈ s
      · rw [restrict_cons_of_mem hes, restrict_cons_of_mem hes,
          takeWhile_cons_of_pos (by simpa using he), ih]
      · rw [restrict_cons_of_notMem hes, restrict_cons_of_notMem hes, ih]

/-- Restricting from an element on that stays. -/
lemma restrict_dropWhile (hr : r ∈ s) :
    restrict s (l.dropWhile (· ≠ r)) = (restrict s l).dropWhile (· ≠ r) := by
  induction l with
  | nil => rfl
  | cons e l ih =>
    by_cases he : e = r
    · rw [he, dropWhile_cons_of_neg (by simp), restrict_cons_of_mem hr,
        dropWhile_cons_of_neg (by simp)]
    · rw [dropWhile_cons_of_pos (by simpa using he)]
      by_cases hes : e ∈ s
      · rw [restrict_cons_of_mem hes, dropWhile_cons_of_pos (by simpa using he), ih]
      · rw [restrict_cons_of_notMem hes, ih]

/-- Placing what is left out anyway. -/
lemma restrict_place_of_notMem {ref : Option ℕ} (hc : c ∉ s) :
    restrict s (place c ref l) = restrict s l := by
  cases ref with
  | none => rw [place, restrict_append, restrict_cons_of_notMem hc, restrict_nil, List.append_nil]
  | some r =>
    rw [place, restrict_append, restrict_cons_of_notMem hc, ← restrict_append,
      takeWhile_append_dropWhile]

/-- Placing next to an element that stays. -/
lemma restrict_place {ref : Option ℕ} (hc : c ∈ s) (href : ∀ r, ref = some r → r ∈ s) :
    restrict s (place c ref l) = place c ref (restrict s l) := by
  cases ref with
  | none => rw [place, place, restrict_append, restrict_cons_of_mem hc, restrict_nil]
  | some r =>
    have hr := href r rfl
    rw [place, place, restrict_append, restrict_cons_of_mem hc, restrict_takeWhile hr,
      restrict_dropWhile hr]

end Restrict

section Within

variable {d d' : Dom} {s t : Set ℕ} {p q c e : ℕ} {ref : Option ℕ} {h : p < d.size ∧ c < d.size}

/-- The children of an element that belong to a set. -/
noncomputable def within (d : Dom) (s : Set ℕ) (p : ℕ) : List ℕ := restrict s (d.children p)

/-- The children of a node that are looked at. -/
lemma mem_within : e ∈ d.within s p ↔ d.parent e = some p ∧ e ∈ s := by
  rw [within, mem_restrict, d.mem_children]

/-- What two forests have in common within a set, they have in common within a smaller one. -/
theorem within_congr (hst : s ⊆ t) (heq : d.within t p = d'.within t p) :
    d.within s p = d'.within s p := by
  rw [within, ← restrict_restrict hst, ← within, heq, within, restrict_restrict hst, ← within]

/-- Only the elements that have the parent matter. -/
theorem within_congr_set (h : ∀ e, d.parent e = some p → (e ∈ s ↔ e ∈ t)) :
    d.within s p = d.within t p :=
  restrict_congr fun e he => h e (d.mem_children.mp he)

/-- A child of another node does not matter. -/
lemma within_insert_of_ne (hc : d.parent c ≠ some p) : d.within (insert c s) p = d.within s p :=
  restrict_insert fun hmem => hc (d.mem_children.mp hmem)

/-- Moving an element leaves all others as they are. -/
theorem within_moveTo_of_notMem (hc : c ∉ s) : (d.moveTo p c ref h).within s q = d.within s q := by
  rw [within, moveTo]
  dsimp only
  split
  · next hq => rw [restrict_place_of_notMem hc, restrict_erase (d.nodup p) hc, hq, within]
  · rw [restrict_erase (d.nodup q) hc, within]

/-- The new parent of a node that is moved. -/
lemma parent_moveTo_self : (d.moveTo p c ref h).parent c = some p := by simp [moveTo]

/-- Other nodes keep their parents. -/
lemma parent_moveTo_of_ne (he : e ≠ c) : (d.moveTo p c ref h).parent e = d.parent e := by
  simp [moveTo, he]

/-- Moving a node leaves other nodes alone. -/
lemma within_moveTo_insert_of_ne (hc : c ∉ s) (hq : q ≠ p) :
    (d.moveTo p c ref h).within (insert c s) q = d.within s q := by
  rw [within_insert_of_ne, within_moveTo_of_notMem hc]
  rw [parent_moveTo_self]
  exact fun heq => hq (Option.some.inj heq).symm

/-- An element that is moved joins the children within a set. -/
theorem within_moveTo_insert_self (hc : c ∉ s) (href : ∀ r, ref = some r → r ∈ s) :
    (d.moveTo p c ref h).within (insert c s) p = place c ref (d.within s p) := by
  rw [within, moveTo]
  dsimp only
  rw [if_pos rfl,
    restrict_place (Set.mem_insert c s) fun r hr => Set.mem_insert_of_mem c (href r hr),
    restrict_insert (d.nodup p).not_mem_erase, restrict_erase (d.nodup p) hc, within]

/-- A node that is removed has no parent. -/
lemma parent_remove_self : (d.remove c).parent c = none := by simp [remove]

/-- The others keep their parents. -/
lemma parent_remove_of_ne (he : e ≠ c) : (d.remove c).parent e = d.parent e := by simp [remove, he]

/-- Removing a node that is not looked at. -/
lemma within_remove_of_notMem (hc : c ∉ s) : (d.remove c).within s q = d.within s q :=
  restrict_erase (d.nodup q) hc

/-- An element is put between two parts of a list. -/
theorem place_append {l l' : List ℕ} (c : ℕ) (hnodup : (l ++ l').Nodup) :
    place c l'.head? (l ++ l') = l ++ c :: l' := by
  cases l' with
  | nil => simp [place]
  | cons e l' =>
    have hne : ∀ x ∈ l, decide (x ≠ e) = true := fun x hx =>
      decide_eq_true ((nodup_append.mp hnodup).2.2 x hx e mem_cons_self)
    rw [head?_cons, place, takeWhile_append_of_pos hne, dropWhile_append_of_pos hne,
      takeWhile_cons_of_neg (by simp), dropWhile_cons_of_neg (by simp), List.append_nil]

/-- Nothing outside a set that contains the parents of its members is an ancestor of a member. -/
theorem notMem_inclusiveAncestors {fuel : ℕ} (hclosed : ∀ e ∈ s, ∀ q, d.parent e = some q → q ∈ s)
    (hp : p ∈ s) (hc : c ∉ s) : c ∉ d.inclusiveAncestors fuel p := by
  induction fuel generalizing p with
  | zero => exact not_mem_nil
  | succ fuel ih =>
    rw [inclusiveAncestors, mem_cons]
    rintro (rfl | hmem)
    · exact hc hp
    · cases hparent : d.parent p with
      | none =>
        rw [hparent] at hmem
        exact absurd hmem not_mem_nil
      | some q =>
        rw [hparent] at hmem
        exact ih (hclosed p hp q hparent) hmem

/-- An element goes wherever it does not lie in itself. -/
theorem insertBefore_eq_ok (hp : p < d.size) (hc : c < d.size)
    (href : ∀ r, ref = some r → d.parent r = some p) (hne : ref ≠ some c)
    (hancestor : c ∉ d.inclusiveAncestors d.size p) :
    d.insertBefore p c ref = .ok (d.moveTo p c ref ⟨hp, hc⟩) := by
  have hfound : ¬(ref.any fun r => d.parent r ≠ some p) = true := by
    cases ref with
    | none => simp
    | some r => simp [href r rfl]
  rw [insertBefore, dif_pos ⟨hp, hc⟩, if_neg hancestor, if_neg hfound, if_neg hne]

end Within

end Dom

end Lib
