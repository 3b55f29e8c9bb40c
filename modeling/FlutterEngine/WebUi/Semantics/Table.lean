import FlutterEngine.WebUi.Semantics.Tree

/-!
# Trees that are written down

A `Table` lists the nodes of a tree with their children, parents first. What makes it a tree can be
decided.
-/

namespace WebUi.Semantics

open Relation List

/-- The nodes of a tree with their children, parents first. -/
structure Table where
  rows : List (ℤ × List ℤ)
  functional : ∀ p ∈ rows, rows.lookup p.1 = some p.2 := by decide
  nodup : ∀ p ∈ rows, p.2.Nodup := by decide
  mem_nodes : ∀ p ∈ rows, ∀ y ∈ p.2, y ≠ 0 ∧ y ∈ rows.map Prod.fst := by decide
  parent_unique : ∀ p ∈ rows, ∀ q ∈ rows, ∀ y ∈ p.2, y ∈ q.2 → p.1 = q.1 := by decide
  has_parent : ∀ p ∈ rows, p.1 ≠ 0 → ∃ q ∈ rows, p.1 ∈ q.2 := by decide
  parents_first : ∀ p ∈ rows, ∀ y ∈ p.2,
    (rows.map Prod.fst).idxOf p.1 < (rows.map Prod.fst).idxOf y := by decide

namespace Table

variable (t : Table) {x y : ℤ}

def nodes : List ℤ := t.rows.map Prod.fst

def children (x : ℤ) : List ℤ := (t.rows.lookup x).getD []

/-- The update that lists all nodes. -/
def updates : List SemanticsNodeUpdate := t.rows.map fun p => ⟨p.1, some p.2⟩

lemma mem_children : y ∈ t.children x ↔ ∃ p ∈ t.rows, p.1 = x ∧ y ∈ p.2 := by
  constructor
  · intro hy
    cases hx : t.rows.lookup x with
    | none => simp [children, hx] at hy
    | some l =>
      obtain ⟨l₁, l₂, hrows, -⟩ := lookup_eq_some_iff.mp hx
      rw [children, hx, Option.getD_some] at hy
      exact ⟨(x, l), hrows ▸ mem_append_right _ mem_cons_self, rfl, hy⟩
  · rintro ⟨p, hp, rfl, hy⟩
    rwa [children, t.functional p hp, Option.getD_some]

lemma idxOf_lt (hy : y ∈ t.children x) : t.nodes.idxOf x < t.nodes.idxOf y := by
  obtain ⟨p, hp, rfl, hmem⟩ := t.mem_children.mp hy
  exact t.parents_first p hp y hmem

/-- Going from parent to parent ends at the root, since the parents come first. -/
theorem reachable {n : ℕ} (hx : x ∈ t.nodes) (hn : t.nodes.idxOf x = n) :
    ReflTransGen (fun x y => y ∈ t.children x) 0 x := by
  -- on the position of the node in the table
  induction n using Nat.strong_induction_on generalizing x with
  | _ n ih =>
    obtain ⟨p, hp, rfl⟩ := mem_map.mp hx
    by_cases hzero : p.1 = 0
    · rw [hzero]
    · obtain ⟨q, hq, hy⟩ := t.has_parent p hp hzero
      have hchild : p.1 ∈ t.children q.1 := t.mem_children.mpr ⟨q, hq, rfl, hy⟩
      have hlt : t.nodes.idxOf q.1 < n := hn ▸ t.idxOf_lt hchild
      exact (ih _ hlt (mem_map_of_mem hq) rfl).tail hchild

def tree : Tree where
  nodes := {x | x ∈ t.nodes}
  children := t.children
  mem_nodes := by
    intro x y hy
    obtain ⟨p, hp, rfl, hmem⟩ := t.mem_children.mp hy
    exact ⟨mem_map_of_mem hp, (t.mem_nodes p hp y hmem).2⟩
  nodup := by
    intro x
    cases hx : t.rows.lookup x with
    | none => simp [children, hx]
    | some l =>
      obtain ⟨l₁, l₂, hrows, -⟩ := lookup_eq_some_iff.mp hx
      rw [children, hx, Option.getD_some]
      exact t.nodup (x, l) (hrows ▸ mem_append_right _ mem_cons_self)
  parent_unique := by
    intro x x' y hy hy'
    obtain ⟨p, hp, rfl, hmem⟩ := t.mem_children.mp hy
    obtain ⟨q, hq, rfl, hmem'⟩ := t.mem_children.mp hy'
    exact t.parent_unique p hp q hq y hmem hmem'
  root_notMem := by
    intro x hx
    obtain ⟨p, hp, -, hy⟩ := t.mem_children.mp hx
    exact (t.mem_nodes p hp 0 hy).1 rfl
  reachable hx := t.reachable hx rfl

lemma idxOf_lt_of_above (h : t.tree.Above x y) : t.nodes.idxOf x < t.nodes.idxOf y := by
  induction h with
  | single hy => exact t.idxOf_lt hy
  | tail _ hy ih => exact ih.trans (t.idxOf_lt hy)

variable {updates : List SemanticsNodeUpdate}

/-- The update makes the tree of the table, as far as it can be decided. -/
def Fits (T : Tree) (updates : List SemanticsNodeUpdate) : Prop :=
  (ids updates).Nodup ∧ 0 ∈ t.nodes ∧
    (∀ update ∈ updates, update.id ∈ t.nodes ∧
      t.children update.id = update.childrenInTraversalOrder.getD []) ∧
    ∀ x ∈ t.nodes, x ∉ ids updates → t.children x = T.children x

instance (T : Tree) (updates : List SemanticsNodeUpdate) : Decidable (t.Fits T updates) :=
  inferInstanceAs (Decidable (_ ∧ _ ∧ _ ∧ _))

lemma describes {T : Tree} (hroot : 0 ∈ T.nodes ∨ 0 ∈ ids updates) (h : t.Fits T updates) :
    Describes T updates t.tree :=
  ⟨h.1, h.2.1, hroot, h.2.2.1, h.2.2.2⟩

/-- Updates in the order of the table are valid. -/
theorem valid {d : Described} (hroot : 0 ∈ d.tree.nodes ∨ 0 ∈ ids updates)
    (h : t.Fits d.tree updates)
    (horder : (ids updates).Pairwise fun x y => t.nodes.idxOf x ≤ t.nodes.idxOf y) :
    d.Valid (updates, t.tree) :=
  ⟨t.describes hroot h,
    horder.imp fun hle habove => not_lt.mpr hle (t.idxOf_lt_of_above habove)⟩

end Table

end WebUi.Semantics
