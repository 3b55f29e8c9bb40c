import FlutterEngine.Lib.Run
import FlutterEngine.WebUi.Semantics

/-!
# The trees that updates describe

An update lists some nodes with their children, and all other nodes keep theirs. What it describes
is the tree that is reached from node 0 in this way. A `Tree` is what the framework has described so
far; it carries that every node has at most one parent and that siblings are different.

* `Describes T updates T'` says that the update makes a tree `T'` of `T`.
* `Ordered` updates list a node before its descendants.
* The owner only looks at the children of nodes that are updated. When a node disappears together
  with its parent, it is not told so: such nodes are `leftBehind`.
-/

namespace WebUi.Semantics

open Lib Relation TransGen

/-- A tree of node ids with root 0, or none at all. -/
structure Tree where
  nodes : Set ℤ
  children : ℤ → List ℤ
  mem_nodes : ∀ {x y}, y ∈ children x → x ∈ nodes ∧ y ∈ nodes
  nodup : ∀ x, (children x).Nodup
  parent_unique : ∀ {x x' y}, y ∈ children x → y ∈ children x' → x = x'
  root_notMem : ∀ {x}, 0 ∉ children x
  reachable : ∀ {x}, x ∈ nodes → ReflTransGen (fun x y => y ∈ children x) 0 x

namespace Tree

variable {T T' : Tree} {x y z : ℤ}

/-- Nothing has been described. -/
def empty : Tree where
  nodes := ∅
  children _ := []
  mem_nodes := by simp
  nodup _ := List.nodup_nil
  parent_unique := by simp
  root_notMem := by simp
  reachable := by simp

/-- A node is the parent of another. -/
def IsParent (T : Tree) (x y : ℤ) : Prop := y ∈ T.children x

/-- A node lies above another. -/
def Above (T : Tree) : ℤ → ℤ → Prop := TransGen T.IsParent

lemma children_eq_nil (hx : x ∉ T.nodes) : T.children x = [] :=
  List.eq_nil_iff_forall_not_mem.mpr fun _ hy => hx (T.mem_nodes hy).1

lemma exists_parent (hx : x ∈ T.nodes) (hroot : x ≠ 0) : ∃ p, x ∈ T.children p := by
  rcases ReflTransGen.cases_tail (T.reachable hx) with rfl | ⟨p, -, hp⟩
  · exact absurd rfl hroot
  · exact ⟨p, hp⟩

/-- Nothing lies above itself. -/
theorem not_above_self (hx : x ∈ T.nodes) : ¬T.Above x x := by
  -- by induction on the way from the root: the parent of a node that lies above itself does, too
  have hreach : ReflTransGen T.IsParent 0 x := T.reachable hx
  induction hreach with
  | refl =>
    intro h
    obtain ⟨y, -, hy⟩ := tail'_iff.mp h
    exact T.root_notMem hy
  | @tail p x _ hp ih =>
    intro h
    obtain ⟨y, habove, hy⟩ := tail'_iff.mp h
    rw [← T.parent_unique hp hy] at habove
    exact ih (T.mem_nodes hp).1 (head' hp habove)

lemma mem_nodes_of_above (h : T.Above x y) : x ∈ T.nodes := by
  obtain ⟨z, hz, -⟩ := head'_iff.mp h
  exact (T.mem_nodes hz).1

lemma not_reflTransGen_parent (hy : y ∈ T.children x) : ¬ReflTransGen T.IsParent y x :=
  fun h => T.not_above_self (T.mem_nodes hy).2 (tail' h hy)

end Tree

/-- The ids that are updated. -/
def ids (updates : List SemanticsNodeUpdate) : List ℤ := updates.map SemanticsNodeUpdate.id

/-- An update describes a tree, given the one of the last update. -/
structure Describes (T : Tree) (updates : List SemanticsNodeUpdate) (T' : Tree) : Prop where
  nodup : (ids updates).Nodup
  root : 0 ∈ T'.nodes
  root_known : 0 ∈ T.nodes ∨ 0 ∈ ids updates
  updated : ∀ update ∈ updates,
    update.id ∈ T'.nodes ∧ T'.children update.id = update.childrenInTraversalOrder.getD []
  kept : ∀ x ∈ T'.nodes, x ∉ ids updates → T'.children x = T.children x

/-- No node is updated after one that lies below it. -/
def Ordered (updates : List SemanticsNodeUpdate) (T' : Tree) : Prop :=
  (ids updates).Pairwise fun x y => ¬T'.Above y x

/-- The nodes that disappear together with their parents. -/
def leftBehind (T T' : Tree) : Set ℤ :=
  {y | ∃ x ∈ T.nodes, x ∉ T'.nodes ∧ y ∈ T.children x ∧ y ∉ T'.nodes}

/-- The tree of the last update, and the nodes that have been left behind so far. -/
structure Described where
  tree : Tree
  left : Set ℤ

namespace Described

def init : Described := ⟨.empty, ∅⟩

/-- The next update with the tree it describes. -/
def next (d : Described) (sent : List SemanticsNodeUpdate × Tree) : Option Described :=
  some ⟨sent.2, d.left ∪ leftBehind d.tree sent.2⟩

/-- The update describes a tree, and lists nodes before their descendants. -/
def Valid (d : Described) (sent : List SemanticsNodeUpdate × Tree) : Prop :=
  Describes d.tree sent.1 sent.2 ∧ Ordered sent.1 sent.2

/-- No node that has been left behind comes back. -/
def NoReturn (d : Described) (sent : List SemanticsNodeUpdate × Tree) : Prop :=
  ∀ x ∈ sent.2.nodes, x ∉ d.left

/-- No node is left behind. -/
def NoneLeft (d : Described) (sent : List SemanticsNodeUpdate × Tree) : Prop :=
  leftBehind d.tree sent.2 = ∅

end Described

end WebUi.Semantics
