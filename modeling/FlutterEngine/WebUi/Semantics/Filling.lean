import FlutterEngine.WebUi.Semantics.Reordering
import FlutterEngine.WebUi.Semantics.Shown

/-!
# Filling a container

The children of a node are put into its container one after another. While a node has its `Turn`,
all nodes above it are settled, so that the browser never refuses to put a child there. `Filling`
says which children are `done`, and what the container holds among the nodes in `present`: those
that are done, and those that will stay where they are.
-/

namespace WebUi.Semantics

open Lib List Dom EngineSemanticsOwner.Midway

namespace EngineSemanticsOwner

/-- The turn of a node in an update. -/
structure Turn where
  old : Tree
  new : Tree
  start : EngineSemanticsOwner
  left : Set ℤ
  settled : Set ℤ
  waiting : Set ℤ
  node : ℤ
  shows_start : start.Shows old left
  mem_nodes : node ∈ new.nodes
  notMem_settled : node ∉ settled
  notMem_waiting : node ∉ waiting
  above_settled : ∀ x, new.Above x node → x ∈ settled

namespace Turn

variable (t : Turn) {s : EngineSemanticsOwner} {x y id : ℤ} {e c z : ℕ} {done present : Set ℤ}
  {l : List ℤ} {lists : Option (List ℤ) × Option (List ℤ)}

/-- How far an update has come when some children of the node are done. -/
def Midway (done : Set ℤ) (s : EngineSemanticsOwner) : Prop :=
  EngineSemanticsOwner.Midway t.old t.new t.start (t.new.childrenOf t.settled ∪ done) t.settled
    t.waiting s

variable {t}

/-- No child of the node has been placed by another one. -/
theorem notMem_childrenOf (hy : y ∈ t.new.children t.node) : y ∉ t.new.childrenOf t.settled :=
  fun hmem => t.notMem_settled (Tree.mem_of_mem_childrenOf hmem hy)

/-- The element of a node that had children before. -/
theorem at_start (h : t.Midway done s) (he : s.At t.node e) (hy : y ∈ t.old.children t.node) :
    t.start.At t.node e := by
  obtain ⟨e', he'⟩ := t.shows_start.known (t.old.mem_nodes hy).1
  rwa [he.unique (h.grown.at_of_start he')]

/-- The root has not been moved. -/
theorem root_parent (h : t.Midway done s) (hdone : ∀ y ∈ done, y ∈ t.new.children t.node) {r q : ℕ}
    (hr : s.At 0 r) (hq : s.dom.parent r = some q) : q = glassPaneElement := by
  -- the root is a child of no node
  have hzero : (0 : ℤ) ∉ t.new.childrenOf t.settled ∪ done := by
    rintro (⟨x, -, hx⟩ | hmem)
    · exact t.new.root_notMem hx
    · exact t.new.root_notMem (hdone 0 hmem)
  obtain ⟨hstart, hqStart⟩ := h.parent_start hzero hr hq
  exact t.shows_start.root_parent hstart hqStart

/-- A child of a settled node does not lie in the container of this node. -/
theorem parent_ne (h : t.Midway done s) (he : s.At t.node e)
    (hc : (s.objects e).childContainerElement = some c) (hy : y ∈ t.new.childrenOf t.settled)
    (hz : s.At y z) : s.dom.parent z ≠ some c := by
  obtain ⟨x, hx, hyx⟩ := hy
  obtain ⟨e', c', he', hc', hparent⟩ := h.parent_of_settled hx hyx hz
  intro hparent'
  obtain rfl := Option.some.inj (hparent.symm.trans hparent')
  have heq : e' = e := h.wellFormed.container_inj he' he hc' hc
  exact t.notMem_settled (h.wellFormed.at_inj he' (heq ▸ he) ▸ hx)

/-- How far the container of the node has been filled. -/
structure Filling (t : Turn) (e c : ℕ) (lists : Option (List ℤ) × Option (List ℤ))
    (done present : Set ℤ) (l : List ℤ) (s : EngineSemanticsOwner) : Prop where
  midway : t.Midway done s
  at_node : s.At t.node e
  container_eq : (s.objects e).childContainerElement = some c
  lists_eq : ((s.objects e).childrenInTraversalOrder,
    (s.objects e).previousChildrenInTraversalOrder) = lists
  done_subset : ∀ y ∈ done, y ∈ t.new.children t.node
  detached : ∀ {y z}, y ∈ t.old.children t.node → y ∉ t.new.children t.node → s.At y z →
    z ∈ s.detachments
  known : ∀ y ∈ l, ∃ z, s.At y z
  within_eq : s.dom.within (s.elements present) c = l.map s.element

namespace Filling

variable (h : t.Filling e c lists done present l s)

include h

lemma createObject (hid : s.semanticsTree.get id = none) (hnode : id ∈ t.new.nodes) :
    t.Filling e c lists done present l (s.createObject id) := by
  have hobject : (s.createObject id).objects e = s.objects e :=
    createObject_objects_of_lt (h.midway.wellFormed.lt_size h.at_node)
  constructor
  · exact h.midway.createObject hid hnode
  · exact at_createObject_of_at hid h.at_node
  · rw [hobject, h.container_eq]
  · rw [hobject, h.lists_eq]
  · exact h.done_subset
  · intro y z hy hnot hz
    obtain ⟨z', hz'⟩ := h.midway.arranged.known (t.old.mem_nodes hy).2
    rw [hz.unique (at_createObject_of_at hid hz')]
    exact h.detached hy hnot hz'
  · exact fun y hy => (h.known y hy).imp fun z hz => at_createObject_of_at hid hz
  · refine ((within_createObject le_rfl hid present c).trans h.within_eq).trans ?_
    refine map_congr_left fun y hy => ?_
    obtain ⟨z, hz⟩ := h.known y hy
    rw [hz.element_eq, (at_createObject_of_at hid hz).element_eq]

/-- The object of a child, which may be new. -/
theorem getOrCreateObject (hnode : id ∈ t.new.nodes) : ∃ z s', s.getOrCreateObject id = (z, s') ∧
    s'.At id z ∧ t.Filling e c lists done present l s' ∧
      ∀ y, y ∈ l → s'.element y = s.element y := by
  cases hid : s.semanticsTree.get id with
  | some z =>
    rw [EngineSemanticsOwner.getOrCreateObject, hid]
    exact ⟨z, s, rfl, hid, h, fun _ _ => rfl⟩
  | none =>
    rw [EngineSemanticsOwner.getOrCreateObject, hid]
    refine ⟨s.dom.size, s.createObject id, rfl, at_createObject.mpr (by rw [if_pos rfl]),
      h.createObject hid hnode, fun y hy => ?_⟩
    obtain ⟨z, hz⟩ := h.known y hy
    rw [hz.element_eq, (at_createObject_of_at hid hz).element_eq]

lemma lt_size : c < s.dom.size :=
  (s.dom.lt_size (h.midway.wellFormed.parent_container h.at_node h.container_eq)).1

section Put

variable (l₁ l₂ : List ℤ) (hl : l = l₁ ++ l₂) (hy : y ∈ t.new.children t.node)
  (hpresent : y ∉ present) (hz : s.At y z)
include hl hy hpresent hz

/-- The browser agrees to put a child into the container. -/
theorem insertBefore_eq :
    s.dom.insertBefore c z (l₂.map s.element).head? = .ok (s.dom.moveTo c z (l₂.map s.element).head?
      ⟨h.lt_size, h.midway.wellFormed.lt_size hz⟩) := by
  have hwithin : ∀ r, (l₂.map s.element).head? = some r →
      r ∈ s.dom.within (s.elements present) c := by
    intro r hr
    rw [h.within_eq, hl, map_append]
    exact mem_append_right _ (mem_of_mem_head? hr)
  refine insertBefore_eq_ok h.lt_size (h.midway.wellFormed.lt_size hz) 
    (fun r hr => (mem_within.mp (hwithin r hr)).1) ?_ ?_
  -- the child is not the one it is put before
  · intro hr
    obtain ⟨-, y', hy', hz'⟩ := mem_within.mp (hwithin z hr)
    exact hpresent (h.midway.wellFormed.at_inj hz' hz ▸ hy')
  · exact h.midway.notMem_inclusiveAncestors t.above_settled
      (fun _ _ => root_parent h.midway h.done_subset) hy hz h.at_node h.container_eq t.mem_nodes

/-- A child is moved into the container. -/
theorem place (hlt : c < s.dom.size ∧ z < s.dom.size) (hdone : y ∉ done) :
    t.Filling e c lists (insert y done) (insert y present) (l₁ ++ y :: l₂)
      (s.place e c z (l₂.map s.element).head? hlt) := by
  have hplaced : y ∉ t.new.childrenOf t.settled ∪ done :=
    fun hmem => hmem.elim (notMem_childrenOf hy) hdone
  have hmidway : t.Midway (insert y done) (s.place e c z (l₂.map s.element).head? hlt) := by
    rw [Turn.Midway, Set.union_insert]
    exact h.midway.place hy hplaced h.at_node hz h.container_eq
  have hznot : z ∉ s.elements present :=
    fun hmem => hpresent ((h.midway.wellFormed.mem_elements hz).mp hmem)
  have hwithin := h.within_eq
  rw [hl, map_append] at hwithin
  refine ⟨hmidway, h.at_node, ?_, ?_, ?_, h.detached, ?_, ?_⟩
  · rw [place_objects]
    exact h.container_eq
  · rw [place_objects]
    exact h.lists_eq
  · exact Set.forall_insert_of_forall h.done_subset hy
  · intro y' hy'
    rcases mem_append.mp hy' with hmem | hmem
    · exact h.known y' (hl ▸ mem_append_left _ hmem)
    · rcases mem_cons.mp hmem with rfl | hmem
      · exact ⟨z, hz⟩
      · exact h.known y' (hl ▸ mem_append_right _ hmem)
  · -- the element is put in front of the last part
    have hnodup : (l₁.map s.element ++ l₂.map s.element).Nodup := hwithin ▸ (s.dom.nodup c).filter _
    have hmoved : (s.dom.moveTo c z (l₂.map s.element).head? hlt).within
        (insert z (s.elements present)) c =
        Dom.place z (l₂.map s.element).head? (s.dom.within (s.elements present) c) := by
      refine within_moveTo_insert_self hznot fun r hr => ?_
      have hmem : r ∈ s.dom.within (s.elements present) c := by
        rw [hwithin]
        exact mem_append_right _ (mem_of_mem_head? hr)
      exact (mem_within.mp hmem).2
    rw [hwithin, place_append z hnodup, ← elements_insert hz] at hmoved
    have hself : (s.place e c z (l₂.map s.element).head? hlt).element y = z := hz.element_eq
    rw [map_append, map_cons, hself]
    exact hmoved

/-- A child is put in front of the last part, or at the end. -/
theorem put (hdone : y ∉ done) :
    Returns (fun s' => t.Filling e c lists (insert y done) (insert y present) (l₁ ++ y :: l₂) s' ∧
        s'.At y z)
      (do
        let s ← s.onDom (s.dom.insertBefore c z (l₂.map s.element).head?)
        return s.attachObject e z) := by
  rw [h.insertBefore_eq l₁ l₂ hl hy hpresent hz]
  exact ⟨h.place l₁ l₂ hl hy hpresent hz _ hdone, hz⟩

end Put

/-- A child that is in the container already stays there. -/
theorem stay (hy : y ∈ t.new.children t.node) (hold : y ∈ t.old.children t.node) (hdone : y ∉ done)
    (hl : y ∈ l) (hz : s.At y z) :
    (s.objects z).parent = some e ∧ t.Filling e c lists (insert y done) present l s := by
  have hplaced : y ∉ t.new.childrenOf t.settled ∪ done :=
    fun hmem => hmem.elim (notMem_childrenOf hy) hdone
  -- it has not been placed, so that its parent is the one from before
  have hparent : (s.objects z).parent = some e := by
    obtain ⟨z', hz'⟩ := t.shows_start.known (t.old.mem_nodes hold).2
    rw [hz.unique (h.midway.grown.at_of_start hz'), h.midway.grown.parent_eq hplaced hz']
    exact t.shows_start.parent_eq hold (at_start h.midway h.at_node hold) hz'
  have hdom : s.dom.parent z = some c := by
    have hmem : z ∈ s.dom.within (s.elements present) c := by
      rw [h.within_eq, ← hz.element_eq]
      exact mem_map_of_mem hl
    exact (mem_within.mp hmem).1
  refine ⟨hparent, ?_, h.at_node, h.container_eq, h.lists_eq, ?_, h.detached, h.known, h.within_eq⟩
  · rw [Turn.Midway, Set.union_insert]
    exact h.midway.stay hy hold hplaced h.at_node hz h.container_eq hparent hdom
  · exact Set.forall_insert_of_forall h.done_subset hy

end Filling

/-! ## The loops -/

/-- All children but the `rest` have been appended. -/
def Appended (t : Turn) (e c : ℕ) (lists : Option (List ℤ) × Option (List ℤ)) (rest : List ℤ)
    (s : EngineSemanticsOwner) : Prop :=
  ∃ front, front ++ rest = t.new.children t.node ∧
    t.Filling e c lists {y | y ∈ front} {y | y ∈ front} front s

/-- The children of a node that had none are appended in their order. -/
theorem Filling.appendChildren (h : t.Filling e c lists ∅ ∅ [] s) :
    Returns (t.Filling e c lists {y | y ∈ t.new.children t.node} {y | y ∈ t.new.children t.node}
        (t.new.children t.node))
      (appendChildren e c s (t.new.children t.node)) := by
  have hinit : t.Appended e c lists (t.new.children t.node) s := by
    refine ⟨[], rfl, ?_⟩
    simpa using h
  -- the children in front are done, and are all that is in the container
  refine (ensures_foldlM hinit fun id rest s ⟨front, hall, h⟩ => ?_).mono ?_
  · have hy : id ∈ t.new.children t.node := hall ▸ mem_append_right _ mem_cons_self
    have hnot : id ∉ front := by
      have hnodup := hall ▸ t.new.nodup t.node
      exact fun hmem => (nodup_append.mp hnodup).2.2 id hmem id mem_cons_self rfl
    have hset : (insert id {y | y ∈ front} : Set ℤ) = {y | y ∈ front ++ [id]} := by
      ext y
      simp [or_comm]
    obtain ⟨z, s₁, hget, hz, hfilling, -⟩ := h.getOrCreateObject (t.new.mem_nodes hy).2
    rw [hget]
    have hput := hfilling.put front [] (List.append_nil _).symm hy hnot hz hnot
    rw [hset] at hput
    refine hput.mono fun s' hs' => ⟨front ++ [id], ?_, hs'.1⟩
    rw [← hall, append_assoc, singleton_append]
  · rintro s' ⟨front, hall, h⟩
    rw [List.append_nil] at hall
    rwa [hall] at h

/-- The children of a node that had others are inserted from the last to the first, except those
that stay. -/
theorem Filling.insertChildren {stationary ids back : List ℤ}
    (hstationary : ∀ y ∈ stationary, y ∈ t.old.children t.node)
    (h : t.Filling e c lists {y | y ∈ back} {y | y ∈ back ∨ y ∈ stationary}
      (ids.reverse.filter (· ∈ stationary) ++ back) s)
    (hall : ids.reverse ++ back = t.new.children t.node) :
    Returns (t.Filling e c lists {y | y ∈ t.new.children t.node}
        {y | y ∈ t.new.children t.node ∨ y ∈ stationary} (t.new.children t.node))
      (insertChildren e c stationary ids (back.map s.element).head? s) := by
  -- the children at the back are done; before them there are those that stay
  induction ids generalizing back s with
  | nil =>
    rw [reverse_nil, List.nil_append] at hall
    subst hall
    exact h
  | cons id ids ih =>
    rw [reverse_cons, append_assoc, singleton_append] at hall
    have hy : id ∈ t.new.children t.node := hall ▸ mem_append_right _ mem_cons_self
    have hnot : id ∉ back := by
      have hnodup := hall ▸ t.new.nodup t.node
      exact (nodup_cons.mp (nodup_append.mp hnodup).2.1).1
    have hdone : (insert id {y | y ∈ back} : Set ℤ) = {y | y ∈ id :: back} := by
      ext y
      simp
    rw [reverse_cons, filter_append] at h
    obtain ⟨z, s₁, hget, hz, hfilling, helement⟩ := h.getOrCreateObject (t.new.mem_nodes hy).2
    rw [insertChildren, hget]
    dsimp only
    by_cases hmem : id ∈ stationary
    · have hkept : [id].filter (· ∈ stationary) = [id] := by simp [hmem]
      rw [hkept, append_assoc, singleton_append] at hfilling
      obtain ⟨hparent, hfilling₂⟩ := hfilling.stay hy (hstationary id hmem) hnot
        (mem_append_right _ mem_cons_self) hz
      have hpresent : {y | y ∈ back ∨ y ∈ stationary} = {y | y ∈ id :: back ∨ y ∈ stationary} := by
        ext y
        simp only [Set.mem_ofPred_eq, mem_cons]
        constructor
        · exact fun hy => hy.imp_left .inr
        · rintro ((rfl | hy) | hy)
          · exact .inr hmem
          · exact .inl hy
          · exact .inr hy
      rw [hdone, hpresent] at hfilling₂
      have hrest := ih hfilling₂ hall
      rw [map_cons, head?_cons, hz.element_eq] at hrest
      rw [if_pos (contains_iff_mem.mpr hmem), assertThat_of hparent]
      exact hrest
    -- the reference node is the first one of those that are done
    · have hmoved : [id].filter (· ∈ stationary) = [] := by simp [hmem]
      rw [hmoved, List.append_nil] at hfilling
      have hback : back.map s₁.element = back.map s.element :=
        map_congr_left fun y hy => helement y (mem_append_right _ hy)
      have hpresent : (insert id {y | y ∈ back ∨ y ∈ stationary} : Set ℤ) =
          {y | y ∈ id :: back ∨ y ∈ stationary} := by
        ext y
        simp [or_assoc]
      have hput := hfilling.put (ids.reverse.filter (· ∈ stationary)) back rfl hy
        (fun hpresent => hpresent.elim hnot hmem) hz hnot
      rw [hdone, hpresent, hback] at hput
      rw [if_neg fun hcontains => hmem (contains_iff_mem.mp hcontains)]
      rw [← bind_assoc]
      refine hput.bind fun s₂ hs₂ => ?_
      obtain ⟨hfilling₂, hz₂⟩ := hs₂
      have hrest := ih hfilling₂ hall
      rwa [map_cons, head?_cons, hz₂.element_eq] at hrest

/-- Children that stay may all be done at once. -/
theorem Filling.stayAll {ids : List ℤ} (h : t.Filling e c lists ∅ present l s)
    (hids : ∀ y ∈ ids, y ∈ t.new.children t.node ∧ y ∈ t.old.children t.node ∧ y ∈ l) :
    t.Filling e c lists {y | y ∈ ids} present l s := by
  induction ids with
  | nil => simpa using h
  | cons id ids ih =>
    obtain ⟨⟨hnew, hold, hl⟩, hrest⟩ := forall_mem_cons.mp hids
    have hdone : (insert id {y | y ∈ ids} : Set ℤ) = {y | y ∈ id :: ids} := by
      ext y
      simp
    have hfilling := ih hrest
    rw [← hdone]
    by_cases hmem : id ∈ ids
    · rwa [Set.insert_eq_of_mem (show id ∈ {y | y ∈ ids} from hmem)]
    · obtain ⟨z, hz⟩ := h.known id hl
      exact (hfilling.stay hnew hold hmem hl hz).2

/-! ## The container is full -/

lemma childrenOf_insert (T : Tree) (A : Set ℤ) (x : ℤ) :
    T.childrenOf (insert x A) = T.childrenOf A ∪ {y | y ∈ T.children x} := by
  ext y
  constructor
  · rintro ⟨x', rfl | hx', hy⟩
    · exact .inr hy
    · exact .inl ⟨x', hx', hy⟩
  · rintro (⟨x', hx', hy⟩ | hy)
    · exact ⟨x', .inr hx', hy⟩
    · exact ⟨x, .inl rfl, hy⟩

/-- The node has had its turn. -/
structure Over (t : Turn) (e : ℕ) (s : EngineSemanticsOwner) : Prop where
  midway : EngineSemanticsOwner.Midway t.old t.new t.start
    (t.new.childrenOf (insert t.node t.settled)) (insert t.node t.settled) t.waiting s
  at_node : s.At t.node e

/-- A node without children has no container. -/
theorem Midway.over_of_nil (h : t.Midway ∅ s) (he : s.At t.node e)
    (hnil : t.new.children t.node = [])
    (hchildren : (s.objects e).children = []) (hprevious : (s.objects e).previousChildren = [])
    (hcontainer : (s.objects e).childContainerElement = none)
    (hdetached : ∀ y ∈ t.old.children t.node, ∀ z, s.At y z → z ∈ s.detachments) :
    t.Over e s := by
  have hplaced : t.new.childrenOf (insert t.node t.settled) = t.new.childrenOf t.settled ∪ ∅ := by
    rw [childrenOf_insert, hnil]
    simp
  refine ⟨?_, he⟩
  rw [hplaced]
  refine settle h he ?_ ?_ fun y hy _ z hz => hdetached y hy z hz
  · rw [hnil]
    refine ⟨⟨hchildren, hprevious, by simp [hcontainer]⟩, fun hc => ?_⟩
    rw [hcontainer] at hc
    cases hc
  · rw [hnil]
    exact fun _ hy => absurd hy not_mem_nil

/-- All children are in the container. -/
theorem Filling.over
    (h : t.Filling e c lists {y | y ∈ t.new.children t.node} present (t.new.children t.node) s)
    (hpresent : ∀ y, y ∈ present ↔ y ∈ t.new.children t.node) (hne : t.new.children t.node ≠ [])
    (hchildren : lists.1.getD [] = t.new.children t.node)
    (hprevious : lists.2.getD [] = t.new.children t.node) : t.Over e s := by
  refine ⟨?_, h.at_node⟩
  rw [childrenOf_insert]
  refine settle h.midway h.at_node ?_ (fun _ => .inr)
    fun _ hy hnot _ hz => h.detached hy hnot hz
  have hlists := h.lists_eq
  refine ⟨⟨?_, ?_, ?_⟩, fun {c'} hc' => ?_⟩
  · rw [SemanticsObject.children, ← hchildren, ← hlists]
  · rw [SemanticsObject.previousChildren, ← hprevious, ← hlists]
  · simp [h.container_eq, hne]
  · obtain rfl := Option.some.inj (h.container_eq.symm.trans hc')
    rw [← h.within_eq]
    -- children of other nodes that have been placed lie in other containers
    refine within_congr_set fun z hz => ⟨?_, ?_⟩
    · rintro ⟨y, hy | hy, hat⟩
      · exact absurd hz (parent_ne h.midway h.at_node h.container_eq hy hat)
      · exact ⟨y, (hpresent y).mpr hy, hat⟩
    · rintro ⟨y, hy, hat⟩
      exact ⟨y, .inr ((hpresent y).mp hy), hat⟩

end Turn

end EngineSemanticsOwner

end WebUi.Semantics
