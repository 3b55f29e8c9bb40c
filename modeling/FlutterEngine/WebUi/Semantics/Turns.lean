import FlutterEngine.WebUi.Semantics.Filling

/-!
# The turn of a node

`updateNode` gives a node its new children. `Opened` is the state in which the node has its new list
of children but nothing else has happened; from there the source distinguishes whether there are
children now, and whether there were any before. In each case the node is settled in the end
(`Opened.updateChildrenInTraversalOrder`).
-/

namespace WebUi.Semantics

open Lib List Nat Dom EngineSemanticsOwner.Midway

namespace EngineSemanticsOwner

namespace Turn

variable {t : Turn} {s : EngineSemanticsOwner} {x y id : ℤ} {e c z : ℕ} {done present : Set ℤ}
  {given : Option (List ℤ)}

/-- The node has received its new list of children. -/
structure Opened (t : Turn) (e : ℕ) (given : Option (List ℤ)) (s : EngineSemanticsOwner) :
    Prop where
  midway : t.Midway ∅ s
  at_node : s.At t.node e
  given_eq : given.getD [] = t.new.children t.node
  children_eq : (s.objects e).childrenInTraversalOrder = given
  previous_eq : (s.objects e).previousChildren = t.old.children t.node
  container_eq_none : (s.objects e).childContainerElement = none ↔ t.old.children t.node = []
  container_start : ∀ {c}, (s.objects e).childContainerElement = some c →
    (t.start.objects e).childContainerElement = some c

/-- The lists of the node may change at any time. -/
theorem Midway.modify (h : t.Midway done s) (he : s.At t.node e)
    {f : SemanticsObject → SemanticsObject} (hid : ∀ o, (f o).id = o.id)
    (hcontainer : ∀ o, (f o).childContainerElement = o.childContainerElement)
    (hparent : ∀ o, (f o).parent = o.parent) : t.Midway done (s.modify e f) := by
  refine of_current h he t.notMem_settled t.notMem_waiting
    (h.wellFormed.modify hid hcontainer) rfl rfl rfl rfl le_rfl (fun _ _ => rfl) ?_ ?_ ?_
  · intro e' he'
    rw [modify_objects, if_neg he']
  · rw [modify_objects, if_pos rfl, hparent]
  · intro c hc
    rw [modify_objects, if_pos rfl, hcontainer] at hc
    exact .inr hc

/-! ## Detaching -/

variable {ids : List ℤ}

/-- The children that are left are detached. -/
lemma foldlM_detachObject (hknown : ∀ y ∈ ids, ∃ z, s.At y z) : ids.foldlM detachObject s =
      .ok { s with detachments := s.detachments ++ ids.map s.element } := by
  induction ids generalizing s with
  | nil =>
    rw [map_nil, append_nil]
    rfl
  | cons id ids ih =>
    obtain ⟨⟨z, hz⟩, hrest⟩ := forall_mem_cons.mp hknown
    rw [foldlM_cons, detachObject, hz]
    refine (ih (s := { s with detachments := s.detachments ++ [z] }) hrest).trans ?_
    rw [map_cons, hz.element_eq, append_assoc, singleton_append]
    rfl

/-- Detaching what is left keeps the others. -/
lemma Midway.detachAll (h : t.Midway done s)
    (hids : ∀ y ∈ ids, y ∈ t.old.children t.node ∧ y ∉ t.new.children t.node) :
    t.Midway done { s with detachments := s.detachments ++ ids.map s.element } := by
  induction ids generalizing s with
  | nil =>
    rw [map_nil, append_nil]
    exact h
  | cons id ids ih =>
    obtain ⟨⟨hold, hnot⟩, hrest⟩ := forall_mem_cons.mp hids
    obtain ⟨z, hz⟩ := h.arranged.known (t.old.mem_nodes hold).2
    have hdetached : t.Midway done { s with detachments := s.detachments ++ [z] } :=
      detach h t.mem_nodes hold hnot hz
    have hall := ih hdetached hrest
    rw [map_cons, hz.element_eq, ← singleton_append, ← append_assoc]
    exact hall

/-! ## The container of the node -/

/-- Removing a container keeps the others. -/
lemma Midway.removeContainer (h : t.Midway done s) (he : s.At t.node e)
    (hc : (s.objects e).childContainerElement = some c) :
    t.Midway done (s.removeContainer e c) := by
  refine of_current h he t.notMem_settled t.notMem_waiting
    (h.wellFormed.removeContainer he hc) rfl rfl rfl rfl le_rfl ?_ ?_ ?_ ?_
  -- a container is not the element of an object
  · intro A q
    refine within_remove_of_notMem ?_
    rintro ⟨id, -, hid⟩
    exact h.wellFormed.ne_container hid he hc rfl
  · intro e' he'
    rw [EngineSemanticsOwner.removeContainer, modify_objects, if_neg he']
  · rw [EngineSemanticsOwner.removeContainer, modify_objects, if_pos rfl]
  · intro c' hc'
    rw [EngineSemanticsOwner.removeContainer, modify_objects, if_pos rfl] at hc'
    cases hc'

/-- A new container keeps the others. -/
lemma Midway.addContainer (h : t.Midway done s) (he : s.At t.node e) :
    t.Midway done (s.addContainer e (h.wellFormed.lt_size he)) := by
  refine of_current h he t.notMem_settled t.notMem_waiting
    (h.wellFormed.addContainer he) rfl rfl rfl rfl (le_succ _) ?_ ?_ ?_ ?_
  · intro A q
    -- the new container is not an element of an object either
    have hnot : s.dom.size ∉ s.elements A :=
      fun ⟨id, _, hid⟩ => lt_irrefl _ (h.wellFormed.lt_size hid)
    exact within_moveTo_of_notMem (d := s.dom.createElement)
      (h := ⟨lt_succ_of_lt (h.wellFormed.lt_size he), lt_succ_self _⟩) hnot
  · intro e' he'
    rw [EngineSemanticsOwner.addContainer, modify_objects, if_neg he']
  · rw [EngineSemanticsOwner.addContainer, modify_objects, if_pos rfl]
  · intro c hc
    rw [EngineSemanticsOwner.addContainer, modify_objects, if_pos rfl] at hc
    cases hc
    exact .inl h.grown.size_le

/-- A new container is put into the element. -/
theorem getOrCreateChildContainer_of_none (he : e < s.dom.size)
    (hnone : (s.objects e).childContainerElement = none) :
    s.getOrCreateChildContainer e = .ok (s.dom.size, s.addContainer e he) := by
  have hinsert : s.dom.createElement.append e s.dom.size = .ok (s.dom.createElement.moveTo e
      s.dom.size none ⟨Nat.lt_succ_of_lt he, Nat.lt_succ_self _⟩) := by
    refine insertBefore_eq_ok (Nat.lt_succ_of_lt he) (Nat.lt_succ_self _) nofun nofun ?_
    -- nothing above the element is as new as the container
    refine notMem_inclusiveAncestors (s := {q | q < s.dom.size}) ?_ he (Nat.lt_irrefl _)
    exact fun q _ q' hq' => (s.dom.lt_size hq').2
  rw [getOrCreateChildContainer, hnone]
  dsimp only [modify]
  rw [hinsert]
  rfl

/-! ## The four cases -/

/-- `_previousChildrenInTraversalOrder` is assigned. -/
def setPrevious (s : EngineSemanticsOwner) (e : ℕ) (previous : Option (List ℤ)) :
    EngineSemanticsOwner :=
  s.modify e ({ · with previousChildrenInTraversalOrder := previous })

lemma setPrevious_objects (previous : Option (List ℤ)) : (setPrevious s e previous).objects e =
    { s.objects e with previousChildrenInTraversalOrder := previous } := by
  rw [setPrevious, modify_objects, if_pos rfl]

/-- Noting the children keeps the others. -/
lemma Midway.setPrevious (h : t.Midway done s) (he : s.At t.node e)
    (previous : Option (List ℤ)) : t.Midway done (setPrevious s e previous) :=
  Midway.modify h he (fun _ => rfl) (fun _ => rfl) fun _ => rfl

/-- Noting the children while they are placed. -/
lemma Filling.setPrevious {lists : Option (List ℤ) × Option (List ℤ)} {l : List ℤ}
    (h : t.Filling e c lists done present l s) (previous : Option (List ℤ)) :
    t.Filling e c (lists.1, previous) done present l (setPrevious s e previous) where
  __ := h
  midway := Midway.setPrevious h.midway h.at_node previous
  container_eq := by
    rw [setPrevious_objects]
    exact h.container_eq
  lists_eq := by rw [setPrevious_objects, ← h.lists_eq]

namespace Opened

variable (h : t.Opened e given s)

include h

lemma children : (s.objects e).children = t.new.children t.node := by
  rw [SemanticsObject.children, h.children_eq, h.given_eq]

/-- There are no children, and there were none before. -/
theorem over_of_nil (hnew : t.new.children t.node = []) (hold : t.old.children t.node = []) :
    t.Over e (setPrevious s e given) := by
  refine Midway.over_of_nil (Midway.setPrevious h.midway h.at_node given) h.at_node hnew ?_ ?_ ?_ ?_
  · rw [setPrevious_objects]
    exact h.children.trans hnew
  · rw [setPrevious_objects]
    exact h.given_eq.trans hnew
  · rw [setPrevious_objects]
    exact h.container_eq_none.mpr hold
  · rw [hold]
    exact fun _ hy => absurd hy not_mem_nil

/-- Some children are detached. -/
theorem detachAll (hids : ∀ y ∈ ids, y ∈ t.old.children t.node ∧ y ∉ t.new.children t.node) :
    t.Opened e given { s with detachments := s.detachments ++ ids.map s.element } where
  __ := h
  midway := Midway.detachAll h.midway hids

/-- There are no children, but there were some before. -/
theorem over_removeContainer (hnew : t.new.children t.node = [])
    (hc : (s.objects e).childContainerElement = some c)
    (hdetached : ∀ y ∈ t.old.children t.node, ∀ z, s.At y z → z ∈ s.detachments) :
    t.Over e (setPrevious (s.removeContainer e c) e given) := by
  have hobject : (s.removeContainer e c).objects e =
      { s.objects e with childContainerElement := none } := by
    rw [removeContainer, modify_objects, if_pos rfl]
  refine Midway.over_of_nil (Midway.setPrevious (Midway.removeContainer h.midway h.at_node hc)
    h.at_node given) h.at_node hnew ?_ ?_ ?_ hdetached
  · rw [setPrevious_objects, hobject]
    exact h.children.trans hnew
  · rw [setPrevious_objects]
    exact h.given_eq.trans hnew
  · rw [setPrevious_objects, hobject]

/-- There were no children before. -/
theorem filling_addContainer (hold : t.old.children t.node = []) :
    t.Filling e s.dom.size (given, given) ∅ ∅ []
      (setPrevious (s.addContainer e (h.midway.wellFormed.lt_size h.at_node)) e given) := by
  have hobject : (s.addContainer e (h.midway.wellFormed.lt_size h.at_node)).objects e =
      { s.objects e with childContainerElement := some s.dom.size } := by
    rw [addContainer, modify_objects, if_pos rfl]
  refine ⟨Midway.setPrevious (Midway.addContainer h.midway h.at_node) h.at_node given, h.at_node,
    ?_, ?_, by simp, ?_, by simp, ?_⟩
  · rw [setPrevious_objects, hobject]
  · rw [setPrevious_objects, hobject, h.children_eq]
  · rw [hold]
    exact fun hy => absurd hy not_mem_nil
  · refine restrict_eq_nil fun z _ hz => ?_
    obtain ⟨y, hy, -⟩ := hz
    exact hy

section Container

variable (hc : (s.objects e).childContainerElement = some c)

include hc

/-- Children that the node keeps are in its container, in their old order. -/
theorem within_eq {stationary : List ℤ} (hold : stationary.Sublist (t.old.children t.node))
    (hnew : ∀ y ∈ stationary, y ∈ t.new.children t.node) :
    s.dom.within (s.elements {y | y ∈ stationary}) c = stationary.map s.element := by
  have hnode : t.node ∈ t.old.nodes := by
    by_contra hnot
    have hnil : t.old.children t.node = [] := t.old.children_eq_nil hnot
    rw [h.container_eq_none.mpr hnil] at hc
    cases hc
  have hgrown := h.midway.grown
  have hat {y : ℤ} (hy : y ∈ t.old.children t.node) :
      t.start.At y (t.start.element y) ∧ s.At y (t.start.element y) := by
    obtain ⟨z, hz⟩ := t.shows_start.known (t.old.mem_nodes hy).2
    rw [hz.element_eq]
    exact ⟨hz, hgrown.at_of_start hz⟩
  -- they have not moved since the start
  have hsubset : s.elements {y | y ∈ stationary} ⊆
      s.elements (t.new.childrenOf t.settled ∪ ∅)ᶜ := by
    rintro z ⟨y, hy, hz⟩
    exact ⟨y, fun hmem => hmem.elim (notMem_childrenOf (hnew y hy)) id, hz⟩
  have hall : s.elements {y | y ∈ stationary} ⊆ t.start.elements Set.univ := by
    rintro z ⟨y, hy, hz⟩
    obtain ⟨hstart, hnow⟩ := hat (hold.subset hy)
    exact ⟨y, trivial, hz.unique hnow ▸ hstart⟩
  obtain ⟨e', he'⟩ := t.shows_start.known hnode
  obtain rfl := h.at_node.unique (hgrown.at_of_start he')
  have hstart := (t.shows_start.object hnode he').within_eq (h.container_start hc)
  calc s.dom.within (s.elements {y | y ∈ stationary}) c
      = t.start.dom.within (s.elements {y | y ∈ stationary}) c :=
        within_congr hsubset (hgrown.within_eq c)
    _ = restrict (s.elements {y | y ∈ stationary})
          (t.start.dom.within (t.start.elements Set.univ) c) := (restrict_restrict hall).symm
    _ = ((t.old.children t.node).filter (· ∈ stationary)).map t.start.element := by
        rw [hstart, restrict, filter_map]
        congr 1
        refine filter_congr fun y hy => decide_eq_decide.mpr ?_
        exact h.midway.wellFormed.mem_elements (hat hy).2
    _ = stationary.map t.start.element := by rw [filter_mem_of_sublist hold (t.old.nodup t.node)]
    _ = stationary.map s.element :=
        map_congr_left fun y hy => (hat (hold.subset hy)).2.element_eq.symm

/-- There were children before, and some of them stay. -/
theorem filling (stationary : List ℤ) (hold : stationary.Sublist (t.old.children t.node))
    (hnew : ∀ y ∈ stationary, y ∈ t.new.children t.node)
    (hdetached : ∀ {y z}, y ∈ t.old.children t.node → y ∉ t.new.children t.node → s.At y z →
      z ∈ s.detachments) :
    t.Filling e c (given, (s.objects e).previousChildrenInTraversalOrder) ∅ {y | y ∈ stationary}
      stationary s where
  midway := h.midway
  at_node := h.at_node
  container_eq := hc
  lists_eq := by rw [h.children_eq]
  done_subset := nofun
  detached := hdetached
  known y hy := h.midway.arranged.known (t.old.mem_nodes (hold.subset hy)).2
  within_eq := h.within_eq hc hold hnew

/-- The children are the same as before. -/
theorem over_of_eq (heq : t.old.children t.node = t.new.children t.node)
    (hne : t.new.children t.node ≠ []) : t.Over e s := by
  -- all children stay, and no step is needed for that
  have hfilling := h.filling hc (t.new.children t.node)
    (heq ▸ List.Sublist.refl (t.old.children t.node)) (fun _ hy => hy)
    fun hy hnot => absurd (heq ▸ hy) hnot
  refine (hfilling.stayAll fun y hy => ⟨hy, heq ▸ hy, hy⟩).over (fun _ => Iff.rfl) hne h.given_eq ?_
  exact h.previous_eq.trans heq

/-- There are other children than before. -/
theorem insertChildren (hne : t.new.children t.node ≠ [])
    (hdetached : ∀ {y z}, y ∈ t.old.children t.node → y ∉ t.new.children t.node → s.At y z →
      z ∈ s.detachments) :
    Returns (fun s' => t.Over e (setPrevious s' e given))
      (insertChildren e c
        (stationaryIds (t.old.children t.node) (t.new.children t.node))
        (t.new.children t.node).reverse none s) := by
  have hold := stationaryIds_sublist_previous (t.old.children t.node) (t.new.children t.node)
  have hnew := stationaryIds_sublist_children (t.old.children t.node) (t.new.children t.node)
  have hfilling := h.filling hc _ hold (fun _ hy => hnew.subset hy) hdetached
  -- at the beginning no child is done, and the container is known for those that stay
  have hinit : t.Filling e c (given, (s.objects e).previousChildrenInTraversalOrder)
      {y | y ∈ ([] : List ℤ)}
      {y | y ∈ ([] : List ℤ) ∨ y ∈ stationaryIds (t.old.children t.node) (t.new.children t.node)}
      ((t.new.children t.node).reverse.reverse.filter
        (· ∈ stationaryIds (t.old.children t.node) (t.new.children t.node)) ++ []) s := by
    rw [reverse_reverse, filter_mem_of_sublist hnew (t.new.nodup t.node), append_nil]
    simpa using hfilling
  refine (hinit.insertChildren (fun _ hy => hold.subset hy) (by simp)).mono fun s' hs' => ?_
  refine (hs'.setPrevious given).over (fun y => ?_) hne h.given_eq h.given_eq
  exact ⟨fun hy => hy.elim id fun hy => hnew.subset hy, .inl⟩

end Container

/-- Whatever children there are now and before, the node is settled. -/
theorem updateChildrenInTraversalOrder :
    Returns (t.Over e) (s.updateChildrenInTraversalOrder e) := by
  rw [EngineSemanticsOwner.updateChildrenInTraversalOrder, h.children, h.previous_eq, h.children_eq]
  -- the branches of the source: are there children now, were there any before, are they the same
  by_cases hnew : t.new.children t.node = []
  · rw [if_pos (isEmpty_iff.mpr hnew)]
    by_cases hold : t.old.children t.node = []
    · rw [if_pos (isEmpty_iff.mpr hold), assertThat_of (h.container_eq_none.mpr hold)]
      exact h.over_of_nil hnew hold
    · rw [if_neg fun hempty => hold (isEmpty_iff.mp hempty)]
      cases hc : (s.objects e).childContainerElement with
      | none => exact absurd (h.container_eq_none.mp hc) hold
      | some c =>
        have hids : ∀ y ∈ t.old.children t.node,
            y ∈ t.old.children t.node ∧ y ∉ t.new.children t.node :=
          fun y hy => ⟨hy, hnew ▸ not_mem_nil⟩
        rw [foldlM_detachObject fun y hy => h.midway.arranged.known (t.old.mem_nodes hy).2]
        refine (h.detachAll hids).over_removeContainer hnew hc fun y hy z hz => ?_
        exact mem_append_right _ (hz.element_eq ▸ mem_map_of_mem hy)
  · rw [if_neg fun hempty => hnew (isEmpty_iff.mp hempty)]
    by_cases hold : t.old.children t.node = []
    · rw [getOrCreateChildContainer_of_none (h.midway.wellFormed.lt_size h.at_node)
        (h.container_eq_none.mpr hold), ok_bind]
      dsimp only
      rw [if_pos (isEmpty_iff.mpr hold)]
      refine (h.filling_addContainer hold).appendChildren.mono fun s' hs' => ?_
      exact hs'.over (fun _ => Iff.rfl) hnew h.given_eq h.given_eq
    · cases hc : (s.objects e).childContainerElement with
      | none => exact absurd (h.container_eq_none.mp hc) hold
      | some c =>
        rw [getOrCreateChildContainer, hc, ok_bind]
        dsimp only
        rw [if_neg fun hempty => hold (List.isEmpty_iff.mp hempty)]
        by_cases hsame : (t.old.children t.node).length = (t.new.children t.node).length ∧
            discrepancy (t.old.children t.node) (t.new.children t.node) =
              (t.new.children t.node).length
        · rw [if_pos hsame]
          exact h.over_of_eq hc (eq_of_discrepancy hsame.1 hsame.2) hnew
        · rw [if_neg hsame]
          have hids : ∀ y ∈ removedIds (t.old.children t.node) (t.new.children t.node),
              y ∈ t.old.children t.node ∧ y ∉ t.new.children t.node :=
            fun y hy => (mem_removedIds (t.old.nodup t.node)).mp hy
          rw [foldlM_detachObject fun y hy =>
            h.midway.arranged.known (t.old.mem_nodes (hids y hy).1).2, ok_bind]
          refine ((h.detachAll hids).insertChildren hc hnew fun hy hnot hz => ?_).bind ?_
          · exact mem_append_right _ (hz.element_eq ▸ mem_map_of_mem
              ((mem_removedIds (t.old.nodup t.node)).mpr ⟨hy, hnot⟩))
          · exact fun s' hs' => hs'

end Opened

section

variable (h : t.Midway ∅ s) (he : s.At t.node e)
  (hobject : WaitingObject t.start s t.node e (t.old.children t.node))
include h he hobject

/-- The node receives its new list of children. -/
theorem opened (hgiven : given.getD [] = t.new.children t.node) :
    t.Opened e given (s.modify e ({ · with childrenInTraversalOrder := given })) := by
  have hmodified : (s.modify e ({ · with childrenInTraversalOrder := given })).objects e =
      { s.objects e with childrenInTraversalOrder := given } := by
    rw [modify_objects, if_pos rfl]
  refine ⟨Midway.modify h he (fun _ => rfl) (fun _ => rfl) fun _ => rfl, he, hgiven, ?_, ?_, ?_, ?_⟩
  · rw [hmodified]
  · rw [hmodified]
    exact hobject.previous_eq
  · rw [hmodified]
    exact hobject.container_eq_none
  · rw [hmodified]
    exact fun hc => (hobject.container_start hc).2

/-- `updateWith` settles the node, and its last assertion holds. -/
theorem updateWith {update : SemanticsNodeUpdate}
    (hgiven : update.childrenInTraversalOrder.getD [] = t.new.children t.node) :
    Returns (t.Over e) (s.updateWith e update) := by
  refine (opened h he hobject hgiven).updateChildrenInTraversalOrder.bind fun s' hs' => ?_
  -- a settled object has a container if and only if it has children
  have hsettled := hs'.midway.arranged.settled_object (.inl rfl) hs'.at_node
  refine Ensures.assertion (fun hnot => hnot ?_) fun _ => hs'
  rw [hsettled.children_eq, List.isEmpty_iff, ← hsettled.container_eq_none]
  exact em _

end

end Turn

section Node

variable {T T' : Tree} {left settled waiting : Set ℤ} {start s : EngineSemanticsOwner}
  {update : SemanticsNodeUpdate}

/-- An object is found or created. -/
lemma Midway.getOrCreateObject {placed : Set ℤ} {id : ℤ}
    (h : Midway T T' start placed settled waiting s) (hnode : id ∈ T'.nodes) :
    Midway T T' start placed settled waiting (s.getOrCreateObject id).2 ∧
      (s.getOrCreateObject id).2.At id (s.getOrCreateObject id).1 := by
  rw [EngineSemanticsOwner.getOrCreateObject]
  cases hid : s.semanticsTree.get id with
  | some z => exact ⟨h, hid⟩
  | none => exact ⟨h.createObject hid hnode, at_createObject.mpr (by rw [if_pos rfl])⟩

/-- A node whose ancestors are settled is updated. -/
theorem Midway.updateNode (h : Midway T T' start (T'.childrenOf settled) settled waiting s)
    (hshows : start.Shows T left) (hnode : update.id ∈ T'.nodes)
    (hgiven : T'.children update.id = update.childrenInTraversalOrder.getD [])
    (hsettled : update.id ∉ settled) (hwaiting : update.id ∈ waiting)
    (habove : ∀ x, T'.Above x update.id → x ∈ settled) :
    Returns (Midway T T' start (T'.childrenOf (insert update.id settled)) (insert update.id settled)
      (waiting \ {update.id})) (s.updateNode update) := by
  let t : Turn := ⟨T, T', start, left, settled, waiting \ {update.id}, update.id, hshows,
    hnode, hsettled, fun hmem => hmem.2 rfl, habove⟩
  obtain ⟨hcreated, he⟩ := h.getOrCreateObject hnode
  have hmidway : t.Midway ∅ (s.getOrCreateObject update.id).2 := by
    rw [Turn.Midway, Set.union_empty]
    exact hcreated.mono Set.sdiff_subset
  have hobject := hcreated.arranged.waiting_object hwaiting he
  exact (Turn.updateWith hmidway he hobject hgiven.symm).mono fun s' hs' => hs'.midway

end Node

end EngineSemanticsOwner

end WebUi.Semantics
