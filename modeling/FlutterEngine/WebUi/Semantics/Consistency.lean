import FlutterEngine.WebUi.Semantics.Table
import FlutterEngine.WebUi.Semantics.Updates

/-!
# The semantics tree after every update

However many updates there are, the elements of the children of every node lie in its container in
their traversal order (`children_in_traversal_order`), provided that updates list nodes before their
descendants and no node that has been left behind comes back. The objects that are known are those
of the tree together with the ones that have been left behind. So there are no others, and the
consistency check passes, exactly as long as nothing is left behind (`no_ghosts_iff`).
-/

namespace WebUi.Semantics

open Lib Prod Set List Described

namespace EngineSemanticsOwner

variable {T : Tree} {left : Set ℤ} {s : EngineSemanticsOwner} {d d' : Described}
  {sents : List (List SemanticsNodeUpdate × Tree)} {sent : List SemanticsNodeUpdate × Tree}
  {x : ℤ} {e c : ℕ}

/-- The state after all updates so far. -/
def ShownAfter (sents : List (List SemanticsNodeUpdate × Tree)) (d : Described) : Prop :=
  ∃ s, updateAll (sents.map fst) = .ok s ∧ s.Shows d.tree d.left

lemma updateAll_append (hs : updateAll (sents.map fst) = .ok s) :
    updateAll ((sents ++ [sent]).map fst) = s.updateSemantics sent.1 := by
  rw [updateAll] at hs ⊢
  rw [map_append, foldlM_append, hs, ok_bind]
  simp only [map_cons, map_nil, foldlM_cons, foldlM_nil, bind_pure]

/-- One more update. -/
theorem ShownAfter.snoc (h : ShownAfter sents d) (hvalid : d.Valid sent) (hreturn : d.NoReturn sent)
    (hstep : d.next sent = some d') : ShownAfter (sents ++ [sent]) d' := by
  obtain ⟨s, hs, hshows⟩ := h
  obtain ⟨s', hs', hshows'⟩ :=
    Returns.exists_eq_ok (hshows.updateSemantics hvalid.1 hvalid.2 hreturn)
  cases hstep
  exact ⟨s', (updateAll_append hs).trans hs', hshows'⟩

lemma shownAfter_nil : ShownAfter [] .init := ⟨init, rfl, shows_init⟩

/-! ## The order of the elements -/

/-- Every node has the elements of its children in its container, in their order, and is their
parent. -/
def InTraversalOrder (s : EngineSemanticsOwner) (T : Tree) : Prop :=
  ∀ x ∈ T.nodes, ∃ e, s.At x e ∧ (s.objects e).children = T.children x ∧
    (s.objects e).childContainerElement.elim [] s.dom.children = (T.children x).map s.element ∧
    ∀ y ∈ T.children x, ∃ z, s.At y z ∧ (s.objects z).parent = some e

/-- A tree that is shown is in order. -/
lemma Shows.inTraversalOrder (h : s.Shows T left) : s.InTraversalOrder T := by
  intro x hx
  obtain ⟨e, he⟩ := h.known hx
  have hobject := h.object hx he
  refine ⟨e, he, hobject.children_eq, ?_, fun y hy => ?_⟩
  · cases hc : (s.objects e).childContainerElement with
    | none =>
      rw [hobject.container_eq_none.mp hc]
      rfl
    | some c =>
      rw [← hobject.within_eq hc]
      -- everything in a container is the element of an object
      refine (Dom.restrict_eq_self fun z hz => ?_).symm
      obtain ⟨y, hy⟩ := h.wellFormed.exists_at he hc (s.dom.mem_children.mp hz)
      exact ⟨y, trivial, hy⟩
  · obtain ⟨z, hz⟩ := h.known (T.mem_nodes hy).2
    exact ⟨z, hz, h.parent_eq hy he hz⟩

/-- After any number of updates that describe trees, list nodes before their descendants, and do not
bring back a node that has been left behind, the elements are in traversal order. -/
theorem children_in_traversal_order
    (h : Run next (fun d sent => d.Valid sent ∧ d.NoReturn sent) .init sents d) :
    ∃ s, updateAll (sents.map fst) = .ok s ∧ s.InTraversalOrder d.tree := by
  obtain ⟨s, hs, hshows⟩ := h.invariant_history shownAfter_nil
    fun _ _ _ _ hshown hguard hstep => hshown.snoc hguard.1 hguard.2 hstep
  exact ⟨s, hs, hshows.inTraversalOrder⟩

/-- The root has three children and a grandchild. -/
def threeChildren : Table where
  rows := [(0, [1, 2, 3]), (1, [4]), (2, []), (3, []), (4, [])]

/-- Two of them have changed places, and the other one has moved. -/
def rearranged : Table where
  rows := [(0, [3, 1]), (3, []), (1, [2, 4]), (2, []), (4, [])]

def rearranging : List (List SemanticsNodeUpdate × Tree) :=
  [(threeChildren.updates, threeChildren.tree),
    ([⟨0, some [3, 1]⟩, ⟨1, some [2, 4]⟩], rearranged.tree)]

lemma run_rearranging : ∃ d, Run next (fun d sent => (d.Valid sent ∧ d.NoReturn sent) ∧
    d.NoneLeft sent) .init rearranging d ∧ d.tree = rearranged.tree := by
  refine ⟨_, .cons ⟨⟨?_, ?_⟩, ?_⟩ rfl (.cons ⟨⟨?_, ?_⟩, ?_⟩ rfl .nil), rfl⟩
  · exact threeChildren.valid (.inr (by decide)) (by decide) (by decide)
  · exact fun x _ => notMem_empty x
  · exact eq_empty_iff_forall_notMem.mpr fun _ ⟨_, hx, _⟩ => hx
  · exact rearranged.valid (.inr (by decide)) (by decide) (by decide)
  · rintro x - (hleft | ⟨_, hx, -⟩)
    · exact hleft
    · exact hx
  · refine eq_empty_iff_forall_notMem.mpr fun _ ⟨x, hx, hnot, _⟩ => hnot ?_
    exact (show ∀ x ∈ threeChildren.nodes, x ∈ rearranged.nodes by decide) x hx

theorem children_in_traversal_order_rearranging :
    ∃ d s, Run next (fun d sent => d.Valid sent ∧ d.NoReturn sent) .init rearranging d ∧
      d.tree = rearranged.tree ∧ updateAll (rearranging.map fst) = .ok s ∧
      s.InTraversalOrder d.tree := by
  obtain ⟨d, hrun, htree⟩ := run_rearranging
  have hvalid := hrun.mono fun _ _ hguard => hguard.1
  obtain ⟨s, hs, horder⟩ := children_in_traversal_order hvalid
  exact ⟨d, s, hvalid, htree, hs, horder⟩

/-- Three nodes in a row. -/
def chain : Table where
  rows := [(0, [1]), (1, [2]), (2, [])]

/-- The last two have changed places. -/
def turned : Table where
  rows := [(0, [2]), (2, [1]), (1, [])]

/-- Node 2 is updated before its parent. -/
def turning : List (List SemanticsNodeUpdate × Tree) :=
  [(chain.updates, chain.tree), ([⟨2, some [1]⟩, ⟨0, some [2]⟩, ⟨1, none⟩], turned.tree)]

def nested : Table where
  rows := [(0, [1, 9]), (1, [2]), (9, []), (2, [3]), (3, [])]

def pruned : Table where
  rows := [(0, [9]), (9, [])]

def rescued : Table where
  rows := [(0, [9]), (9, [3]), (3, [])]

def returned : Table where
  rows := [(0, [9, 2]), (9, []), (2, [3]), (3, [])]

/-- Node 1 disappears, and 2 and 3 are left behind. First 3 comes back, as a child of 9, and then 2,
whose child it is again. -/
def returning : List (List SemanticsNodeUpdate × Tree) :=
  [(nested.updates, nested.tree), ([⟨0, some [9]⟩], pruned.tree),
    ([⟨9, some [3]⟩, ⟨3, none⟩], rescued.tree),
    ([⟨0, some [9, 2]⟩, ⟨9, none⟩, ⟨2, some [3]⟩], returned.tree)]

/-- If a node is updated before its parent, the browser may refuse to put an element into itself. If
nodes that have been left behind come back, an object may believe that its child is in its
container, although it has been moved away. -/
theorem not_children_in_traversal_order :
    (∃ d, Run next (fun d sent => Describes d.tree sent.1 sent.2) .init turning d ∧
      updateAll (turning.map fst) = .error (.dom .hierarchyRequestError)) ∧
    ∃ d s, Run next Described.Valid .init returning d ∧
      updateAll (returning.map fst) = .ok s ∧ ¬s.InTraversalOrder d.tree := by
  refine ⟨⟨_, .cons ?_ rfl (.cons ?_ rfl .nil), rfl⟩, ?_⟩
  · exact chain.describes (.inr (by decide)) (by decide)
  · exact turned.describes (.inr (by decide)) (by decide)
  · obtain ⟨s, hs, hempty⟩ : ∃ s ∈ (updateAll (returning.map fst)).toOption,
        (s.objects (s.element 2)).childContainerElement.elim [] s.dom.children = [] := by
      decide +kernel
    refine ⟨⟨returned.tree, _⟩, s, .cons ?_ rfl (.cons ?_ rfl (.cons ?_ rfl (.cons ?_ rfl .nil))),
      mem_toOption_iff.mp hs, fun horder => ?_⟩
    · exact nested.valid (.inr (by decide)) (by decide) (by decide)
    · exact pruned.valid (.inr (by decide)) (by decide) (by decide)
    · exact rescued.valid (.inl (show 0 ∈ pruned.nodes by decide)) (by decide) (by decide)
    · exact returned.valid (.inr (by decide)) (by decide) (by decide)
    · obtain ⟨e, he, -, helements, -⟩ := horder 2 (show 2 ∈ returned.nodes by decide)
      rw [he.element_eq] at hempty
      rw [hempty] at helements
      cases helements

/-! ## Objects that should not be there -/

/-- The objects are those of the tree. -/
def HasKeysOf (s : EngineSemanticsOwner) (T : Tree) : Prop :=
  ∀ x, x ∈ s.semanticsTree.keys ↔ x ∈ T.nodes

/-- Which ids have objects. -/
lemma mem_keys_iff : x ∈ s.semanticsTree.keys ↔ ∃ e, s.At x e := by
  rw [s.semanticsTree.mem_keys, Option.isSome_iff_exists]
  rfl

/-- The ids are those of the tree iff nothing was left behind. -/
lemma Shows.hasKeysOf_iff (h : s.Shows T left) : s.HasKeysOf T ↔ left = ∅ := by
  constructor
  · intro hkeys
    refine eq_empty_iff_forall_notMem.mpr fun x hx => ?_
    exact h.notMem_left ((hkeys x).mp (mem_keys_iff.mpr (h.known_iff.mpr (.inr hx)))) hx
  · rintro rfl x
    rw [mem_keys_iff, h.known_iff]
    exact or_iff_left (notMem_empty x)

/-- The consistency check passes if nothing has been left behind. -/
theorem Shows.validateTree (h : s.Shows T ∅) {updates : List SemanticsNodeUpdate}
    (hupdates : ∀ update ∈ updates, update.id ∈ T.nodes) : s.validateTree updates = .ok () := by
  have hobjects : s.semanticsTree.keys.forM s.validateObject = .ok () := by
    refine forM_eq_ok fun x hx => ?_
    obtain ⟨e, he⟩ := mem_keys_iff.mp hx
    have hnode : x ∈ T.nodes := (h.known_iff.mp ⟨e, he⟩).resolve_right (notMem_empty x)
    rw [validateObject, he]
    dsimp only
    rw [assertThat_of (h.wellFormed.id_eq he).symm, (h.object hnode he).children_eq, ok_bind]
    refine forM_eq_ok fun y hy => ?_
    obtain ⟨z, hz⟩ := h.known (T.mem_nodes hy).2
    rw [validateChild, hz]
    dsimp only
    rw [h.parent_eq hy he hz]
    exact assertThat_of rfl
  rw [EngineSemanticsOwner.validateTree, hobjects, ok_bind]
  refine forM_eq_ok fun update hupdate => assertThat_of ?_
  obtain ⟨e, he⟩ := h.known (hupdates update hupdate)
  rw [he]
  rfl

/-- After an update the objects are those of its tree, and the consistency check passes. -/
def NoGhosts (sents : List (List SemanticsNodeUpdate × Tree))
    (sent : List SemanticsNodeUpdate × Tree) : Prop :=
  ∃ s, updateAll ((sents ++ [sent]).map fst) = .ok s ∧ s.HasKeysOf sent.2 ∧
    s.validateTree sent.1 = .ok ()

/-- As long as nothing is left behind. -/
theorem shownAfter_of_noneLeft
    (h : Run next (fun d sent => d.Valid sent ∧ d.NoneLeft sent) .init sents d) :
    d.left = ∅ ∧ ShownAfter sents d := by
  refine h.invariant_history (P := fun sents d => d.left = ∅ ∧ ShownAfter sents d)
    ⟨rfl, shownAfter_nil⟩ ?_
  rintro sents d sent d' ⟨hleft, hshown⟩ ⟨hvalid, hnone⟩ hstep
  have hreturn : d.NoReturn sent := fun x _ => hleft ▸ notMem_empty x
  refine ⟨?_, hshown.snoc hvalid hreturn hstep⟩
  cases hstep
  rw [hleft, hnone, union_empty]

/-- For updates that describe trees and list nodes before their descendants, the objects are those
of the tree after every update, and the consistency check never throws, if and only if no node ever
disappears together with its parent. -/
theorem no_ghosts_iff (h : Run next Described.Valid .init sents d) :
    (∀ before sent after, sents = before ++ sent :: after → NoGhosts before sent) ↔
      Run next (fun d sent => d.Valid sent ∧ d.NoneLeft sent) .init sents d := by
  constructor
  · intro hghosts
    refine h.guarded_or.resolve_right ?_
    rintro ⟨before, sent, after, t, u, rfl, hbefore, hnot, hstep, -⟩
    obtain ⟨hleft, hshown⟩ := shownAfter_of_noneLeft hbefore
    -- the first update that leaves something behind
    obtain ⟨t', u', hrun', hvalid, -⟩ := h.of_append_cons
    rw [hrun'.unique hbefore] at hvalid
    have hreturn : t.NoReturn sent := fun x _ => hleft ▸ notMem_empty x
    obtain ⟨s, hs, hshows⟩ := hshown.snoc hvalid hreturn hstep
    -- up to it all is well, and after it the keys tell that nothing was left behind
    obtain ⟨s', hs', hkeys, -⟩ := hghosts before sent after rfl
    cases hs.symm.trans hs'
    cases hstep
    have hempty := hshows.hasKeysOf_iff.mp hkeys
    rw [hleft, empty_union] at hempty
    exact hnot ⟨hvalid, hempty⟩
  · rintro hrun before sent after rfl
    -- the run up to this update
    rw [append_cons] at hrun
    obtain ⟨u, hu, -⟩ := hrun.of_append
    obtain ⟨t, ht, hguard, hstep⟩ := hu.of_append_singleton
    obtain ⟨hleft, s, hs, hshows⟩ := shownAfter_of_noneLeft hu
    rw [hleft] at hshows
    cases hstep
    exact ⟨s, hs, hshows.hasKeysOf_iff.mpr rfl,
      hshows.validateTree fun update hupdate => (hguard.1.1.updated update hupdate).1⟩

/-- A node moves to another parent, and nothing is left behind. -/
theorem no_ghosts_rearranging :
    ∃ d, Run next Described.Valid .init rearranging d ∧
      ∀ before sent after, rearranging = before ++ sent :: after → NoGhosts before sent := by
  obtain ⟨d, hrun, -⟩ := run_rearranging
  have hvalid : Run next Described.Valid .init rearranging d :=
    hrun.mono fun _ _ hguard => hguard.1.1
  exact ⟨d, hvalid, (no_ghosts_iff hvalid).mpr (hrun.mono fun _ _ hguard => ⟨hguard.1.1, hguard.2⟩)⟩

/-- Only the root is left. -/
def alone : Table where
  rows := [(0, [])]

/-- Node 1 disappears together with its child. -/
def abandoning : List (List SemanticsNodeUpdate × Tree) :=
  [(chain.updates, chain.tree), ([⟨0, none⟩], alone.tree)]

def longChain : Table where
  rows := [(0, [1]), (1, [2]), (2, [3]), (3, [])]

def shortened : Table where
  rows := [(0, [3]), (3, [])]

/-- Nodes 1 and 2 disappear, but the child of 2 finds another parent. -/
def shortening : List (List SemanticsNodeUpdate × Tree) :=
  [(longChain.updates, longChain.tree), ([⟨0, some [3]⟩], shortened.tree)]

/-- A node that disappears together with its parent is still known. If it has a child that has found
another parent, the consistency check throws. -/
theorem not_no_ghosts :
    (∃ d s, Run next Described.Valid .init abandoning d ∧
      updateAll (abandoning.map fst) = .ok s ∧ ¬s.HasKeysOf d.tree) ∧
    ∃ d s, Run next Described.Valid .init shortening d ∧
      updateAll (shortening.map fst) = .ok s ∧
      s.validateTree [⟨0, some [3]⟩] = .error (.assertion .otherParent) := by
  constructor
  · obtain ⟨s, hs, hkeys⟩ : ∃ s ∈ (updateAll (abandoning.map fst)).toOption,
        s.semanticsTree.keys = [0, 2] := by decide +kernel
    refine ⟨⟨alone.tree, _⟩, s, .cons ?_ rfl (.cons ?_ rfl .nil), mem_toOption_iff.mp hs,
      fun hsame => ?_⟩
    · exact chain.valid (.inr (by decide)) (by decide) (by decide)
    · exact alone.valid (.inr (by decide)) (by decide) (by decide)
    · have hmem := (hsame 2).mp (hkeys ▸ by decide)
      exact absurd (show 2 ∈ alone.nodes from hmem) (by decide)
  · obtain ⟨s, hs, hcheck⟩ : ∃ s ∈ (updateAll (shortening.map fst)).toOption,
        s.validateTree [⟨0, some [3]⟩] = .error (.assertion .otherParent) := by decide +kernel
    refine ⟨_, s, .cons ?_ rfl (.cons ?_ rfl .nil), mem_toOption_iff.mp hs, hcheck⟩
    · exact longChain.valid (.inr (by decide)) (by decide) (by decide)
    · exact shortened.valid (.inr (by decide)) (by decide) (by decide)

end EngineSemanticsOwner

end WebUi.Semantics
