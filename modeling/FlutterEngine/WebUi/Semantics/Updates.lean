import FlutterEngine.WebUi.Semantics.Turns

/-!
# A whole update

All nodes of an update have their turns, and then all nodes of the new tree are settled. What
remains is to insert the root, the first time, and to remove the objects that have lost their
parents and have not found new ones. `Finished` collects what is known before that. Afterwards the
new tree is shown (`Shows.updateSemantics`); nodes that disappeared together with their parents are
left behind.
-/

namespace WebUi.Semantics

open Lib List Dom Option Set

namespace EngineSemanticsOwner

variable {T T' : Tree} {left : Set ℤ} {updates rest : List SemanticsNodeUpdate}
  {start s : EngineSemanticsOwner} {x y : ℤ} {e c z : ℕ}

variable {s' : EngineSemanticsOwner}

/-! ## All nodes -/

/-- All nodes have their turns. -/
theorem Midway.foldlM_updateNode
    (h : Midway T T' start (T'.childrenOf (T'.unmentioned rest)) (T'.unmentioned rest)
      {x | x ∈ ids rest} s)
    (hshows : start.Shows T left)
    (hupdated : ∀ update ∈ rest, update.id ∈ T'.nodes ∧
      T'.children update.id = update.childrenInTraversalOrder.getD [])
    (hnodup : (ids rest).Nodup) (hordered : Ordered rest T') :
    Returns (Midway T T' start (T'.childrenOf T'.nodes) T'.nodes ∅)
      (rest.foldlM EngineSemanticsOwner.updateNode s) := by
  -- the nodes that the rest of the update does not mention are settled
  induction rest generalizing s with
  | nil =>
    have hnodes : T'.unmentioned [] = T'.nodes := by
      ext x
      simp [Tree.unmentioned, ids]
    have hids : {x | x ∈ ids []} = (∅ : Set ℤ) := by
      ext x
      simp [ids]
    rwa [hnodes, hids] at h
  | cons update rest ih =>
    obtain ⟨⟨hnode, hgiven⟩, hupdated⟩ := forall_mem_cons.mp hupdated
    obtain ⟨hnotMem, hnodup⟩ := nodup_cons.mp hnodup
    obtain ⟨hnotAbove, hordered⟩ := pairwise_cons.mp hordered
    -- the nodes above have had their turns, or they are not mentioned
    have habove : ∀ x, T'.Above x update.id → x ∈ T'.unmentioned (update :: rest) := by
      intro x hx
      refine ⟨T'.mem_nodes_of_above hx, fun hmem => ?_⟩
      rcases mem_cons.mp hmem with rfl | hmem
      · exact T'.not_above_self hnode hx
      · exact hnotAbove x hmem hx
    have hsettled : insert update.id (T'.unmentioned (update :: rest)) = T'.unmentioned rest := by
      ext x
      constructor
      · rintro (rfl | ⟨hx, hmem⟩)
        · exact ⟨hnode, hnotMem⟩
        · exact ⟨hx, fun hrest => hmem (mem_cons_of_mem _ hrest)⟩
      · rintro ⟨hx, hmem⟩
        by_cases heq : x = update.id
        · exact .inl heq
        · exact .inr ⟨hx, fun hcons => (mem_cons.mp hcons).elim heq hmem⟩
    have hwaiting : {x | x ∈ ids (update :: rest)} \ {update.id} = {x | x ∈ ids rest} := by
      ext x
      constructor
      · rintro ⟨hmem, hne⟩
        exact (mem_cons.mp hmem).resolve_left hne
      · intro hmem
        exact ⟨mem_cons_of_mem _ hmem, fun heq => hnotMem (heq ▸ hmem)⟩
    have hturn := h.updateNode hshows hnode hgiven
      (fun hmem => hmem.2 mem_cons_self) mem_cons_self habove
    rw [hsettled, hwaiting] at hturn
    rw [foldlM_cons]
    exact hturn.bind fun s' hs' => ih hs' hupdated hnodup hordered

/-! ## The root -/

/-- All nodes are settled. -/
structure Finished (T T' : Tree) (left : Set ℤ) (s : EngineSemanticsOwner) : Prop where
  wellFormed : s.WellFormed
  known_iff : ∀ {x}, (∃ e, s.At x e) ↔ x ∈ T.nodes ∨ x ∈ left ∨ x ∈ T'.nodes
  object : ∀ {x e}, x ∈ T'.nodes → s.At x e →
    s.SettledObject (T'.childrenOf T'.nodes) e (T'.children x)
  inside : ∀ {x y e c z}, x ∈ T'.nodes → s.At x e → (s.objects e).childContainerElement = some c →
    s.At y z → s.dom.parent z = some c → y ∈ T'.children x ∨ y ∈ T.children x ∧ y ∉ T'.nodes
  parent_eq : ∀ {x y e z}, y ∈ T'.children x → s.At x e → s.At y z → (s.objects z).parent = some e
  exists_parent : ∀ {y p}, s.attachments y = some p → ∃ x, y ∈ T'.children x ∧ s.At x p
  attached : ∀ {x y p}, y ∈ T'.children x → y ∉ T.children x → s.At x p → s.attachments y = some p
  exists_former : ∀ {e}, e ∈ s.detachments →
    ∃ x y, x ∈ T'.nodes ∧ y ∈ T.children x ∧ y ∉ T'.children x ∧ s.At y e
  detached : ∀ {x y e}, x ∈ T'.nodes → y ∈ T.children x → y ∉ T'.children x → s.At y e →
    e ∈ s.detachments
  root_parent : ∀ {r q}, s.At 0 r → s.dom.parent r = some q → q = glassPaneElement

/-- A child of a node is a child of one of the nodes. -/
lemma mem_childrenOf_nodes (hy : y ∈ T'.children x) : y ∈ T'.childrenOf T'.nodes :=
  ⟨x, (T'.mem_nodes hy).1, hy⟩

/-- Every node but the root has a parent. -/
theorem mem_nodes_iff (hroot : 0 ∈ T'.nodes) :
    y ∈ T'.nodes ↔ y = 0 ∨ y ∈ T'.childrenOf T'.nodes := by
  constructor
  · intro hy
    by_cases hzero : y = 0
    · exact .inl hzero
    · exact .inr ((T'.exists_parent hy hzero).imp fun x hx => ⟨(T'.mem_nodes hx).1, hx⟩)
  · rintro (rfl | ⟨x, -, hx⟩)
    · exact hroot
    · exact (T'.mem_nodes hx).2

/-- The root is no child. -/
lemma zero_notMem_childrenOf {A : Set ℤ} : 0 ∉ T'.childrenOf A :=
  fun ⟨_, _, hx⟩ => T'.root_notMem hx

/-- A node that lies in a container at the start is a child. -/
theorem Shows.mem_children (h : start.Shows T left) (hx : x ∈ T.nodes) (he : start.At x e)
    (hc : (start.objects e).childContainerElement = some c) (hy : start.At y z)
    (hz : start.dom.parent z = some c) : y ∈ T.children x := by
  have hwithin : z ∈ start.dom.within (start.elements univ) c := mem_within.mpr ⟨hz, y, trivial, hy⟩
  rw [(h.object hx he).within_eq hc] at hwithin
  obtain ⟨y', hy', rfl⟩ := mem_map.mp hwithin
  obtain ⟨z', hz'⟩ := h.known (T.mem_nodes hy').2
  rw [hz'.element_eq] at hy
  rwa [h.wellFormed.at_inj hy hz']

/-- At the end of the updates all nodes are arranged. -/
lemma Midway.finished (h : Midway T T' start (T'.childrenOf T'.nodes) T'.nodes ∅ s)
    (hshows : start.Shows T left) (hreturn : ∀ x ∈ T'.nodes, x ∉ left) (hroot : 0 ∈ T'.nodes) :
    Finished T T' left s := by
  have hwf := h.wellFormed
  constructor
  · exact hwf
  · intro x
    constructor
    · rintro ⟨e, he⟩
      rcases h.arranged.origin he with hstart | hnode
      · exact (hshows.known_iff.mp ⟨e, hstart⟩).imp_right .inl
      · exact .inr (.inr hnode)
    · rintro (hx | hx | hx)
      · exact h.arranged.known hx
      · exact (hshows.known_iff.mpr (.inr hx)).imp fun e he => h.grown.at_of_start he
      -- a new node is the root, or a child that has been placed
      · rcases (mem_nodes_iff hroot).mp hx with rfl | hplaced
        · exact h.arranged.root_known hroot
        · exact h.arranged.placed_known hplaced
  · exact fun hx he => h.arranged.settled_object hx he
  · intro x y e c z hx he hc hy hz
    by_cases hplaced : y ∈ T'.childrenOf T'.nodes
    · obtain ⟨x', hx', hyx'⟩ := hplaced
      obtain ⟨e', c', he', hc', hparent⟩ := h.parent_of_settled hx' hyx' hy
      obtain rfl := some.inj (hparent.symm.trans hz)
      have heq : e' = e := hwf.container_inj he' he hc' hc
      exact .inl (hwf.at_inj he' (heq ▸ he) ▸ hyx')
    · -- it has been there since the start
      obtain ⟨hyStart, hzStart⟩ := h.parent_start hplaced hy hz
      rcases h.grown.container_or he hc with hle | ⟨heStart, hcStart⟩
      · exact absurd (start.dom.lt_size hzStart).2 (not_lt.mpr hle)
      · have hxOld := hshows.mem_nodes hreturn hx heStart
        have hold := hshows.mem_children hxOld heStart hcStart hyStart hzStart
        refine .inr ⟨hold, fun hnode => ?_⟩
        rcases (mem_nodes_iff hroot).mp hnode with rfl | hmem
        · exact T.root_notMem hold
        · exact hplaced hmem
  · exact fun hy => h.arranged.parent_eq (mem_childrenOf_nodes hy) hy
  · exact fun hp => (h.noted.exists_parent hp).2
  · exact fun hy => h.noted.attached (mem_childrenOf_nodes hy) hy
  · exact h.noted.exists_former
  · exact h.noted.detached
  · intro r q hr hq
    obtain ⟨hstart, hqStart⟩ := h.parent_start zero_notMem_childrenOf hr hq
    exact hshows.root_parent hstart hqStart

/-- The root is put into the glass pane. -/
def placeRoot (s : EngineSemanticsOwner) (r : ℕ)
    (hlt : glassPaneElement < s.dom.size ∧ r < s.dom.size) : EngineSemanticsOwner :=
  { s with
    rootSemanticsElement := some r
    dom := s.dom.moveTo glassPaneElement r (some sceneHostElement) hlt }

/-- The root is placed. -/
lemma Finished.placeRoot (h : Finished T T' left s) {r : ℕ} (hr : s.At 0 r)
    (hlt : glassPaneElement < s.dom.size ∧ r < s.dom.size) :
    Finished T T' left (s.placeRoot r hlt) := by
  have hwf := h.wellFormed
  have hmoved : { s with
      dom := s.dom.moveTo glassPaneElement r (some sceneHostElement) hlt }.WellFormed :=
    hwf.moveTo hr
  have hself : (s.placeRoot r hlt).dom.parent r = some glassPaneElement :=
    parent_moveTo_self (h := hlt)
  have hother {z : ℕ} (hz : z ≠ r) : (s.placeRoot r hlt).dom.parent z = s.dom.parent z :=
    parent_moveTo_of_ne (h := hlt) hz
  refine ⟨hmoved.of_eq rfl rfl (fun _ => rfl) fun _ => rfl, h.known_iff, ?_, ?_, h.parent_eq,
    h.exists_parent, h.attached, h.exists_former, h.detached, ?_⟩
  · intro x e hx he
    refine (h.object hx he).of_eq rfl (fun c _ => ?_) fun _ _ => rfl
    -- the root is nobody's child, so that no container is concerned
    refine within_moveTo_of_notMem (h := hlt) fun hmem => ?_
    exact zero_notMem_childrenOf ((hwf.mem_elements hr).mp hmem)
  · intro x y e c z hx he hc hy hz
    by_cases heq : z = r
    · rw [heq, hself] at hz
      have htwo := hwf.two_le_container he hc
      rw [← some.inj hz] at htwo
      exact absurd htwo (by decide)
    · rw [hother heq] at hz
      exact h.inside hx he hc hy hz
  · intro r' q hr' hq
    rw [hr'.unique hr, hself] at hq
    exact (some.inj hq).symm

/-- The root is inserted. -/
lemma Finished.insertRoot (h : Finished T T' left s) (hroot : 0 ∈ T'.nodes) :
    Returns (Finished T T' left) s.insertRoot := by
  rw [EngineSemanticsOwner.insertRoot]
  cases hset : s.rootSemanticsElement with
  | some r => exact h
  | none =>
    obtain ⟨r, hr⟩ := h.known_iff.mpr (.inr (.inr hroot))
    have hwf := h.wellFormed
    have hglass : glassPaneElement < s.dom.size := (s.dom.lt_size hwf.sceneHost).2
    have htwo := hwf.two_le hr
    have hinsert : s.dom.insertBefore glassPaneElement r (some sceneHostElement) =
        .ok (s.dom.moveTo glassPaneElement r (some sceneHostElement) ⟨hglass, hwf.lt_size hr⟩) := by
      refine insertBefore_eq_ok hglass (hwf.lt_size hr) ?_ ?_ ?_
      · intro e he
        rw [← some.inj he]
        exact hwf.sceneHost
      · intro heq
        rw [← some.inj heq] at htwo
        exact absurd htwo (by decide)
      · -- there is nothing above the glass pane
        refine notMem_inclusiveAncestors (s := {glassPaneElement}) ?_ rfl ?_
        · rintro _ rfl q hq
          rw [hwf.glassPane] at hq
          cases hq
        · rintro rfl
          exact absurd htwo (by decide)
    rw [hr]
    dsimp only
    rw [hinsert]
    exact h.placeRoot hr ⟨hglass, hwf.lt_size hr⟩

/-! ## Objects without parents -/

/-- Some objects have been removed permanently. -/
structure Cut (s : EngineSemanticsOwner) (gone : Set ℤ) (s' : EngineSemanticsOwner) : Prop where
  wellFormed : s'.WellFormed
  at_iff : ∀ {y z}, s'.At y z ↔ s.At y z ∧ y ∉ gone
  objects_eq : ∀ {e}, e ∉ s.elements gone → s'.objects e = s.objects e
  id_eq : ∀ e, (s'.objects e).id = (s.objects e).id
  parent_eq : ∀ {z}, z ∉ s.elements gone → s'.dom.parent z = s.dom.parent z
  parent_eq_none : ∀ {z}, z ∈ s.elements gone → s'.dom.parent z = none
  within_eq : ∀ {A q}, (∀ z ∈ A, z ∉ s.elements gone) → s'.dom.within A q = s.dom.within A q
  attachments_eq : s'.attachments = s.attachments

/-- One more object is removed. -/
lemma Cut.removeObject {gone : Set ℤ} (h : Cut s gone s') (he : s.At y e) :
    Cut s (insert y gone) (s'.removeObject y e) := by
  have helements : s.elements (insert y gone) = insert e (s.elements gone) := elements_insert he
  have hother {z : ℕ} (hz : z ≠ e) : (s'.removeObject y e).dom.parent z = s'.dom.parent z :=
    parent_remove_of_ne hz
  have hself : (s'.removeObject y e).dom.parent e = none := parent_remove_self
  constructor
  · by_cases hy : y ∈ gone
    · -- an object that is detached twice
      have hgone : s'.dom.parent e = none := h.parent_eq_none ⟨y, hy, he⟩
      refine h.wellFormed.congr (fun id z => ?_) rfl (fun z => ?_) (fun z => ?_) fun z => ?_
      · rw [at_removeObject]
        refine ⟨And.right, fun hat => ⟨?_, hat⟩⟩
        rintro rfl
        exact (h.at_iff.mp hat).2 hy
      · by_cases hz : z = e
        · rw [hz, hself, hgone]
        · exact hother hz
      · rw [removeObject_objects]
      · rw [removeObject_objects]
    · exact h.wellFormed.removeObject (h.at_iff.mpr ⟨he, hy⟩)
  · intro y' z
    rw [at_removeObject, h.at_iff, mem_insert_iff, not_or]
    exact and_left_comm
  · intro e' he'
    rw [helements, mem_insert_iff, not_or] at he'
    rw [removeObject_objects, if_neg he'.1, h.objects_eq he'.2]
  · intro e'
    rw [removeObject_objects]
    exact h.id_eq e'
  · intro z hz
    rw [helements, mem_insert_iff, not_or] at hz
    rw [hother hz.1, h.parent_eq hz.2]
  · intro z hz
    rw [helements] at hz
    by_cases heq : z = e
    · rw [heq, hself]
    · rw [hother heq, h.parent_eq_none (hz.resolve_left heq)]
  · intro A q hA
    rw [helements] at hA
    rw [← h.within_eq fun z hz hmem => hA z hz (.inr hmem)]
    exact within_remove_of_notMem fun hmem => hA e hmem (.inl rfl)
  · exact h.attachments_eq

/-- The objects among some that have not found a parent. -/
def unattached (s : EngineSemanticsOwner) (l : List ℕ) : Set ℤ :=
  {y | s.attachments y = none ∧ ∃ e ∈ l, s.At y e}

/-- What is not attached among some elements and one more. -/
lemma mem_unattached_append (hwf : s.WellFormed) {l : List ℕ} {y' : ℤ} (he : s.At y e) :
    y' ∈ s.unattached (l ++ [e]) ↔ y' = y ∧ s.attachments y = none ∨ y' ∈ s.unattached l := by
  constructor
  · rintro ⟨hnone, e', he', hat⟩
    rcases mem_append.mp he' with hmem | hmem
    · exact .inr ⟨hnone, e', hmem, hat⟩
    · obtain rfl := mem_singleton.mp hmem
      obtain rfl := hwf.at_inj hat he
      exact .inl ⟨rfl, hnone⟩
  · rintro (⟨rfl, hnone⟩ | ⟨hnone, e', he', hat⟩)
    · exact ⟨hnone, e, mem_append_right _ mem_cons_self, he⟩
    · exact ⟨hnone, e', mem_append_left _ he', hat⟩

/-- A node that is in the new tree has found a parent. -/
theorem Finished.notMem_unattached (h : Finished T T' left s) {l : List ℕ}
    (hl : ∀ e ∈ l, e ∈ s.detachments) (hy : y ∈ T'.nodes) : y ∉ s.unattached l := by
  rintro ⟨hnone, e, he, hat⟩
  obtain ⟨x, y', -, hold, hnot, hat'⟩ := h.exists_former (hl e he)
  obtain rfl := h.wellFormed.at_inj hat hat'
  -- it has another parent now, which has attached it
  have hzero : y ≠ 0 := fun heq => T.root_notMem (heq ▸ hold)
  obtain ⟨p, hp⟩ := T'.exists_parent hy hzero
  obtain ⟨q, hq⟩ := h.known_iff.mpr (.inr (.inr (T'.mem_nodes hp).1))
  have hnew : y ∉ T.children p := fun hmem => hnot (T.parent_unique hold hmem ▸ hp)
  rw [h.attached hp hnew hq] at hnone
  cases hnone

/-- The nodes of the new tree are not removed. -/
lemma Finished.notMem_elements (h : Finished T T' left s) {l : List ℕ}
    (hl : ∀ e ∈ l, e ∈ s.detachments) (hy : y ∈ T'.nodes) (hz : s.At y z) :
    z ∉ s.elements (s.unattached l) :=
  fun hmem => h.notMem_unattached hl hy ((h.wellFormed.mem_elements hz).mp hmem)

/-- The element of a child lies in the container of its parent. -/
theorem Finished.parent_container (h : Finished T T' left s) (hy : y ∈ T'.children x)
    (he : s.At x e) (hz : s.At y z) :
    s.dom.parent z = (s.objects e).childContainerElement := by
  obtain ⟨c, hc, hparent⟩ := (h.object (T'.mem_nodes hy).1 he).exists_container hy hz
  rw [hc, hparent]

/-- Some of the objects that had been detached have been looked at. -/
def Reconciled (s : EngineSemanticsOwner) (rest : List ℕ) (s' : EngineSemanticsOwner) : Prop :=
  ∃ front, front ++ rest = s.detachments ∧ Cut s (s.unattached front) s'

/-- An element is removed or attached anew. -/
lemma Finished.finalizeObject {rest : List ℕ} (h : Finished T T' left s)
    (hs' : Reconciled s (e :: rest) s') :
    Returns (Reconciled s rest) (s'.finalizeObject e) := by
  obtain ⟨front, hall, hcut⟩ := hs'
  have hfront : ∀ e' ∈ front, e' ∈ s.detachments := fun e' he' => hall ▸ mem_append_left _ he'
  have hmem : e ∈ s.detachments := hall ▸ mem_append_right _ mem_cons_self
  have hall' : (front ++ [e]) ++ rest = s.detachments := by
    rw [← hall, append_assoc, singleton_append]
  obtain ⟨-, y, -, -, -, he⟩ := h.exists_former hmem
  have hid : (s'.objects e).id = y := (hcut.id_eq e).trans (h.wellFormed.id_eq he)
  rw [EngineSemanticsOwner.finalizeObject, hcut.attachments_eq, hid]
  cases hy : s.attachments y with
  | none =>
    have hset : s.unattached (front ++ [e]) = insert y (s.unattached front) := by
      ext y'
      rw [mem_unattached_append h.wellFormed he, and_iff_left hy, mem_insert_iff]
    refine ⟨front ++ [e], hall', ?_⟩
    rw [hset]
    exact hcut.removeObject he
  | some p =>
    have hset : s.unattached (front ++ [e]) = s.unattached front := by
      ext y'
      rw [mem_unattached_append h.wellFormed he, hy]
      simp
    -- the object stays, and so does its parent: what the assertions compare has not been cut
    obtain ⟨x, hx, hp⟩ := h.exists_parent hy
    have hkept := h.notMem_elements hfront (T'.mem_nodes hx).2 he
    dsimp only
    rw [hcut.objects_eq hkept, hcut.parent_eq hkept,
      hcut.objects_eq (h.notMem_elements hfront (T'.mem_nodes hx).1 hp)]
    refine Ensures.assertion (fun hnot => hnot (h.parent_eq hx hp he)) fun _ => ?_
    refine Ensures.assertion (fun hnot => hnot (h.parent_container hx hp he)) fun _ => ?_
    exact ⟨front ++ [e], hall', hset ▸ hcut⟩

/-- The objects that are removed: their parents are in the new tree, but they are not. -/
theorem Finished.mem_unattached (h : Finished T T' left s) :
    y ∈ s.unattached s.detachments ↔ y ∉ T'.nodes ∧ ∃ x ∈ T'.nodes, y ∈ T.children x := by
  constructor
  · intro hy
    refine ⟨fun hnode => h.notMem_unattached (fun _ => id) hnode hy, ?_⟩
    obtain ⟨-, e, he, hat⟩ := hy
    obtain ⟨x, y', hx, hold, -, hat'⟩ := h.exists_former he
    exact ⟨x, hx, h.wellFormed.at_inj hat' hat ▸ hold⟩
  · rintro ⟨hnode, x, hx, hold⟩
    obtain ⟨e, he⟩ := h.known_iff.mpr (.inl (T.mem_nodes hold).2)
    have hnot : y ∉ T'.children x := fun hmem => hnode (T'.mem_nodes hmem).2
    refine ⟨?_, e, h.detached hx hold hnot he, he⟩
    cases hp : s.attachments y with
    | none => rfl
    | some p =>
      obtain ⟨x', hx', -⟩ := h.exists_parent hp
      exact absurd (T'.mem_nodes hx').2 hnode

section

variable (h : Finished T T' left s) (hcut : Cut s (s.unattached s.detachments) s')
include h hcut

/-- What is known when the objects without parents have been removed. -/
theorem Finished.known_iff_of_cut (hroot : 0 ∈ T'.nodes) (hleft : ∀ x ∈ T.nodes, x ∉ left) :
    (∃ e, s'.At x e) ↔ x ∈ T'.nodes ∨ x ∈ left ∪ leftBehind T T' := by
  have hknown : (∃ e, s'.At x e) ↔
      (x ∈ T.nodes ∨ x ∈ left ∨ x ∈ T'.nodes) ∧ x ∉ s.unattached s.detachments := by
    rw [← h.known_iff]
    simp only [hcut.at_iff, exists_and_right]
  rw [hknown, h.mem_unattached]
  constructor
  · rintro ⟨hx | hx | hx, hkept⟩
    · by_cases hnode : x ∈ T'.nodes
      · exact .inl hnode
      -- it is gone from the tree but still known: then its parent is gone, too
      · have hzero : x ≠ 0 := fun heq => hnode (heq ▸ hroot)
        obtain ⟨p, hp⟩ := T.exists_parent hx hzero
        have hparent : p ∉ T'.nodes := fun hmem => hkept ⟨hnode, p, hmem, hp⟩
        exact .inr (.inr ⟨p, (T.mem_nodes hp).1, hparent, hp, hnode⟩)
    · exact .inr (.inl hx)
    · exact .inl hx
  · rintro (hx | hx | ⟨p, -, hparent, hp, -⟩)
    · exact ⟨.inr (.inr hx), fun hgone => hgone.1 hx⟩
    · exact ⟨.inr (.inl hx), fun ⟨_, _, _, hold⟩ => hleft x (T.mem_nodes hold).2 hx⟩
    · refine ⟨.inl (T.mem_nodes hp).2, fun ⟨_, x', hx', hold⟩ => hparent ?_⟩
      rwa [T.parent_unique hp hold]

/-- Nothing but the children of a node lies in its container. -/
theorem Finished.object_of_cut (hx : x ∈ T'.nodes) (he : s'.At x e) :
    s'.SettledObject univ e (T'.children x) := by
  have hkept {y : ℤ} (hy : y ∈ T'.nodes) : y ∉ s.unattached s.detachments :=
    h.notMem_unattached (fun _ => id) hy
  have hwf := h.wellFormed
  have heOld := (hcut.at_iff.mp he).1
  have hobject := h.object hx heOld
  have heq : s'.objects e = s.objects e :=
    hcut.objects_eq (h.notMem_elements (fun _ => id) hx heOld)
  refine ⟨heq ▸ hobject.toHasChildren, fun {c} hc => ?_⟩
  rw [heq] at hc
  -- among the elements in the container, all others have been removed
  have hset : s'.dom.within (s'.elements univ) c =
      s'.dom.within (s.elements (T'.childrenOf T'.nodes)) c := by
    refine within_congr_set fun z hz => ⟨?_, ?_⟩
    · rintro ⟨y, -, hy⟩
      obtain ⟨hyOld, hygone⟩ := hcut.at_iff.mp hy
      rw [hcut.parent_eq fun hmem => hygone ((hwf.mem_elements hyOld).mp hmem)] at hz
      rcases h.inside hx heOld hc hyOld hz with hchild | ⟨hold, hnode⟩
      · exact ⟨y, mem_childrenOf_nodes hchild, hyOld⟩
      · exact absurd (h.mem_unattached.mpr ⟨hnode, x, hx, hold⟩) hygone
    · rintro ⟨y, ⟨x', -, hy⟩, hyOld⟩
      exact ⟨y, trivial, hcut.at_iff.mpr ⟨hyOld, hkept (T'.mem_nodes hy).2⟩⟩
  have hsame : s'.dom.within (s.elements (T'.childrenOf T'.nodes)) c =
      s.dom.within (s.elements (T'.childrenOf T'.nodes)) c := by
    refine hcut.within_eq ?_
    rintro z ⟨y, ⟨x', -, hy⟩, hyOld⟩
    exact h.notMem_elements (fun _ => id) (T'.mem_nodes hy).2 hyOld
  rw [hset, hsame, hobject.within_eq hc]
  refine map_congr_left fun y hy => ?_
  obtain ⟨z, hz⟩ := h.known_iff.mpr (.inr (.inr (T'.mem_nodes hy).2))
  rw [hz.element_eq, (hcut.at_iff.mpr ⟨hz, hkept (T'.mem_nodes hy).2⟩).element_eq]

/-- The new tree is shown when the update is over. -/
theorem Finished.shows (hroot : 0 ∈ T'.nodes) (hleft : ∀ x ∈ T.nodes, x ∉ left)
    (hreturn : ∀ x ∈ T'.nodes, x ∉ left) :
    { s' with detachments := [], attachments := fun _ => none }.Shows T'
      (left ∪ leftBehind T T') := by
  refine ⟨hcut.wellFormed.of_eq rfl rfl (fun _ => rfl) fun _ => rfl, fun {x} => ?_, ?_, ?_, ?_,
    fun _ => rfl, rfl, ?_⟩
  · have hknown : (∃ e, s'.At x e) ↔ _ := h.known_iff_of_cut hcut hroot hleft
    exact hknown
  · rintro x hx (hmem | ⟨-, -, -, -, hnode⟩)
    · exact hreturn x hx hmem
    · exact hnode hx
  · intro x e hx he
    exact (h.object_of_cut hcut hx he).of_eq rfl (fun _ _ => rfl) fun _ _ => rfl
  · intro x y e z hy he hz
    have hzOld := (hcut.at_iff.mp hz).1
    rw [hcut.objects_eq (h.notMem_elements (fun _ => id) (T'.mem_nodes hy).2 hzOld)]
    exact h.parent_eq hy (hcut.at_iff.mp he).1 hzOld
  · intro r q hr hq
    have hrOld := (hcut.at_iff.mp hr).1
    rw [hcut.parent_eq (h.notMem_elements (fun _ => id) hroot hrOld)] at hq
    exact h.root_parent hrOld hq

end

/-- The tree is shown, apart from what was left behind. -/
lemma Finished.finalizeTree (h : Finished T T' left s) (hroot : 0 ∈ T'.nodes)
    (hleft : ∀ x ∈ T.nodes, x ∉ left) (hreturn : ∀ x ∈ T'.nodes, x ∉ left) :
    Returns (fun s' => s'.Shows T' (left ∪ leftBehind T T')) s.finalizeTree := by
  have hinit : Reconciled s s.detachments s := by
    refine ⟨[], rfl, ?_⟩
    -- nothing has been cut before the loop
    have hnone : s.unattached [] = ∅ := by
      ext y
      simp [unattached]
    have helements : s.elements ∅ = ∅ := by
      ext e
      simp [elements]
    rw [hnone]
    constructor <;> simp [helements, h.wellFormed]
  rw [EngineSemanticsOwner.finalizeTree]
  refine (ensures_foldlM hinit fun e rest s' hs' => h.finalizeObject hs').bind ?_
  rintro s' ⟨front, hall, hcut⟩
  rw [List.append_nil] at hall
  rw [hall] at hcut
  exact h.shows hcut hroot hleft hreturn

/-- An update that describes a tree, and lists nodes before their descendants, is carried out. Nodes
that had been left behind must not come back. -/
theorem Shows.updateSemantics (h : start.Shows T left) (hdescribes : Describes T updates T')
    (hordered : Ordered updates T') (hreturn : ∀ x ∈ T'.nodes, x ∉ left) :
    Returns (fun s' => s'.Shows T' (left ∪ leftBehind T T')) (start.updateSemantics updates) := by
  rw [EngineSemanticsOwner.updateSemantics]
  refine ((h.midway hdescribes hreturn).foldlM_updateNode h hdescribes.updated
    hdescribes.nodup hordered).bind fun s₁ hs₁ => ?_
  refine ((hs₁.finished h hreturn hdescribes.root).insertRoot hdescribes.root).bind fun s₂ hs₂ => ?_
  refine (hs₂.finalizeTree hdescribes.root (fun _ hx => h.notMem_left hx) hreturn).bind
    fun s₃ hs₃ => ?_
  refine Ensures.assertion (fun hnot => hnot ?_) fun _ => hs₃
  obtain ⟨e, he⟩ := hs₃.known hdescribes.root
  rw [he]
  rfl

end EngineSemanticsOwner

end WebUi.Semantics
