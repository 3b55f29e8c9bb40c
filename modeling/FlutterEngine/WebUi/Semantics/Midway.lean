import FlutterEngine.WebUi.Semantics.Objects
import FlutterEngine.WebUi.Semantics.Tree

/-!
# In the middle of an update

An update makes a tree `T'` of a tree `T`. `Midway` says how far it has come: the nodes in `placed`
have found their parents, the nodes in `settled` have all their children, and the nodes in `waiting`
have not been looked at. At most one node is neither settled nor waiting.

Each step of `Objects` keeps this up: an object is created, an element is moved to its place or
already there, an object is detached, and the node that is being updated changes its own fields.
-/

namespace WebUi.Semantics

open Lib Function Dom List Option

/-- An object has children, and has had a container since it had any. -/
structure SemanticsObject.HasChildren (object : SemanticsObject) (l : List ℤ) : Prop where
  children_eq : object.children = l
  previous_eq : object.previousChildren = l
  container_eq_none : object.childContainerElement = none ↔ l = []

/-- A new object has no children. -/
lemma SemanticsObject.hasChildren_create (id : ℤ) : (SemanticsObject.create id).HasChildren [] :=
  ⟨rfl, rfl, by simp [SemanticsObject.create]⟩

lemma SemanticsObject.HasChildren.withParent {object : SemanticsObject} {l : List ℤ}
    (h : object.HasChildren l) (parent : Option ℕ) :
    { object with parent := parent }.HasChildren l :=
  ⟨h.children_eq, h.previous_eq, h.container_eq_none⟩

namespace EngineSemanticsOwner

variable {T T' : Tree} {placed settled waiting : Set ℤ} {start s s' : EngineSemanticsOwner}
  {id x y P : ℤ} {e c z : ℕ} {l : List ℤ}

/-- What has become of the elements that have not been placed since the start of the update. -/
structure Grown (start : EngineSemanticsOwner) (placed : Set ℤ) (s : EngineSemanticsOwner) :
    Prop where
  at_of_start : ∀ {id e}, start.At id e → s.At id e
  at_start_or : ∀ {id e}, s.At id e → start.At id e ∨ start.dom.size ≤ e
  size_le : start.dom.size ≤ s.dom.size
  within_eq : ∀ q, s.dom.within (s.elements placedᶜ) q = start.dom.within (s.elements placedᶜ) q
  parent_eq : ∀ {y z}, y ∉ placed → start.At y z → (s.objects z).parent = (start.objects z).parent
  container_or : ∀ {id e c}, s.At id e → (s.objects e).childContainerElement = some c →
    start.dom.size ≤ c ∨ start.At id e ∧ (start.objects e).childContainerElement = some c
  root_eq : s.rootSemanticsElement = start.rootSemanticsElement

/-- An object has its new children. -/
structure SettledObject (s : EngineSemanticsOwner) (placed : Set ℤ) (e : ℕ) (l : List ℤ) : Prop
    extends (s.objects e).HasChildren l where
  within_eq : ∀ {c}, (s.objects e).childContainerElement = some c →
    s.dom.within (s.elements placed) c = l.map s.element

/-- An object still has its old children. -/
structure WaitingObject (start s : EngineSemanticsOwner) (id : ℤ) (e : ℕ) (l : List ℤ) : Prop
    extends (s.objects e).HasChildren l where
  container_start : ∀ {c}, (s.objects e).childContainerElement = some c →
    start.At id e ∧ (start.objects e).childContainerElement = some c

/-- The objects of the tree. -/
structure Arranged (T T' : Tree) (start : EngineSemanticsOwner) (placed settled waiting : Set ℤ)
    (s : EngineSemanticsOwner) : Prop where
  known : ∀ {x}, x ∈ T.nodes → ∃ e, s.At x e
  placed_known : ∀ {y}, y ∈ placed → ∃ z, s.At y z
  parent_known : ∀ {x y}, y ∈ placed → y ∈ T'.children x → ∃ e, s.At x e
  mem_placed : ∀ {x y}, x ∈ settled → y ∈ T'.children x → y ∈ placed
  settled_object : ∀ {x e}, x ∈ settled → s.At x e → s.SettledObject placed e (T'.children x)
  waiting_object : ∀ {x e}, x ∈ waiting → s.At x e → WaitingObject start s x e (T.children x)
  parent_eq : ∀ {x y e z}, y ∈ placed → y ∈ T'.children x → s.At x e → s.At y z →
    (s.objects z).parent = some e
  origin : ∀ {x e}, s.At x e → start.At x e ∨ x ∈ T'.nodes
  root_known : 0 ∈ settled → ∃ e, s.At 0 e

/-- What is to be reconciled at the end. -/
structure Noted (T T' : Tree) (placed settled : Set ℤ) (s : EngineSemanticsOwner) : Prop where
  exists_parent : ∀ {y p}, s.attachments y = some p → y ∈ placed ∧ ∃ x, y ∈ T'.children x ∧ s.At x p
  attached : ∀ {x y p}, y ∈ placed → y ∈ T'.children x → y ∉ T.children x → s.At x p →
    s.attachments y = some p
  exists_former : ∀ {e}, e ∈ s.detachments →
    ∃ x y, x ∈ T'.nodes ∧ y ∈ T.children x ∧ y ∉ T'.children x ∧ s.At y e
  detached : ∀ {x y e}, x ∈ settled → y ∈ T.children x → y ∉ T'.children x → s.At y e →
    e ∈ s.detachments

/-- How far an update has come. -/
structure Midway (T T' : Tree) (start : EngineSemanticsOwner) (placed settled waiting : Set ℤ)
    (s : EngineSemanticsOwner) : Prop where
  wellFormed : s.WellFormed
  grown : Grown start placed s
  arranged : Arranged T T' start placed settled waiting s
  noted : Noted T T' placed settled s

/-! ## A new object -/

/-- What a settled object depends on. -/
lemma SettledObject.of_eq (h : s.SettledObject placed e l) (hobject : s'.objects e = s.objects e)
    (hwithin : ∀ c, (s.objects e).childContainerElement = some c →
      s'.dom.within (s'.elements placed) c = s.dom.within (s.elements placed) c)
    (helement : ∀ y ∈ l, s'.element y = s.element y) : s'.SettledObject placed e l where
  toHasChildren := hobject ▸ h.toHasChildren
  within_eq hc := by
    rw [hobject] at hc
    rw [hwithin _ hc, h.within_eq hc]
    exact map_congr_left fun y hy => (helement y hy).symm

/-- The elements of the children lie in the container. -/
theorem SettledObject.exists_container (h : s.SettledObject placed e l) (hy : y ∈ l)
    (hz : s.At y z) :
    ∃ c, (s.objects e).childContainerElement = some c ∧ s.dom.parent z = some c := by
  cases hc : (s.objects e).childContainerElement with
  | none => exact absurd hy (h.container_eq_none.mp hc ▸ not_mem_nil)
  | some c =>
    have hmem : z ∈ s.dom.within (s.elements placed) c := by
      rw [h.within_eq hc, ← hz.element_eq]
      exact mem_map_of_mem hy
    exact ⟨c, rfl, (mem_within.mp hmem).1⟩

/-- What a waiting object depends on. -/
lemma WaitingObject.of_eq (h : WaitingObject start s id e l)
    (hobject : s'.objects e = s.objects e) : WaitingObject start s' id e l :=
  ⟨hobject ▸ h.toHasChildren, hobject ▸ h.container_start⟩

lemma At.id_ne (hid : s.semanticsTree.get id = none) (hx : s.At x e) : x ≠ id := by
  rintro rfl
  rw [At, hid] at hx
  cases hx

/-- The objects that were there stay. -/
lemma at_createObject_of_at (hid : s.semanticsTree.get id = none) (hx : s.At x e) :
    (s.createObject id).At x e := by
  rw [at_createObject, if_neg (hx.id_ne hid)]
  exact hx

/-- The new element lies nowhere, so that it does not matter which sets it belongs to. -/
theorem within_createObject {d : Dom} (hsize : d.size ≤ s.dom.size)
    (hid : s.semanticsTree.get id = none) (A : Set ℤ) (q : ℕ) :
    d.within ((s.createObject id).elements A) q = d.within (s.elements A) q := by
  refine within_congr_set fun e he => ?_
  have hne : e ≠ s.dom.size := ne_of_lt (lt_of_lt_of_le (d.lt_size he).1 hsize)
  constructor
  · rintro ⟨id', hid', hat⟩
    rw [at_createObject] at hat
    split at hat
    · exact absurd hat hne
    · exact ⟨id', hid', hat⟩
  · rintro ⟨id', hid', hat⟩
    exact ⟨id', hid', at_createObject_of_at hid hat⟩

section CreateObject

variable (h : Midway T T' start placed settled waiting s) (hid : s.semanticsTree.get id = none)

include h hid

/-- A new object is added to those of before. -/
lemma Midway.grown_createObject : Grown start placed (s.createObject id) where
  at_of_start hx := at_createObject_of_at hid (h.grown.at_of_start hx)
  at_start_or hx := by
    rw [at_createObject] at hx
    split at hx
    · exact .inr (hx ▸ h.grown.size_le)
    · exact h.grown.at_start_or hx
  size_le := Nat.le_succ_of_le h.grown.size_le
  within_eq q := by
    have hcreated : (s.createObject id).dom.within ((s.createObject id).elements placedᶜ) q =
        s.dom.within ((s.createObject id).elements placedᶜ) q := rfl
    rw [hcreated, within_createObject le_rfl hid, within_createObject h.grown.size_le hid]
    exact h.grown.within_eq q
  parent_eq hy hz := by
    rw [createObject_objects_of_lt (h.wellFormed.lt_size (h.grown.at_of_start hz))]
    exact h.grown.parent_eq hy hz
  container_or hx hc := by
    rw [at_createObject] at hx
    split at hx
    · rw [hx, createObject_objects_self] at hc
      cases hc
    · rw [createObject_objects_of_lt (h.wellFormed.lt_size hx)] at hc
      exact h.grown.container_or hx hc
  root_eq := h.grown.root_eq

/-- A new object leaves the arrangement alone. -/
lemma Midway.arranged_createObject (hnode : id ∈ T'.nodes) :
    Arranged T T' start placed settled waiting (s.createObject id) where
  known hx := (h.arranged.known hx).imp fun e he => at_createObject_of_at hid he
  placed_known hy := (h.arranged.placed_known hy).imp fun z hz => at_createObject_of_at hid hz
  parent_known hy hx := (h.arranged.parent_known hy hx).imp fun e he => at_createObject_of_at hid he
  mem_placed := h.arranged.mem_placed
  settled_object {x e} hx he := by
    rw [at_createObject] at he
    split at he
    · next heq =>
      -- a settled node that is new has no children
      subst heq he
      have hnil : T'.children x = [] := by
        refine eq_nil_iff_forall_not_mem.mpr fun y hy => ?_
        obtain ⟨e, he⟩ := h.arranged.parent_known (h.arranged.mem_placed hx hy) hy
        exact he.id_ne hid rfl
      rw [hnil]
      refine ⟨createObject_objects_self ▸ SemanticsObject.hasChildren_create x, fun hc => ?_⟩
      rw [createObject_objects_self] at hc
      cases hc
    · refine (h.arranged.settled_object hx he).of_eq
        (createObject_objects_of_lt (h.wellFormed.lt_size he))
        (fun c _ => within_createObject le_rfl hid placed c) fun y hy => ?_
      obtain ⟨z, hz⟩ := h.arranged.placed_known (h.arranged.mem_placed hx hy)
      rw [hz.element_eq, (at_createObject_of_at hid hz).element_eq]
  waiting_object {x e} hx he := by
    rw [at_createObject] at he
    split at he
    · next heq =>
      subst heq he
      have hnil : T.children x = [] := by
        refine T.children_eq_nil fun hmem => ?_
        obtain ⟨e, he⟩ := h.arranged.known hmem
        exact he.id_ne hid rfl
      rw [hnil]
      refine ⟨createObject_objects_self ▸ SemanticsObject.hasChildren_create x, fun hc => ?_⟩
      rw [createObject_objects_self] at hc
      cases hc
    · exact (h.arranged.waiting_object hx he).of_eq
        (createObject_objects_of_lt (h.wellFormed.lt_size he))
  parent_eq hy hx he hz := by
    obtain ⟨e', he'⟩ := h.arranged.parent_known hy hx
    obtain ⟨z', hz'⟩ := h.arranged.placed_known hy
    rw [he.unique (at_createObject_of_at hid he'), hz.unique (at_createObject_of_at hid hz'),
      createObject_objects_of_lt (h.wellFormed.lt_size hz')]
    exact h.arranged.parent_eq hy hx he' hz'
  origin hx := by
    rw [at_createObject] at hx
    split at hx
    · next heq => exact .inr (heq ▸ hnode)
    · exact h.arranged.origin hx
  root_known hx := (h.arranged.root_known hx).imp fun e he => at_createObject_of_at hid he

/-- A new object is waiting midway. -/
lemma Midway.createObject (hnode : id ∈ T'.nodes) :
    Midway T T' start placed settled waiting (s.createObject id) where
  wellFormed := h.wellFormed.createObject hid
  grown := h.grown_createObject hid
  arranged := h.arranged_createObject hid hnode
  noted := {
    exists_parent := fun hp =>
      (h.noted.exists_parent hp).imp_right fun ⟨x, hx, he⟩ => ⟨x, hx, at_createObject_of_at hid he⟩
    attached := by
      intro x y p hy hx hnew he
      obtain ⟨e', he'⟩ := h.arranged.parent_known hy hx
      rw [he.unique (at_createObject_of_at hid he')]
      exact h.noted.attached hy hx hnew he'
    exists_former := by
      intro e he
      obtain ⟨x, y, hx, hy, hnot, hat⟩ := h.noted.exists_former he
      exact ⟨x, y, hx, hy, hnot, at_createObject_of_at hid hat⟩
    detached := by
      intro x y e hx hy hnot he
      obtain ⟨e', he'⟩ := h.arranged.known (T.mem_nodes hy).2
      rw [he.unique (at_createObject_of_at hid he')]
      exact h.noted.detached hx hy hnot he' }

end CreateObject

/-! ## The fields of the node that is being updated -/

/-- The node that is neither settled nor waiting may change its lists and its container, as long as
no element of an object moves. -/
theorem Midway.of_current (h : Midway T T' start placed settled waiting s) (he : s.At P e)
    (hsettled : P ∉ settled) (hwaiting : P ∉ waiting) (hwellFormed : s'.WellFormed)
    (htree : s'.semanticsTree = s.semanticsTree) (hattachments : s'.attachments = s.attachments)
    (hdetachments : s'.detachments = s.detachments)
    (hroot : s'.rootSemanticsElement = s.rootSemanticsElement)
    (hsize : s.dom.size ≤ s'.dom.size)
    (hwithin : ∀ A q, s'.dom.within (s.elements A) q = s.dom.within (s.elements A) q)
    (hobjects : ∀ e', e' ≠ e → s'.objects e' = s.objects e')
    (hparent : (s'.objects e).parent = (s.objects e).parent)
    (hcontainer : ∀ c, (s'.objects e).childContainerElement = some c →
      start.dom.size ≤ c ∨ (s.objects e).childContainerElement = some c) :
    Midway T T' start placed settled waiting s' := by
  have hat : ∀ id e, s'.At id e ↔ s.At id e := fun id e => by rw [At, At, htree]
  have helements : ∀ A, s'.elements A = s.elements A := fun A => by simp only [elements, hat]
  have helement : ∀ id, s'.element id = s.element id := fun id => by rw [element, element, htree]
  have hparents : ∀ e', (s'.objects e').parent = (s.objects e').parent := by
    intro e'
    by_cases heq : e' = e
    · rw [heq, hparent]
    · rw [hobjects e' heq]
  -- the objects that `settled` and `waiting` speak about are not the one that changes
  have hother : ∀ {x e'}, s.At x e' → x ∈ settled ∨ x ∈ waiting → s'.objects e' = s.objects e' := by
    intro x e' hx hmem
    refine hobjects e' ?_
    rintro rfl
    rw [h.wellFormed.at_inj hx he] at hmem
    exact hmem.elim hsettled hwaiting
  refine ⟨hwellFormed, ?_, ?_, ?_⟩
  · constructor
    · simp only [hat]
      exact h.grown.at_of_start
    · simp only [hat]
      exact h.grown.at_start_or
    · exact h.grown.size_le.trans hsize
    · simp only [helements, hwithin]
      exact h.grown.within_eq
    · simp only [hparents]
      exact h.grown.parent_eq
    · intro id e' c hid hc
      rw [hat] at hid
      by_cases heq : e' = e
      · rw [heq] at hc hid ⊢
        exact (hcontainer c hc).elim .inl (h.grown.container_or hid)
      · rw [hobjects e' heq] at hc
        exact h.grown.container_or hid hc
    · exact hroot.trans h.grown.root_eq
  · constructor
    · simp only [hat]
      exact h.arranged.known
    · simp only [hat]
      exact h.arranged.placed_known
    · simp only [hat]
      exact h.arranged.parent_known
    · exact h.arranged.mem_placed
    · intro x e' hx hat'
      rw [hat] at hat'
      refine (h.arranged.settled_object hx hat').of_eq (hother hat' (.inl hx)) ?_ fun y _ => ?_
      · intro c _
        rw [helements, hwithin]
      · exact helement y
    · intro x e' hx hat'
      rw [hat] at hat'
      exact (h.arranged.waiting_object hx hat').of_eq (hother hat' (.inr hx))
    · simp only [hat, hparents]
      exact h.arranged.parent_eq
    · simp only [hat]
      exact h.arranged.origin
    · simp only [hat]
      exact h.arranged.root_known
  · constructor
    · simp only [hat, hattachments]
      exact h.noted.exists_parent
    · simp only [hat, hattachments]
      exact h.noted.attached
    · simp only [hat, hdetachments]
      exact h.noted.exists_former
    · simp only [hat, hdetachments]
      exact h.noted.detached

/-! ## A child in its place -/

section Child

variable (h : Midway T T' start placed settled waiting s)

variable {ref : Option ℕ} {hlt : c < s.dom.size ∧ z < s.dom.size}

/-- An element placed elsewhere leaves an object settled. -/
lemma SettledObject.place {e' : ℕ} (h : s.SettledObject placed e' l)
    (hc : (s.objects e').childContainerElement ≠ some c) (hz : z ∉ s.elements placed)
    (hy : s.elements (insert y placed) = insert z (s.elements placed)) :
    (s.place e c z ref hlt).SettledObject (insert y placed) e' l where
  toHasChildren := by
    rw [place_objects]
    exact h.toHasChildren.withParent _
  within_eq {c'} hc' := by
    rw [place_objects] at hc'
    have hne : c' ≠ c := fun heq => hc (heq ▸ hc')
    have hmoved : (s.dom.moveTo c z ref hlt).within (insert z (s.elements placed)) c' =
        s.dom.within (s.elements placed) c' := within_moveTo_insert_of_ne hz hne
    exact ((congrArg (fun A => (s.dom.moveTo c z ref hlt).within A c') hy).trans hmoved).trans
      (h.within_eq hc')

/-- The elements with one more id. -/
lemma elements_insert (hz : s.At y z) :
    s.elements (insert y placed) = insert z (s.elements placed) := by
  ext e
  constructor
  · rintro ⟨id, rfl | hid, he⟩
    · exact .inl (he.unique hz)
    · exact .inr ⟨id, hid, he⟩
  · rintro (rfl | ⟨id, hid, he⟩)
    · exact ⟨y, .inl rfl, hz⟩
    · exact ⟨id, .inr hid, he⟩

/-- The other elements with one more id. -/
lemma elements_compl_insert_subset : s.elements (insert y placed)ᶜ ⊆ s.elements placedᶜ :=
  fun _ ⟨id, hid, he⟩ => ⟨id, fun hmem => hid (.inr hmem), he⟩

include h

/-- A child of the node that is being updated is moved into its container. -/
theorem Midway.place (hy : y ∈ T'.children P) (hplaced : y ∉ placed) (he : s.At P e) (hz : s.At y z)
    (hc : (s.objects e).childContainerElement = some c) :
    Midway T T' start (insert y placed) settled waiting (s.place e c z ref hlt) := by
  have hwf := h.wellFormed
  have hzplaced : z ∉ s.elements placed := fun hmem => hplaced ((hwf.mem_elements hz).mp hmem)
  have helements : s.elements (insert y placed) = insert z (s.elements placed) := elements_insert hz
  have hid : (s.objects z).id = y := hwf.id_eq hz
  have hattachments : (s.place e c z ref hlt).attachments =
      update s.attachments y (some e) := by rw [← hid]; rfl
  have hother : ∀ {x z'}, s.At x z' → x ≠ y → z' ≠ z := fun hx hne heq =>
    hne (hwf.at_inj hx (heq ▸ hz))
  refine ⟨hwf.place hz, ?_, ?_, ?_⟩
  · refine ⟨h.grown.at_of_start, h.grown.at_start_or, h.grown.size_le, fun q => ?_, ?_, ?_,
      h.grown.root_eq⟩
    · -- all others stay where they are
      have hznot : z ∉ s.elements (insert y placed)ᶜ :=
        fun hmem => (hwf.mem_elements hz).mp hmem (.inl rfl)
      have hmoved : (s.dom.moveTo c z ref hlt).within (s.elements (insert y placed)ᶜ) q =
          s.dom.within (s.elements (insert y placed)ᶜ) q := within_moveTo_of_notMem hznot
      exact hmoved.trans (within_congr elements_compl_insert_subset (h.grown.within_eq q))
    · intro y' z' hy' hz'
      obtain ⟨hne, hy'⟩ := not_or.mp hy'
      rw [place_objects]
      rw [if_neg (hother (h.grown.at_of_start hz') hne)]
      exact h.grown.parent_eq hy' hz'
    · intro id e' c' hid hc'
      rw [place_objects] at hc'
      exact h.grown.container_or hid hc'
  · refine ⟨h.arranged.known, ?_, ?_, fun hx hmem => .inr (h.arranged.mem_placed hx hmem), ?_, ?_,
      ?_, h.arranged.origin, h.arranged.root_known⟩
    · rintro y' (rfl | hy')
      · exact ⟨z, hz⟩
      · exact h.arranged.placed_known hy'
    · rintro x y' (rfl | hy') hx
      · exact ⟨e, T'.parent_unique hy hx ▸ he⟩
      · exact h.arranged.parent_known hy' hx
    -- the container is not that of a settled node, which would have this child already
    · intro x e' hx he'
      refine (h.arranged.settled_object hx he').place ?_ hzplaced helements
      intro hc'
      have heq : e' = e := hwf.container_inj he' he hc' hc
      have hxP : x = P := hwf.at_inj he' (heq ▸ he)
      exact hplaced (h.arranged.mem_placed hx (hxP ▸ hy))
    · intro x e' hx he'
      have hobject := h.arranged.waiting_object hx he'
      refine ⟨?_, ?_⟩ <;> rw [place_objects]
      · exact hobject.toHasChildren.withParent _
      · exact hobject.container_start
    -- the new child gets the node as its parent, the other children keep theirs
    · rintro x y' e' z' hy' hx he' hz'
      rw [place_objects]
      by_cases hne : y' = y
      · subst hne
        have hxP := T'.parent_unique hx hy
        subst hxP
        rw [if_pos (hz'.unique hz), he'.unique he]
      · rw [if_neg (hother hz' hne)]
        exact h.arranged.parent_eq (hy'.resolve_left hne) hx he' hz'
  · refine ⟨?_, ?_, h.noted.exists_former, h.noted.detached⟩ <;> rw [hattachments]
    · intro y' p hp
      by_cases hne : y' = y
      · rw [hne, update_self] at hp
        obtain rfl := some.inj hp
        exact ⟨.inl hne, P, hne ▸ hy, he⟩
      · rw [update_of_ne hne] at hp
        exact (h.noted.exists_parent hp).imp_left .inr
    · intro x y' p hy' hx hnew hp
      by_cases hne : y' = y
      · subst hne
        have hxP := T'.parent_unique hx hy
        subst hxP
        rw [update_self, hp.unique he]
      · rw [update_of_ne hne]
        exact h.noted.attached (hy'.resolve_left hne) hx hnew hp

/-- A child of the node that is being updated is in its container already. -/
theorem Midway.stay (hy : y ∈ T'.children P) (hold : y ∈ T.children P) (hplaced : y ∉ placed)
    (he : s.At P e) (hz : s.At y z) (hc : (s.objects e).childContainerElement = some c)
    (hparent : (s.objects z).parent = some e) (hdom : s.dom.parent z = some c) :
    Midway T T' start (insert y placed) settled waiting s := by
  have hwf := h.wellFormed
  refine ⟨hwf, ?_, ?_, ?_⟩
  · refine ⟨h.grown.at_of_start, h.grown.at_start_or, h.grown.size_le, fun q => ?_, ?_,
      h.grown.container_or, h.grown.root_eq⟩
    · exact within_congr elements_compl_insert_subset (h.grown.within_eq q)
    · exact fun hy' => h.grown.parent_eq (not_or.mp hy').2
  · refine ⟨h.arranged.known, ?_, ?_, fun hx hmem => .inr (h.arranged.mem_placed hx hmem), ?_,
      h.arranged.waiting_object, ?_, h.arranged.origin, h.arranged.root_known⟩
    · rintro y' (rfl | hy')
      · exact ⟨z, hz⟩
      · exact h.arranged.placed_known hy'
    · rintro x y' (rfl | hy') hx
      · exact ⟨e, T'.parent_unique hy hx ▸ he⟩
      · exact h.arranged.parent_known hy' hx
    · intro x e' hx he'
      have hobject := h.arranged.settled_object hx he'
      refine ⟨hobject.toHasChildren, ?_⟩
      intro c' hc'
      -- the child lies in the container of the node, so that no other container has it
      rw [elements_insert hz, within_insert_of_ne]
      · exact hobject.within_eq hc'
      · rw [hdom]
        intro hcc'
        obtain rfl := some.inj hcc'
        have hxP : x = P := hwf.at_inj he' (hwf.container_inj he he' hc hc' ▸ he)
        exact hplaced (h.arranged.mem_placed hx (hxP ▸ hy))
    · rintro x y' e' z' (rfl | hy') hx he' hz'
      · have hxP := T'.parent_unique hx hy
        subst hxP
        rw [hz'.unique hz, hparent, he.unique he']
      · exact h.arranged.parent_eq hy' hx he' hz'
  · refine ⟨fun hp => (h.noted.exists_parent hp).imp_left .inr, ?_, h.noted.exists_former,
      h.noted.detached⟩
    rintro x y' p (rfl | hy') hx hnew hp
    -- a child that stays was one before and need not be attached
    · exact absurd (T'.parent_unique hx hy ▸ hold) hnew
    · exact h.noted.attached hy' hx hnew hp

/-- A child that the node no longer has is detached. -/
theorem Midway.detach (hP : P ∈ T'.nodes) (hold : y ∈ T.children P) (hnew : y ∉ T'.children P)
    (hz : s.At y z) :
    Midway T T' start placed settled waiting { s with detachments := s.detachments ++ [z] } where
  wellFormed := h.wellFormed.of_eq rfl rfl (fun _ => rfl) fun _ => rfl
  grown := { h.grown with }
  arranged := { h.arranged with
    settled_object := fun hx he =>
      (h.arranged.settled_object hx he).of_eq rfl (fun _ _ => rfl) fun _ _ => rfl
    waiting_object := fun hx he => (h.arranged.waiting_object hx he).of_eq rfl }
  noted := { h.noted with
    exists_former := by
      intro e he
      rcases mem_append.mp he with hmem | hmem
      · exact h.noted.exists_former hmem
      · obtain rfl := mem_singleton.mp hmem
        exact ⟨P, y, hP, hold, hnew, hz⟩
    detached := fun hx hy hnot he => mem_append_left _ (h.noted.detached hx hy hnot he) }

/-- The node that is being updated has all its children. -/
theorem Midway.settle (he : s.At P e) (hobject : s.SettledObject placed e (T'.children P))
    (hplaced : ∀ y ∈ T'.children P, y ∈ placed)
    (hdetached : ∀ y ∈ T.children P, y ∉ T'.children P → ∀ z, s.At y z → z ∈ s.detachments) :
    Midway T T' start placed (insert P settled) waiting s where
  wellFormed := h.wellFormed
  grown := h.grown
  arranged := { h.arranged with
    mem_placed := by
      rintro x y (rfl | hx) hy
      · exact hplaced y hy
      · exact h.arranged.mem_placed hx hy
    settled_object := by
      rintro x e' (rfl | hx) he'
      · exact he'.unique he ▸ hobject
      · exact h.arranged.settled_object hx he'
    root_known := by
      rintro (hP | hmem)
      · exact ⟨e, hP ▸ he⟩
      · exact h.arranged.root_known hmem }
  noted := { h.noted with
    detached := by
      rintro x y e' (rfl | hx) hy hnot he'
      · exact hdetached y hy hnot e' he'
      · exact h.noted.detached hx hy hnot he' }

/-- The next node is no longer waiting. -/
theorem Midway.mono {waiting' : Set ℤ} (hsubset : waiting' ⊆ waiting) :
    Midway T T' start placed settled waiting' s :=
  ⟨h.wellFormed, h.grown, { h.arranged with
    waiting_object := fun hx => h.arranged.waiting_object (hsubset hx) }, h.noted⟩

end Child

/-- An element that has not been placed is where it was at the start. -/
theorem Midway.parent_start (h : Midway T T' start placed settled waiting s) (hy : y ∉ placed)
    (hz : s.At y z) {q : ℕ} (hq : s.dom.parent z = some q) :
    start.At y z ∧ start.dom.parent z = some q := by
  have hwithin : z ∈ s.dom.within (s.elements placedᶜ) q := mem_within.mpr ⟨hq, y, hy, hz⟩
  rw [h.grown.within_eq] at hwithin
  have hstart := (mem_within.mp hwithin).1
  refine ⟨(h.grown.at_start_or hz).resolve_right fun hle => ?_, hstart⟩
  exact absurd (start.dom.lt_size hstart).1 (not_lt.mpr hle)

/-! ## Above the node that is being updated -/

/-- A node with its parents, whose elements the browser finds above a container. -/
def upwards (T' : Tree) (P : ℤ) (s : EngineSemanticsOwner) : Set ℕ :=
  {q | q = glassPaneElement ∨ ∃ x r, Relation.ReflTransGen T'.IsParent x P ∧ s.At x r ∧
    (q = r ∨ (s.objects r).childContainerElement = some q)}

/-- An element of a child lies in the container of its parent. -/
theorem Midway.parent_of_settled (h : Midway T T' start placed settled waiting s)
    (hx : x ∈ settled) (hy : y ∈ T'.children x) (hz : s.At y z) :
    ∃ e c, s.At x e ∧ (s.objects e).childContainerElement = some c ∧ s.dom.parent z = some c := by
  have hplaced := h.arranged.mem_placed hx hy
  obtain ⟨e, he⟩ := h.arranged.parent_known hplaced hy
  obtain ⟨c, hc, hparent⟩ := (h.arranged.settled_object hx he).exists_container hy hz
  exact ⟨e, c, he, hc, hparent⟩

/-- Above the container of a node there are only its ancestors, so that a child may be put there. -/
theorem Midway.notMem_inclusiveAncestors (h : Midway T T' start placed settled waiting s)
    (hancestors : ∀ x, T'.Above x P → x ∈ settled)
    (hroot : ∀ r q, s.At 0 r → s.dom.parent r = some q → q = glassPaneElement)
    (hy : y ∈ T'.children P) (hz : s.At y z) (he : s.At P e)
    (hc : (s.objects e).childContainerElement = some c) (hP : P ∈ T'.nodes) :
    z ∉ s.dom.inclusiveAncestors s.dom.size c := by
  have hwf := h.wellFormed
  refine Dom.notMem_inclusiveAncestors (s := upwards T' P s) ?_ (.inr ⟨P, e, .refl, he, .inr hc⟩) ?_
  -- one step upwards, from the glass pane, from an element of an object or from a container
  · rintro q (rfl | ⟨x, r, hx, hr, rfl | hq⟩) q' hq'
    · rw [hwf.glassPane] at hq'
      cases hq'
    · by_cases hzero : x = 0
      · subst hzero
        exact .inl (hroot q q' hr hq')
      · -- the parent of `x` lies above the node, so that it is settled
        have hxnode : x ∈ T'.nodes := by
          rcases Relation.ReflTransGen.cases_head hx with rfl | ⟨x', hx', -⟩
          · exact hP
          · exact (T'.mem_nodes hx').1
        obtain ⟨p, hp⟩ := T'.exists_parent hxnode hzero
        have habove : T'.Above p P := Relation.TransGen.head' hp hx
        obtain ⟨e', c', he', hc', hparent⟩ := h.parent_of_settled (hancestors p habove) hp hr
        obtain rfl := some.inj (hparent.symm.trans hq')
        exact .inr ⟨p, e', habove.to_reflTransGen, he', .inr hc'⟩
    · obtain rfl := some.inj ((hwf.parent_container hr hq).symm.trans hq')
      exact .inr ⟨x, r, hx, hr, .inl rfl⟩
  -- the child is none of these: it does not lie above its parent in the tree
  · rintro (rfl | ⟨x, r, hx, hr, rfl | hq⟩)
    · exact absurd (hwf.two_le hz) (by decide)
    · exact T'.not_reflTransGen_parent hy (hwf.at_inj hr hz ▸ hx)
    · exact hwf.ne_container hz hr hq rfl

end EngineSemanticsOwner

end WebUi.Semantics
