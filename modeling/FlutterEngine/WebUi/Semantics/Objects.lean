import FlutterEngine.WebUi.Semantics

/-!
# Objects and their elements

`WellFormed` is what holds between any two steps of an update: the objects of the tree have
different elements, the container of an object lies in its element, and nothing but elements of
objects lies in a container. Each step is described by the state it leads to, like `place`, and
keeps the state well formed.
-/

namespace WebUi.Semantics.EngineSemanticsOwner

open Lib Dom Option Function

variable {s : EngineSemanticsOwner} {id id' : ℤ} {e e' x c : ℕ}

/-- The object with an id is known, and this is its element. -/
def At (s : EngineSemanticsOwner) (id : ℤ) (e : ℕ) : Prop := s.semanticsTree.get id = some e

/-- An id has one object. -/
lemma At.unique (h : s.At id e) (h' : s.At id e') : e = e' := some.inj (h.symm.trans h')

/-- The elements of some objects. -/
def elements (s : EngineSemanticsOwner) (A : Set ℤ) : Set ℕ := {e | ∃ id ∈ A, s.At id e}

/-- The element of an object. -/
def element (s : EngineSemanticsOwner) (id : ℤ) : ℕ := (s.semanticsTree.get id).getD 0

lemma At.element_eq (h : s.At id e) : s.element id = e := by rw [element, h, getD_some]

/-- What holds between any two steps. -/
structure WellFormed (s : EngineSemanticsOwner) : Prop where
  id_eq : ∀ {id e}, s.At id e → (s.objects e).id = id
  lt_size : ∀ {id e}, s.At id e → e < s.dom.size
  two_le : ∀ {id e}, s.At id e → 2 ≤ e
  two_le_container : ∀ {id e c}, s.At id e → (s.objects e).childContainerElement = some c → 2 ≤ c
  parent_container : ∀ {id e c}, s.At id e → (s.objects e).childContainerElement = some c →
    s.dom.parent c = some e
  ne_container : ∀ {id id' e e' c}, s.At id e → s.At id' e' →
    (s.objects e').childContainerElement = some c → e ≠ c
  exists_at : ∀ {id e c x}, s.At id e → (s.objects e).childContainerElement = some c →
    s.dom.parent x = some c → ∃ id', s.At id' x
  glassPane : s.dom.parent glassPaneElement = none
  sceneHost : s.dom.parent sceneHostElement = some glassPaneElement

namespace WellFormed

variable (h : s.WellFormed)

include h

/-- An object has one id. -/
lemma at_inj (he : s.At id e) (he' : s.At id' e) : id = id' := by rw [← h.id_eq he, h.id_eq he']

/-- Which elements belong to some ids. -/
lemma mem_elements {A : Set ℤ} (he : s.At id e) : e ∈ s.elements A ↔ id ∈ A := by
  constructor
  · rintro ⟨id', hid', he'⟩
    rwa [h.at_inj he he']
  · exact fun hid => ⟨id, hid, he⟩

/-- Different objects have different containers. -/
theorem container_inj (he : s.At id e) (he' : s.At id' e')
    (hc : (s.objects e).childContainerElement = some c)
    (hc' : (s.objects e').childContainerElement = some c) : e = e' :=
  some.inj ((h.parent_container he hc).symm.trans (h.parent_container he' hc'))

end WellFormed

/-- At first there are no objects. -/
lemma wellFormed_init : init.WellFormed where
  id_eq h := nomatch h
  lt_size h := nomatch h
  two_le h := nomatch h
  two_le_container h := nomatch h
  parent_container h := nomatch h
  ne_container h := nomatch h
  exists_at h := nomatch h
  glassPane := rfl
  sceneHost := rfl

/-! ## Fields of objects -/

variable {s' : EngineSemanticsOwner} {ref : Option ℕ}

/-- Two states with the same objects, elements and containers. -/
theorem WellFormed.congr (h : s.WellFormed) (hat : ∀ id e, s'.At id e ↔ s.At id e)
    (hsize : s'.dom.size = s.dom.size) (hparent : ∀ e, s'.dom.parent e = s.dom.parent e)
    (hid : ∀ e, (s'.objects e).id = (s.objects e).id)
    (hcontainer : ∀ e, (s'.objects e).childContainerElement = (s.objects e).childContainerElement) :
    s'.WellFormed := by
  constructor <;> simp only [hat, hsize, hparent, hid, hcontainer]
  · exact h.id_eq
  · exact h.lt_size
  · exact h.two_le
  · exact h.two_le_container
  · exact h.parent_container
  · exact h.ne_container
  · exact h.exists_at
  · exact h.glassPane
  · exact h.sceneHost

/-- What the form of the tree depends on. -/
lemma WellFormed.of_eq (h : s.WellFormed) (hdom : s'.dom = s.dom)
    (htree : s'.semanticsTree = s.semanticsTree) (hid : ∀ e, (s'.objects e).id = (s.objects e).id)
    (hcontainer : ∀ e, (s'.objects e).childContainerElement = (s.objects e).childContainerElement) :
    s'.WellFormed :=
  h.congr (fun id e => by rw [At, At, htree]) (by rw [hdom]) (fun e => by rw [hdom]) hid hcontainer

/-- Only one object is modified. -/
lemma modify_objects (f : SemanticsObject → SemanticsObject) :
    (s.modify e f).objects e' = if e' = e then f (s.objects e') else s.objects e' := by
  split
  · next he =>
    rw [he]
    exact update_self ..
  · next he => exact update_of_ne he ..

/-- Fields other than the id and the container. -/
theorem WellFormed.modify (h : s.WellFormed) {f : SemanticsObject → SemanticsObject}
    (hid : ∀ o, (f o).id = o.id)
    (hcontainer : ∀ o, (f o).childContainerElement = o.childContainerElement) :
    (s.modify e f).WellFormed := by
  refine h.of_eq rfl rfl (fun e' => ?_) fun e' => ?_
  · rw [modify_objects]
    split
    · exact hid _
    · rfl
  · rw [modify_objects]
    split
    · exact hcontainer _
    · rfl

/-! ## A new object -/

/-- Which objects there are after one is created. -/
lemma at_createObject :
    (s.createObject id).At id' e ↔ if id' = id then e = s.dom.size else s.At id' e := by
  rw [At, createObject]
  split
  · next heq => rw [heq, LinkedMap.get_insert_self, some_inj, eq_comm]
  · next hne => rw [LinkedMap.get_insert_of_ne hne, At]

lemma createObject_objects_of_lt (he : e < s.dom.size) :
    (s.createObject id).objects e = s.objects e :=
  update_of_ne (ne_of_lt he) ..

lemma createObject_objects_self :
    (s.createObject id).objects s.dom.size = SemanticsObject.create id :=
  update_self ..

/-- A new object has a new element. -/
lemma WellFormed.createObject (h : s.WellFormed) (hid : s.semanticsTree.get id = none) :
    (s.createObject id).WellFormed := by
  -- a container is older than the new element, and the new object has none
  have hold : ∀ {id' e c}, (s.createObject id).At id' e →
      ((s.createObject id).objects e).childContainerElement = some c →
      s.At id' e ∧ (s.objects e).childContainerElement = some c := by
    intro id' e c he hc
    rw [at_createObject] at he
    split at he
    · rw [he, createObject_objects_self] at hc
      cases hc
    · rw [createObject_objects_of_lt (h.lt_size he)] at hc
      exact ⟨he, hc⟩
  have hsize : 2 ≤ s.dom.size := Nat.succ_le_of_lt (s.dom.lt_size h.sceneHost).1
  constructor
  · intro id' e he
    rw [at_createObject] at he
    split at he
    · next heq => rw [he, createObject_objects_self, heq]; rfl
    · rw [createObject_objects_of_lt (h.lt_size he), h.id_eq he]
  · intro id' e he
    rw [at_createObject] at he
    split at he
    · rw [he]; exact Nat.lt_succ_self _
    · exact Nat.lt_succ_of_lt (h.lt_size he)
  · intro id' e he
    rw [at_createObject] at he
    split at he
    · rwa [he]
    · exact h.two_le he
  · intro id' e c he hc
    exact h.two_le_container (hold he hc).1 (hold he hc).2
  · intro id' e c he hc
    exact h.parent_container (hold he hc).1 (hold he hc).2
  · intro id' id'' e e' c he he' hc
    obtain ⟨hat, hcontainer⟩ := hold he' hc
    rw [at_createObject] at he
    split at he
    · rw [he]
      exact (ne_of_lt (s.dom.lt_size (h.parent_container hat hcontainer)).1).symm
    · exact h.ne_container he hat hcontainer
  · intro id' e c x he hc hx
    obtain ⟨id'', hid''⟩ := h.exists_at (hold he hc).1 (hold he hc).2 hx
    refine ⟨id'', at_createObject.mpr ?_⟩
    rw [if_neg]
    · exact hid''
    · rintro rfl
      rw [At, hid] at hid''
      cases hid''
  · exact h.glassPane
  · exact h.sceneHost

/-! ## A child in a container -/

/-- An element is moved into a container and its object attached. -/
def place (s : EngineSemanticsOwner) (e c x : ℕ) (ref : Option ℕ)
    (h : c < s.dom.size ∧ x < s.dom.size) : EngineSemanticsOwner :=
  { s with dom := s.dom.moveTo c x ref h }.attachObject e x

/-- Placing an element sets the parent of its object. -/
lemma place_objects {c i : ℕ} {h : c < s.dom.size ∧ x < s.dom.size} :
    (s.place e c x ref h).objects i =
      { s.objects i with parent := if i = x then some e else (s.objects i).parent } := by
  rw [place, attachObject, modify_objects]
  split <;> rfl

/-- Moving an element keeps the tree well formed. -/
lemma WellFormed.moveTo (h : s.WellFormed) {p : ℕ} {hlt : p < s.dom.size ∧ x < s.dom.size}
    (hx : s.At id x) :
    { s with dom := s.dom.moveTo p x ref hlt }.WellFormed where
  __ := h
  parent_container he hc := by
    rw [parent_moveTo_of_ne (h.ne_container hx he hc).symm]
    exact h.parent_container he hc
  exists_at {_ _ _ z} he hc hz := by
    by_cases hzx : z = x
    · exact ⟨id, hzx ▸ hx⟩
    · dsimp only at hz
      rw [parent_moveTo_of_ne hzx] at hz
      exact h.exists_at he hc hz
  glassPane := by
    have hne : glassPaneElement ≠ x := ne_of_lt (lt_of_lt_of_le (by decide) (h.two_le hx))
    rw [parent_moveTo_of_ne hne]
    exact h.glassPane
  sceneHost := by
    have hne : sceneHostElement ≠ x := ne_of_lt (lt_of_lt_of_le (by decide) (h.two_le hx))
    rw [parent_moveTo_of_ne hne]
    exact h.sceneHost

/-- Placing an element keeps the tree well formed. -/
lemma WellFormed.place (h : s.WellFormed) {hlt : c < s.dom.size ∧ x < s.dom.size} (hx : s.At id x) :
    (s.place e c x ref hlt).WellFormed := by
  have hmoved : { s with dom := s.dom.moveTo c x ref hlt }.WellFormed := h.moveTo hx
  refine hmoved.of_eq rfl rfl (fun e' => ?_) fun e' => ?_
  · rw [place_objects]
  · rw [place_objects]

/-! ## A container -/

/-- A new container in the element of an object. -/
def addContainer (s : EngineSemanticsOwner) (e : ℕ) (he : e < s.dom.size) : EngineSemanticsOwner :=
  { s with
    dom := s.dom.createElement.moveTo e s.dom.size none
      ⟨Nat.lt_succ_of_lt he, Nat.lt_succ_self _⟩ }.modify e
    ({ · with childContainerElement := some s.dom.size })

/-- A container is a new element inside of its object's. -/
lemma WellFormed.addContainer (h : s.WellFormed) (he : s.At id e) :
    (s.addContainer e (h.lt_size he)).WellFormed := by
  have hlt := h.lt_size he
  have hparent : ∀ {z}, z < s.dom.size →
      (s.addContainer e (h.lt_size he)).dom.parent z = s.dom.parent z :=
    fun hz => parent_moveTo_of_ne (d := s.dom.createElement)
      (h := ⟨Nat.lt_succ_of_lt hlt, Nat.lt_succ_self _⟩) (ne_of_lt hz)
  have hself : (s.addContainer e (h.lt_size he)).dom.parent s.dom.size = some e :=
    parent_moveTo_self (d := s.dom.createElement) (h := ⟨Nat.lt_succ_of_lt hlt, Nat.lt_succ_self _⟩)
  have hsceneHost := (s.dom.lt_size h.sceneHost).1
  -- a container is the new one, or an older one of another object
  have hcases : ∀ {e' c}, ((s.addContainer e (h.lt_size he)).objects e').childContainerElement =
      some c → e' = e ∧ c = s.dom.size ∨ (s.objects e').childContainerElement = some c := by
    intro e' c hc
    rw [EngineSemanticsOwner.addContainer, modify_objects] at hc
    split at hc
    · next heq => exact .inl ⟨heq, (some.inj hc).symm⟩
    · exact .inr hc
  constructor
  · intro id' e' he'
    rw [← h.id_eq he', EngineSemanticsOwner.addContainer, modify_objects]
    split <;> rfl
  · exact fun he' => Nat.lt_succ_of_lt (h.lt_size he')
  · exact h.two_le
  · intro id' e' c he' hc
    rcases hcases hc with ⟨-, rfl⟩ | hold
    · exact Nat.succ_le_of_lt hsceneHost
    · exact h.two_le_container he' hold
  · intro id' e' c he' hc
    rcases hcases hc with ⟨rfl, rfl⟩ | hold
    · exact hself
    · have hc' := h.parent_container he' hold
      rw [hparent (s.dom.lt_size hc').1, hc']
  · intro id' id'' e' e'' c he' he'' hc
    rcases hcases hc with ⟨-, rfl⟩ | hold
    · exact ne_of_lt (h.lt_size he')
    · exact h.ne_container he' he'' hold
  · intro id' e' c z he' hc hz
    by_cases hlt' : z < s.dom.size
    · rw [hparent hlt'] at hz
      rcases hcases hc with ⟨-, rfl⟩ | hold
      · exact absurd (s.dom.lt_size hz).2 (lt_irrefl _)
      · exact h.exists_at he' hold hz
    · -- the new container lies in an element of an object, and not in a container
      obtain rfl : z = s.dom.size :=
        le_antisymm (Nat.le_of_lt_succ (Dom.lt_size _ hz).1) (not_lt.mp hlt')
      rw [hself] at hz
      obtain rfl := some.inj hz
      rcases hcases hc with ⟨-, heq⟩ | hold
      · exact absurd heq (ne_of_lt hlt)
      · exact absurd rfl (h.ne_container he he' hold)
  · rw [hparent (lt_trans (by decide) hsceneHost)]
    exact h.glassPane
  · rw [hparent hsceneHost]
    exact h.sceneHost

/-- The container of an object is removed. -/
def removeContainer (s : EngineSemanticsOwner) (e c : ℕ) : EngineSemanticsOwner :=
  { s with dom := s.dom.remove c }.modify e ({ · with childContainerElement := none })

/-- An element is taken out of the document. It is not the container of an object anymore, and the
objects with other elements are kept. -/
theorem WellFormed.remove (h : s.WellFormed) (hx : 2 ≤ x) (hdom : s'.dom = s.dom.remove x)
    (hat : ∀ {id e}, s'.At id e → s.At id e) (hid : ∀ e, (s'.objects e).id = (s.objects e).id)
    (hcontainer : ∀ {id e c}, s'.At id e → (s'.objects e).childContainerElement = some c →
      (s.objects e).childContainerElement = some c ∧ c ≠ x)
    (hkept : ∀ {id e}, s.At id e → e ≠ x → s'.At id e) : s'.WellFormed := by
  have hparent : ∀ {z}, z ≠ x → s'.dom.parent z = s.dom.parent z := by
    rw [hdom]
    exact parent_remove_of_ne
  constructor
  · exact fun {_ e} he => (hid e).trans (h.id_eq (hat he))
  · intro id e he
    rw [hdom]
    exact h.lt_size (hat he)
  · exact fun he => h.two_le (hat he)
  · exact fun he hc => h.two_le_container (hat he) (hcontainer he hc).1
  · intro id e c he hc
    obtain ⟨hold, hne⟩ := hcontainer he hc
    rw [hparent hne]
    exact h.parent_container (hat he) hold
  · exact fun he he' hc => h.ne_container (hat he) (hat he') (hcontainer he' hc).1
  · intro id e c z he hc hz
    have hne : z ≠ x := by
      rintro rfl
      rw [hdom, parent_remove_self] at hz
      cases hz
    rw [hparent hne] at hz
    obtain ⟨id', hid'⟩ := h.exists_at (hat he) (hcontainer he hc).1 hz
    exact ⟨id', hkept hid' hne⟩
  · rw [hparent (ne_of_lt (lt_of_lt_of_le (by decide) hx))]
    exact h.glassPane
  · rw [hparent (ne_of_lt (lt_of_lt_of_le (by decide) hx))]
    exact h.sceneHost

/-- Without its container a tree is still well formed. -/
lemma WellFormed.removeContainer (h : s.WellFormed) (he : s.At id e)
    (hc : (s.objects e).childContainerElement = some c) : (s.removeContainer e c).WellFormed := by
  refine h.remove (h.two_le_container he hc) rfl (fun he' => he') (fun e' => ?_)
    (fun {id' e' c'} he' hc' => ?_) fun he' _ => he'
  · rw [EngineSemanticsOwner.removeContainer, modify_objects]
    split <;> rfl
  · rw [EngineSemanticsOwner.removeContainer, modify_objects] at hc'
    split at hc'
    · cases hc'
    · next hne =>
      refine ⟨hc', ?_⟩
      rintro rfl
      exact hne (h.container_inj he' he hc' hc)

/-! ## An object that is removed -/

/-- An object is removed permanently. -/
def removeObject (s : EngineSemanticsOwner) (id : ℤ) (e : ℕ) : EngineSemanticsOwner :=
  { s.modify e ({ · with parent := none }) with
    semanticsTree := s.semanticsTree.erase id
    dom := s.dom.remove e }

/-- Which objects there are after one is removed. -/
lemma at_removeObject : (s.removeObject id e).At id' e' ↔ id' ≠ id ∧ s.At id' e' := by
  rw [At, removeObject, At]
  by_cases hne : id' = id
  · simp [hne]
  · simp [hne]

/-- An object that is removed has no parent. -/
lemma removeObject_objects : (s.removeObject id e).objects e' =
    { s.objects e' with parent := if e' = e then none else (s.objects e').parent } := by
  rw [removeObject]
  rw [modify_objects]
  split <;> rfl

/-- Without one object a tree is still well formed. -/
lemma WellFormed.removeObject (h : s.WellFormed) (he : s.At id e) :
    (s.removeObject id e).WellFormed := by
  refine h.remove (h.two_le he) rfl (fun he' => (at_removeObject.mp he').2) (fun e' => ?_)
    (fun {id' e' c'} he' hc' => ?_) fun {id' e'} he' hne => at_removeObject.mpr ⟨?_, he'⟩
  · rw [removeObject_objects]
  · rw [removeObject_objects] at hc'
    exact ⟨hc', (h.ne_container he (at_removeObject.mp he').2 hc').symm⟩
  · rintro rfl
    exact hne (he'.unique he)

end WebUi.Semantics.EngineSemanticsOwner
