import FlutterEngine.WebUi.Semantics.Midway

/-!
# Between two updates

When an update has been carried out, the objects of its tree have their children and nothing else in
their containers. This is what `Shows` says. Objects that have been left behind are still known, but
nothing is said about them.

An update starts in such a state, and nodes that it does not mention are settled from the beginning
(`Shows.midway`).
-/

namespace WebUi.Semantics

open Lib

variable {T T' : Tree} {left : Set ℤ} {updates : List SemanticsNodeUpdate}

namespace Tree

/-- The children of some nodes. -/
def childrenOf (T : Tree) (A : Set ℤ) : Set ℤ := {y | ∃ x ∈ A, y ∈ T.children x}

/-- The nodes that an update does not mention. -/
def unmentioned (T : Tree) (updates : List SemanticsNodeUpdate) : Set ℤ :=
  {x | x ∈ T.nodes ∧ x ∉ ids updates}

lemma mem_of_mem_childrenOf {A : Set ℤ} {x y : ℤ} (hy : y ∈ T.childrenOf A)
    (hx : y ∈ T.children x) : x ∈ A := by
  obtain ⟨x', hx', hy'⟩ := hy
  rwa [T.parent_unique hx hy']

end Tree

namespace EngineSemanticsOwner

variable {start s : EngineSemanticsOwner} {placed : Set ℤ} {e c : ℕ} {l : List ℤ} {x y : ℤ}

/-- What an update leaves. -/
structure Shows (s : EngineSemanticsOwner) (T : Tree) (left : Set ℤ) : Prop where
  wellFormed : s.WellFormed
  known_iff : ∀ {x}, (∃ e, s.At x e) ↔ x ∈ T.nodes ∨ x ∈ left
  notMem_left : ∀ {x}, x ∈ T.nodes → x ∉ left
  object : ∀ {x e}, x ∈ T.nodes → s.At x e → s.SettledObject Set.univ e (T.children x)
  parent_eq : ∀ {x y e z}, y ∈ T.children x → s.At x e → s.At y z → (s.objects z).parent = some e
  attachments_eq : ∀ y, s.attachments y = none
  detachments_eq : s.detachments = []
  root_parent : ∀ {r q}, s.At 0 r → s.dom.parent r = some q → q = glassPaneElement

lemma shows_init : init.Shows .empty ∅ where
  wellFormed := wellFormed_init
  known_iff := by
    intro x
    simp [At, init, LinkedMap.empty, Tree.empty]
  notMem_left h := nomatch h
  object h := nomatch h
  parent_eq h := nomatch h
  attachments_eq _ := rfl
  detachments_eq := rfl
  root_parent h := nomatch h

/-- All children of an object are of interest if its own are. -/
theorem SettledObject.restrict (h : s.SettledObject Set.univ e l)
    (hknown : ∀ y ∈ l, ∃ z, s.At y z) (hplaced : ∀ y ∈ l, y ∈ placed) :
    s.SettledObject placed e l where
  toHasChildren := h.toHasChildren
  within_eq {c} hc := by
    rw [← h.within_eq hc]
    refine Dom.within_congr_set fun z hz => ⟨fun ⟨y, _, hy⟩ => ⟨y, trivial, hy⟩, fun hmem => ?_⟩
    have hwithin : z ∈ s.dom.within (s.elements Set.univ) c := Dom.mem_within.mpr ⟨hz, hmem⟩
    rw [h.within_eq hc] at hwithin
    obtain ⟨y, hy, rfl⟩ := List.mem_map.mp hwithin
    obtain ⟨z, hz⟩ := hknown y hy
    exact ⟨y, hplaced y hy, hz.element_eq.symm ▸ hz⟩

section Start

variable (h : start.Shows T left) (hdescribes : Describes T updates T')
  (hreturn : ∀ x ∈ T'.nodes, x ∉ left)

include h

lemma Shows.known (hx : x ∈ T.nodes) : ∃ e, start.At x e := h.known_iff.mpr (.inl hx)

include hreturn

/-- A node of the next tree that is known is one of the last tree. -/
theorem Shows.mem_nodes (hx : x ∈ T'.nodes) (he : start.At x e) : x ∈ T.nodes :=
  (h.known_iff.mp ⟨e, he⟩).resolve_right (hreturn x hx)

include hdescribes

/-- The nodes that are not mentioned are settled, and the others are waiting. -/
theorem Shows.midway : Midway T T' start (T'.childrenOf (T'.unmentioned updates))
    (T'.unmentioned updates) {x | x ∈ ids updates} start := by
  have hkept {x : ℤ} (hx : x ∈ T'.unmentioned updates) : T'.children x = T.children x :=
    hdescribes.kept x hx.1 hx.2
  -- nothing has happened yet, so that the start is compared with itself
  refine ⟨h.wellFormed, ⟨id, .inl, le_rfl, fun _ => rfl, fun _ _ => rfl, fun hx hc => .inr ⟨hx, hc⟩,
    rfl⟩, ?_, ?_⟩
  · constructor
    · exact h.known
    · rintro y ⟨x, hx, hy⟩
      exact h.known (T.mem_nodes (hkept hx ▸ hy)).2
    · intro x y hplaced hy
      have hx := Tree.mem_of_mem_childrenOf hplaced hy
      exact h.known (T.mem_nodes (hkept hx ▸ hy)).1
    · exact fun hx hy => ⟨_, hx, hy⟩
    · intro x e hx he
      have hnode := h.mem_nodes hreturn hx.1 he
      rw [hkept hx]
      refine (h.object hnode he).restrict (fun y hy => ?_) fun y hy => ?_
      · exact h.known (T.mem_nodes hy).2
      · exact ⟨x, hx, hkept hx ▸ hy⟩
    · intro x e hx he
      obtain ⟨update, hupdate, rfl⟩ := List.mem_map.mp hx
      have hnode := h.mem_nodes hreturn (hdescribes.updated update hupdate).1 he
      exact ⟨(h.object hnode he).toHasChildren, fun hc => ⟨he, hc⟩⟩
    · intro x y e z hplaced hy he hz
      have hx := Tree.mem_of_mem_childrenOf hplaced hy
      exact h.parent_eq (hkept hx ▸ hy) he hz
    · exact .inl
    · exact fun hroot => h.known (hdescribes.root_known.resolve_right hroot.2)
  · constructor
    · intro y p hp
      rw [h.attachments_eq] at hp
      cases hp
    -- nodes that are not mentioned have no new children, and have lost none
    · intro x y p hplaced hy hnew
      have hx := Tree.mem_of_mem_childrenOf hplaced hy
      exact absurd (hkept hx ▸ hy) hnew
    · intro e he
      rw [h.detachments_eq] at he
      cases he
    · intro x y e hx hy hnot
      exact absurd (hkept hx ▸ hy) hnot

end Start

end EngineSemanticsOwner

end WebUi.Semantics
