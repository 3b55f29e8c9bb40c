import Mathlib.Data.List.Defs

/-!
# Readback detection

Layers with a save layer hide what their descendants do to `surface_needs_readback`. In the end it
tells exactly whether a backdrop filter is prerolled outside of all save layers (`prerollTree_iff`).
-/

namespace Flow.Readback

/-- Kinds of layers, where `R` are rectangles. A clip may leave nothing of a rectangle. -/
inductive Kind (R : Type)
  | container
  | transform (mapCullRect : R → R)
  | clip (intersect : R → Option R) (usesSaveLayer : Bool)
  | physicalShape (usesSaveLayer : Bool)
  | opacity
  | colorFilter
  | imageFilter
  | shaderMask
  | backdropFilter (filter : Bool)

/-- A layer; those that only paint themselves are containers without children here. -/
inductive Layer (R : Type)
  | mk (kind : Kind R) (children : List (Layer R))

variable {R : Type}

namespace Kind

/-- `save_layer_is_active` -/
@[simp]
def saveLayerIsActive : Kind R → Bool
  | container | transform _ => false
  | clip _ usesSaveLayer | physicalShape usesSaveLayer => usesSaveLayer
  | opacity | colorFilter | imageFilter | shaderMask | backdropFilter _ => true

/-- `layer_itself_performs_readback` -/
@[simp]
def itselfPerformsReadback : Kind R → Bool
  | backdropFilter filter => filter
  | _ => false

/-- The `cull_rect` of the children, unless they are outside of the clip. -/
@[simp]
def childCullRect (cullRect : R) : Kind R → Option R
  | clip intersect _ => intersect cullRect
  | transform mapCullRect => some (mapCullRect cullRect)
  | _ => some cullRect

end Kind

mutual

/-- `Preroll`: what becomes of `surface_needs_readback`. Every layer restores `cull_rect`. -/
def preroll (cullRect : R) (surfaceNeedsReadback : Bool) : Layer R → Bool
  | .mk kind children =>
    match kind.childCullRect cullRect with
    | none => surfaceNeedsReadback
    | some cullRect =>
      -- the constructor and the destructor of `AutoPrerollSaveLayerState`
      let active := kind.saveLayerIsActive
      let inside := prerollChildren cullRect (!active && surfaceNeedsReadback) children
      if active then surfaceNeedsReadback || kind.itselfPerformsReadback else inside

/-- `PrerollChildren` -/
def prerollChildren (cullRect : R) (surfaceNeedsReadback : Bool) : List (Layer R) → Bool
  | [] => surfaceNeedsReadback
  | child :: children =>
    prerollChildren cullRect (preroll cullRect surfaceNeedsReadback child) children

end

/-- `LayerTree::Preroll` -/
def prerollTree (giantRect : R) : Option (Layer R) → Bool
  | none => false
  | some root => preroll giantRect false root

/-- A backdrop filter is prerolled that has no ancestor with an active save layer. -/
inductive ReadsBack : R → Layer R → Prop
  | backdropFilter {cullRect children} : ReadsBack cullRect (.mk (.backdropFilter true) children)
  | child {cullRect cullRect' kind children child} : kind.saveLayerIsActive = false →
      kind.childCullRect cullRect = some cullRect' → child ∈ children →
      ReadsBack cullRect' child → ReadsBack cullRect (.mk kind children)

lemma readsBack_iff {cullRect : R} {kind : Kind R} {children : List (Layer R)} :
    ReadsBack cullRect (.mk kind children) ↔
      kind.itselfPerformsReadback = true ∨ kind.saveLayerIsActive = false ∧
        ∃ cullRect' ∈ kind.childCullRect cullRect,
          ∃ child ∈ children, ReadsBack cullRect' child := by
  constructor
  · rintro (_ | ⟨hactive, hcull, hmem, hchild⟩)
    · exact .inl rfl
    · exact .inr ⟨hactive, _, hcull, _, hmem, hchild⟩
  · rintro (hitself | ⟨hactive, _, hcull, _, hmem, hchild⟩)
    · cases kind <;> cases hitself
      exact .backdropFilter
    · exact .child hactive hcull hmem hchild

mutual

/-- A layer sets the flag if it reads back, and leaves it otherwise. -/
theorem preroll_eq_true (cullRect : R) (flag : Bool) : ∀ layer,
    preroll cullRect flag layer = true ↔ flag = true ∨ ReadsBack cullRect layer
  | .mk kind children => by
    have hchildren := fun cullRect flag => prerollChildren_eq_true cullRect flag children
    rw [preroll, readsBack_iff]
    cases kind with
    | clip intersect usesSaveLayer =>
      cases hclip : intersect cullRect <;> cases usesSaveLayer <;> simp [hclip, hchildren]
    | physicalShape usesSaveLayer => cases usesSaveLayer <;> simp [hchildren]
    | _ => simp [hchildren]

lemma prerollChildren_eq_true (cullRect : R) (flag : Bool) : ∀ children,
    prerollChildren cullRect flag children = true ↔
      flag = true ∨ ∃ child ∈ children, ReadsBack cullRect child
  | [] => by simp [prerollChildren]
  | child :: children => by
    rw [prerollChildren, prerollChildren_eq_true, preroll_eq_true]
    simp [or_assoc]

end

/-- For every layer tree, and whatever clips and transforms make of rectangles, a readback is
detected exactly if a backdrop filter needs one. -/
theorem prerollTree_iff (giantRect : R) (root : Option (Layer R)) :
    prerollTree giantRect root = true ↔ ∃ layer ∈ root, ReadsBack giantRect layer := by
  cases root with
  | none => simp [prerollTree]
  | some root => simp [prerollTree, preroll_eq_true]

end Flow.Readback
