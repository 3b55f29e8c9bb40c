import FlutterEngine.Lib.Rect
import FlutterEngine.Lib.Run

/-!
# Picture surfaces

`lib/web_ui/lib/src/engine/surface/picture.dart`: a picture surface paints its picture on a canvas,
as far as a rectangle reaches that is to contain what is visible of it, `_optimalLocalCullRect`. In
the next frame more of the picture may be visible, or less. As long as the rectangle is large enough
the picture is not painted again.

A surface is built, updated from a surface of the last frame, or retained, once in a frame; it is
discarded if it is not in the next frame, and may be revived later. Each time it is rendered its
`_exactLocalCullRect` has been computed anew, which is an argument of these actions here. A picture
is painted at once, or enqueued and painted at the end of the frame; which of them depends on the
canvases and is another argument. Numbers are those of an ordered field.
-/

namespace WebUi

open Lib

/-- `PersistedSurfaceState` -/
inductive PersistedSurfaceState where
  | created
  | active
  | pendingRetention
  | pendingUpdate
  | released
deriving DecidableEq, Repr

/-- A picture and what its `recordingCanvas` says about it. -/
structure EnginePicture (K : Type) where
  /-- The identity of the picture. -/
  id : ℕ
  /-- Whether it draws anything. -/
  didDraw : Bool
  /-- `computePaintBounds()` -/
  paintBounds : Rect K
deriving DecidableEq

/-- `PersistedPicture` -/
structure PersistedPicture (K : Type) where
  picture : EnginePicture K
  state : PersistedSurfaceState
  /-- `_exactLocalCullRect` -/
  exactLocalCullRect : Rect K
  /-- `_optimalLocalCullRect` -/
  optimalLocalCullRect : Option (Rect K)
  /-- The rectangle that `_canvas` was painted with. -/
  painted : Option (Rect K)
  /-- The last frame in which it was rendered. -/
  frame : ℕ

variable {K : Type} [Field K] [LinearOrder K]

/-- `Rect.zero` -/
def rectZero : Rect K := ⟨0, 0, 0, 0⟩

def rectContainsOther (rect other : Rect K) : Bool :=
  decide (rect.left ≤ other.left) && decide (rect.top ≤ other.top) &&
    decide (other.right ≤ rect.right) && decide (other.bottom ≤ rect.bottom)

/-- `kPredictedGrowthFactor` -/
def predictedGrowthFactor : K := 3

/-- The rectangle that is expected to be visible in the next frames. -/
def predictedCullRect (old exact : Rect K) : Rect K where
  left := old.left - predictedGrowthFactor * max (old.left - exact.left) 0
  top := old.top - predictedGrowthFactor * max (old.top - exact.top) 0
  right := old.right + predictedGrowthFactor * max (exact.right - old.right) 0
  bottom := old.bottom + predictedGrowthFactor * max (exact.bottom - old.bottom) 0

namespace PersistedPicture

/-- `_computeOptimalCullRect`: the rectangle, and whether it requires a repaint; `none` if the
assertion fails. If the surface is retained, `oldSurface` is the surface itself. -/
def computeOptimalCullRect (s : PersistedPicture K) (oldSurface : Option (PersistedPicture K)) :
    Option (Rect K × Bool) :=
  match oldSurface with
  | none => some (s.exactLocalCullRect, true)
  | some oldSurface =>
    -- there is nothing on the old canvas to be reused
    if !oldSurface.picture.didDraw then some (s.exactLocalCullRect, true)
    else
      match oldSurface.optimalLocalCullRect with
      | none => none
      | some old =>
        -- the picture is not visible
        if s.exactLocalCullRect = rectZero then some (rectZero, old ≠ rectZero)
        else if rectContainsOther old s.exactLocalCullRect then some (old, false)
        else
          let new := (predictedCullRect old s.exactLocalCullRect).intersect s.picture.paintBounds
          -- this surface's rectangle, not the one of the old surface
          some (new, s.optimalLocalCullRect ≠ some new)

end PersistedPicture

/-- The picture surfaces, the frame, and `_paintQueue`. -/
structure PictureSurfaces (K : Type) where
  surfaces : ℕ → Option (PersistedPicture K)
  frame : ℕ
  paintQueue : List ℕ

namespace PictureSurfaces

def init : PictureSurfaces K := ⟨fun _ => none, 1, []⟩

variable (s : PictureSurfaces K)

def put (id : ℕ) (surface : PersistedPicture K) : PictureSurfaces K :=
  { s with surfaces := Function.update s.surfaces id surface }

/-- `_applyPaint`, for a surface that has its new rectangle. -/
def applyPaint (id : ℕ) (surface : PersistedPicture K) (now : Bool) : PictureSurfaces K :=
  if !surface.picture.didDraw then s.put id surface
  else if now then s.put id { surface with painted := surface.optimalLocalCullRect }
  else { s.put id surface with paintQueue := s.paintQueue ++ [id] }

/-- A surface at the beginning of `build`, `update` or `retain`: it has not been rendered in this
frame yet, and its `_exactLocalCullRect` has been computed. -/
def prepare (id : ℕ) (state : PersistedSurfaceState) (exact : Rect K) :
    Option (PersistedPicture K) :=
  match s.surfaces id with
  | none => none
  | some surface =>
    if surface.state = state ∧ surface.frame < s.frame then
      some { surface with state := .active, exactLocalCullRect := exact, frame := s.frame }
    else none

def build (id : ℕ) (exact : Rect K) (now : Bool) : Option (PictureSurfaces K) := do
  let surface ← s.prepare id .created exact
  let (rect, _) ← surface.computeOptimalCullRect none
  some (s.applyPaint id { surface with optimalLocalCullRect := rect } now)

def update (id oldId : ℕ) (exact : Rect K) (now : Bool) : Option (PictureSurfaces K) := do
  let surface ← s.prepare id .created exact
  -- the old surface has not been rendered in this frame
  let oldSurface ← s.surfaces oldId
  guard (oldSurface.state = .active ∧ oldSurface.frame < s.frame)
  let (rect, requiresRepaint) ← surface.computeOptimalCullRect (some oldSurface)
  let s := s.put oldId { oldSurface with state := .released }
  let surface := { surface with optimalLocalCullRect := rect }
  if surface.picture = oldSurface.picture ∧ !requiresRepaint then
    -- the canvas is taken over
    some (s.put id { surface with painted := oldSurface.painted })
  else some (s.applyPaint id surface now)

def retain (id : ℕ) (exact : Rect K) (now : Bool) : Option (PictureSurfaces K) := do
  let surface ← s.prepare id .active exact
  let (rect, requiresRepaint) ← surface.computeOptimalCullRect (some surface)
  let surface := { surface with optimalLocalCullRect := rect }
  if requiresRepaint then some (s.applyPaint id surface now) else some (s.put id surface)

/-- Assign the state of a surface, if it has the given one. -/
def changeState (id : ℕ) (state newState : PersistedSurfaceState) : Option (PictureSurfaces K) :=
  match s.surfaces id with
  | none => none
  | some surface =>
    if surface.state = state then some (s.put id { surface with state := newState }) else none

/-- The paint callbacks, at the end of a frame. -/
def paint : PictureSurfaces K where
  surfaces id := (s.surfaces id).map fun surface =>
    if id ∈ s.paintQueue then { surface with painted := surface.optimalLocalCullRect } else surface
  frame := s.frame + 1
  paintQueue := []

inductive Action (K : Type) where
  /-- A new surface. -/
  | create (id : ℕ) (picture : EnginePicture K)
  | build (id : ℕ) (exact : Rect K) (now : Bool)
  | update (id oldId : ℕ) (exact : Rect K) (now : Bool)
  | retain (id : ℕ) (exact : Rect K) (now : Bool)
  | discard (id : ℕ)
  | revive (id : ℕ)
  | endFrame

def step : Action K → Option (PictureSurfaces K)
  | .create id picture =>
    match s.surfaces id with
    | none => some (s.put id ⟨picture, .created, rectZero, none, none, 0⟩)
    | some _ => none
  | .build id exact now => s.build id exact now
  | .update id oldId exact now => s.update id oldId exact now
  | .retain id exact now => s.retain id exact now
  | .discard id => s.changeState id .active .released
  | .revive id => s.changeState id .released .created
  | .endFrame => some s.paint

end PictureSurfaces

end WebUi
