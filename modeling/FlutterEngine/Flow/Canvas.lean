import FlutterEngine.Flow.Skia

/-!
# What is drawn on a canvas

A canvas is known by what has been drawn on it: each `Draw` has the matrix of the canvas at that
time and, from the outside to the inside, the clips and layers that were open. What was open is
added when it is closed (`Draw.within`), so saving and restoring a canvas need no state.
-/

namespace Flow

open Lib

variable {K : Type*} [LinearOrder K]

/-- What is drawn by one call of the canvas. -/
inductive Content (K : Type*) [LinearOrder K] where
  /-- `drawPicture` -/
  | picture (picture : Picture K)
  /-- `SkShadowUtils::DrawShadow`, with the bounds of the shadow -/
  | shadow (path : Shape K) (shadowColor : ℕ) (elevation : K) (transparentOccluder : Bool) (dpr : K)
      (bounds : SkRect K)
  /-- `drawPath` -/
  | path (path : Shape K) (color : ℕ)
  /-- `drawPaint` -/
  | paint (color : ℕ)
  /-- `CompositeEmbeddedView`: what follows is drawn on the canvas in front of the view. -/
  | platformView (viewId : ℤ) (bounds : SkRect K)
  /-- What a leaf draws that is neither a picture nor a platform view. -/
  | leaf (uniqueId : ℕ) (bounds : SkRect K)

/-- Something that is open while a canvas is drawn on. -/
inductive Scope (K : Type*) [LinearOrder K] where
  /-- A clip, with the matrix under which it was set. -/
  | clip (matrix : SkMatrix K) (shape : Shape K) (antiAlias : Bool)
  /-- `saveLayer`, with the matrix under which it was called, and the alpha of its paint, if any -/
  | saveLayer (matrix : SkMatrix K) (bounds : SkRect K) (alpha : Option ℕ)
  /-- `drawImage`: where the image is, and the alpha of its paint, if any -/
  | image (bounds : SkRect K) (alpha : Option ℕ)

/-- What is drawn, with the matrix of the canvas and what is open, the outermost first. -/
structure Draw (K : Type*) [LinearOrder K] where
  content : Content K
  matrix : SkMatrix K
  scopes : List (Scope K)

/-- Something was drawn while this was open. -/
def Draw.within (scope : Scope K) (draw : Draw K) : Draw K :=
  { draw with scopes := scope :: draw.scopes }

/-! ## Moving -/

variable [Field K]

/-- What was drawn in an image, seen from a canvas on which the image is drawn. -/
def Scope.moved (offset : K × K) : Scope K → Scope K
  | .clip matrix shape antiAlias => .clip (matrix.postTranslate offset) shape antiAlias
  | .saveLayer matrix bounds alpha => .saveLayer (matrix.postTranslate offset) bounds alpha
  | .image bounds alpha => .image (bounds.makeOffset offset) alpha

def Draw.moved (offset : K × K) (draw : Draw K) : Draw K :=
  ⟨draw.content, draw.matrix.postTranslate offset, draw.scopes.map (·.moved offset)⟩

end Flow
