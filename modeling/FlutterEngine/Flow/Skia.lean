import FlutterEngine.Lib.Affine
import Mathlib.Algebra.Order.Floor.Ring

/-!
# Rectangles, matrices and pictures of Skia

What the layers use of Skia. The scalars form an ordered field with a floor instead of the floating
point numbers, so arithmetic is exact. Rounded rectangles and paths are given by their bounds and
the points inside (`Shape`). What Skia does with perspective, whether a surface can be made and
whether a matrix can be decomposed is left open (`Skia`).
-/

namespace Flow

open Lib

variable {K : Type*}

/-- The conversion of a scalar to an integer. -/
def truncToInt [Field K] [LinearOrder K] [FloorRing K] (x : K) : ℤ := if 0 ≤ x then ⌊x⌋ else ⌈x⌉

/-! ## Rectangles -/

/-- `SkRect` -/
abbrev SkRect (K : Type*) := Rect K

/-- `SkIRect` -/
abbrev SkIRect := Rect ℤ

namespace SkRect

section Order

variable [LinearOrder K]

/-- `isEmpty` -/
def isEmpty (r : SkRect K) : Bool := !(decide (r.left < r.right) && decide (r.top < r.bottom))

end Order

section Field

variable [Field K]

/-- `makeOffset` -/
def makeOffset (r : SkRect K) (v : K × K) : SkRect K :=
  ⟨r.left + v.1, r.top + v.2, r.right + v.1, r.bottom + v.2⟩

/-- `MakeXYWH` -/
def makeXYWH (position size : K × K) : SkRect K :=
  ⟨position.1, position.2, position.1 + size.1, position.2 + size.2⟩

/-- `roundOut` -/
def roundOut [LinearOrder K] [FloorRing K] (r : SkRect K) : SkIRect :=
  ⟨⌊r.left⌋, ⌊r.top⌋, ⌈r.right⌉, ⌈r.bottom⌉⟩

end Field

end SkRect

/-! ## Shapes and pictures -/

/-- A figure: bounds, and the points inside -/
structure Shape (K : Type*) [LinearOrder K] where
  bounds : SkRect K
  region : Set (K × K)
  region_subset : region ⊆ Rect.interior bounds

/-- `SkPath` -/
abbrev SkPath (K : Type*) [LinearOrder K] := Shape K

/-- `SkRRect`, with the radii of its corners -/
structure SkRRect (K : Type*) [LinearOrder K] extends Shape K where
  upperLeft : K × K
  upperRight : K × K
  lowerRight : K × K
  lowerLeft : K × K

/-- `SkPicture` -/
structure Picture (K : Type*) where
  uniqueId : ℕ
  cullRect : SkRect K
  /-- The coordinates of `cullRect` are finite. -/
  cullRectIsFinite : Bool
  approximateOpCount : ℕ
deriving DecidableEq, Repr

/-! ## Matrices -/

/-- `SkMatrix` -/
abbrev SkMatrix (K : Type*) := Matrix3 K

namespace SkMatrix

variable [Field K]

/-- `MakeTrans` -/
def makeTrans (v : K × K) : SkMatrix K := Matrix3.translation v

/-- `postTranslate` -/
def postTranslate (m : SkMatrix K) (v : K × K) : SkMatrix K := makeTrans v * m

/-- `translate` of a canvas with this matrix -/
def preTranslate (m : SkMatrix K) (v : K × K) : SkMatrix K := m * makeTrans v

/-- `hasPerspective` -/
def hasPerspective [DecidableEq K] (m : SkMatrix K) : Bool :=
  !(decide (m.p = 0) && decide (m.q = 0) && decide (m.w = 1))

end SkMatrix

/-- What is left open of Skia and of the computation of matrix decompositions. -/
structure Skia (K : Type*) where
  /-- `mapRect` of a matrix with perspective -/
  mapRectPerspective : SkMatrix K → SkRect K → SkRect K
  /-- A surface of this width and height can be made. -/
  makesSurface : ℤ → ℤ → Bool
  /-- `MatrixDecomposition::IsValid` -/
  isDecomposable : SkMatrix K → Bool

namespace Skia

variable [Field K] [LinearOrder K] (skia : Skia K)

/-- `SkMatrix::mapRect` -/
def mapRect (m : SkMatrix K) (r : SkRect K) : SkRect K :=
  if m.hasPerspective then skia.mapRectPerspective m r else r.image m.apply

end Skia

end Flow
