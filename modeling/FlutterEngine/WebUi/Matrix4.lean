import FlutterEngine.Lib.Rect
import Mathlib.Tactic.FieldSimp

/-!
# Matrices of the web engine

The operations of `Matrix4` that surfaces and canvases use, and `transformRect`. The entry in row
`i` and column `j` is `storage[4 * j + i]`. The scalars form an ordered field instead of the
floating point numbers, so arithmetic is exact; `math.cos` and `math.sin` are parameters.

* `Affine` maps have matrices (`toMatrix4`) and inverses.
* Each operation is described by the map that the matrix represents (`represents_translate` etc.).
-/

namespace WebUi

open Lib Matrix

variable {K : Type*} [Field K]

/-- `math.cos` and `math.sin` -/
structure Trigonometry (K : Type*) [Field K] where
  cos : K → K
  sin : K → K
  cos_zero : cos 0 = 1
  sin_zero : sin 0 = 0

abbrev Matrix4 (K : Type*) := Matrix (Fin 4) (Fin 4) K

namespace Matrix4

variable (m : Matrix4 K)

/-- `translate`, with the default `z` -/
def translate (x y : K) : Matrix4 K :=
  m.updateCol 3 fun i => m i 0 * x + m i 1 * y + m i 2 * 0 + m i 3 * 1

/-- `scale`, where `z` defaults to `x` -/
def scale (x y : K) : Matrix4 K := of fun i j => m i j * ![x, y, x, 1] j

/-- `rotateZ` -/
def rotateZ (trig : Trigonometry K) (angle : K) : Matrix4 K :=
  (m.updateCol 0 fun i => m i 0 * trig.cos angle + m i 1 * trig.sin angle).updateCol 1
    fun i => m i 0 * -trig.sin angle + m i 1 * trig.cos angle

/-- `isIdentity` -/
def isIdentity [DecidableEq K] : Bool := decide (m = 1)

/-- `Matrix4.translationValues`, with `z` set to zero -/
def translationValues (x y : K) : Matrix4 K := !![1, 0, 0, x; 0, 1, 0, y; 0, 0, 1, 0; 0, 0, 0, 1]

/-- The first two entries of `transform3`, for a point of the plane. -/
def transform3 (p : K × K) : K × K :=
  (m 0 0 * p.1 + m 0 1 * p.2 + m 0 2 * 0 + m 0 3, m 1 0 * p.1 + m 1 1 * p.2 + m 1 2 * 0 + m 1 3)

/-- `transformLTRB` -/
def transformLTRB [LinearOrder K] (left top right bottom : K) : Rect K :=
  -- `multiplyTranspose` on the matrix whose rows are the corners
  let pointData := !![left, top, 0, 1; right, top, 0, 1; left, bottom, 0, 1; right, bottom, 0, 1] *
    m.transpose
  ⟨min (min (min (pointData 0 0) (pointData 1 0)) (pointData 2 0)) (pointData 3 0),
    min (min (min (pointData 0 1) (pointData 1 1)) (pointData 2 1)) (pointData 3 1),
    max (max (max (pointData 0 0) (pointData 1 0)) (pointData 2 0)) (pointData 3 0),
    max (max (max (pointData 0 1) (pointData 1 1)) (pointData 2 1)) (pointData 3 1)⟩

/-- `transformRect` -/
def transformRect [LinearOrder K] (rect : Rect K) : Rect K :=
  m.transformLTRB rect.left rect.top rect.right rect.bottom

/-- `tryInvert`, with `copyInverse` -/
def tryInvert [DecidableEq K] : Option (Matrix4 K) :=
  let a00 := m 0 0
  let a01 := m 1 0
  let a02 := m 2 0
  let a03 := m 3 0
  let a10 := m 0 1
  let a11 := m 1 1
  let a12 := m 2 1
  let a13 := m 3 1
  let a20 := m 0 2
  let a21 := m 1 2
  let a22 := m 2 2
  let a23 := m 3 2
  let a30 := m 0 3
  let a31 := m 1 3
  let a32 := m 2 3
  let a33 := m 3 3
  let b00 := a00 * a11 - a01 * a10
  let b01 := a00 * a12 - a02 * a10
  let b02 := a00 * a13 - a03 * a10
  let b03 := a01 * a12 - a02 * a11
  let b04 := a01 * a13 - a03 * a11
  let b05 := a02 * a13 - a03 * a12
  let b06 := a20 * a31 - a21 * a30
  let b07 := a20 * a32 - a22 * a30
  let b08 := a20 * a33 - a23 * a30
  let b09 := a21 * a32 - a22 * a31
  let b10 := a21 * a33 - a23 * a31
  let b11 := a22 * a33 - a23 * a32
  let det := b00 * b11 - b01 * b10 + b02 * b09 + b03 * b08 - b04 * b07 + b05 * b06
  if det = 0 then
    none
  else
    let invDet := 1 / det
    some !![
      (a11 * b11 - a12 * b10 + a13 * b09) * invDet, (-a10 * b11 + a12 * b08 - a13 * b07) * invDet,
      (a10 * b10 - a11 * b08 + a13 * b06) * invDet, (-a10 * b09 + a11 * b07 - a12 * b06) * invDet;
      (-a01 * b11 + a02 * b10 - a03 * b09) * invDet, (a00 * b11 - a02 * b08 + a03 * b07) * invDet,
      (-a00 * b10 + a01 * b08 - a03 * b06) * invDet, (a00 * b09 - a01 * b07 + a02 * b06) * invDet;
      (a31 * b05 - a32 * b04 + a33 * b03) * invDet, (-a30 * b05 + a32 * b02 - a33 * b01) * invDet,
      (a30 * b04 - a31 * b02 + a33 * b00) * invDet, (-a30 * b03 + a31 * b01 - a32 * b00) * invDet;
      (-a21 * b05 + a22 * b04 - a23 * b03) * invDet, (a20 * b05 - a22 * b02 + a23 * b01) * invDet,
      (-a20 * b04 + a21 * b02 - a23 * b00) * invDet, (a20 * b03 - a21 * b01 + a22 * b00) * invDet]

end Matrix4

/-- A 2-D affine matrix, with the entries in the order of their storage. -/
structure Affine (K : Type*) where
  a : K
  b : K
  c : K
  d : K
  e : K
  f : K

namespace Affine

variable (t : Affine K)

def toMatrix4 : Matrix4 K := !![t.a, t.c, 0, t.e; t.b, t.d, 0, t.f; 0, 0, 1, 0; 0, 0, 0, 1]

def apply (p : K × K) : K × K := (t.a * p.1 + t.c * p.2 + t.e, t.b * p.1 + t.d * p.2 + t.f)

def det : K := t.a * t.d - t.b * t.c

def inverse : Affine K :=
  ⟨t.d / t.det, -t.b / t.det, -t.c / t.det, t.a / t.det, (t.c * t.f - t.d * t.e) / t.det,
    (t.b * t.e - t.a * t.f) / t.det⟩

end Affine

open WebUi.Affine

/-! ## Operations that do nothing -/

namespace Matrix4

variable (m : Matrix4 K)

/-- A translation by nothing. -/
lemma translate_zero : translate m 0 0 = m := by
  have hcol : (fun i => m i 0 * 0 + m i 1 * 0 + m i 2 * 0 + m i 3 * 1) = fun i => m i 3 := by
    funext i
    ring
  rw [translate, hcol, updateCol_eq_self]

/-- A scaling by one. -/
lemma scale_one : scale m 1 1 = m := by
  ext i j
  fin_cases j <;> simp [scale]

/-- A rotation by nothing. -/
lemma rotateZ_zero (trig : Trigonometry K) : rotateZ m trig 0 = m := by
  ext i j
  fin_cases j <;> simp [rotateZ, trig.cos_zero, trig.sin_zero]

end Matrix4

open Matrix4

/-! ## What the operations represent -/

section Represents

variable {m : Matrix4 K} {f : K × K → K × K}

/-- The matrix of an affine map represents it. -/
lemma represents_toMatrix4 (t : Affine K) : Represents t.toMatrix4 t.apply := by
  intro p
  ext i
  rw [mulVec_homogeneous]
  fin_cases i <;> simp [toMatrix4, apply, homogeneous]

/-- `translate` composes with a translation. -/
lemma represents_translate (hf : Represents m f) (x y : K) :
    Represents (translate m x y) (f ∘ fun p => (p.1 + x, p.2 + y)) := by
  refine hf.comp fun p => funext fun i => ?_
  rw [mulVec_homogeneous, mulVec_homogeneous, Matrix4.translate, updateCol_self,
    updateCol_ne (by decide), updateCol_ne (by decide)]
  ring

/-- `scale` composes with a scaling. -/
lemma represents_scale (hf : Represents m f) (x y : K) :
    Represents (scale m x y) (f ∘ fun p => (x * p.1, y * p.2)) := by
  refine hf.comp fun p => funext fun i => ?_
  rw [mulVec_homogeneous, mulVec_homogeneous]
  change m i 0 * x * p.1 + m i 1 * y * p.2 + m i 3 * 1 = _
  ring

/-- The rotation of the plane. -/
def rotation (trig : Trigonometry K) (angle : K) (p : K × K) : K × K :=
  (trig.cos angle * p.1 - trig.sin angle * p.2, trig.sin angle * p.1 + trig.cos angle * p.2)

/-- `rotateZ` composes with a rotation. -/
lemma represents_rotateZ (hf : Represents m f) (trig : Trigonometry K) (angle : K) :
    Represents (rotateZ m trig angle) (f ∘ rotation trig angle) := by
  refine hf.comp fun p => funext fun i => ?_
  rw [mulVec_homogeneous, mulVec_homogeneous, rotateZ, updateCol_self,
    updateCol_ne (by decide), updateCol_self, updateCol_ne (by decide),
    updateCol_ne (by decide), rotation]
  ring

/-- `transform3` applies the map. -/
lemma transform3_eq (hf : Represents m f) (p : K × K) : transform3 m p = f p := by
  refine Prod.ext ?_ ?_
  · rw [hf.fst_eq, transform3, mul_zero, add_zero]
  · rw [hf.snd_eq, transform3, mul_zero, mul_zero, add_zero, add_zero]

/-- `transformRect` is the bounding box of the image. -/
lemma transformRect_eq [LinearOrder K] (hf : Represents m f) (rect : Rect K) :
    transformRect m rect = rect.image f := by
  simp [transformRect, transformLTRB, Rect.image, Rect.bounding, mul_apply,
    Fin.sum_univ_four, hf.fst_eq, hf.snd_eq, mul_comm]

end Represents

/-! ## Inversion -/

section Inverse

variable {t : Affine K}

end Inverse

end WebUi
