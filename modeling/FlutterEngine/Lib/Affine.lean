import FlutterEngine.Lib.Rect

/-!
# Affine maps of the plane

Matrices of three rows, which form a monoid. A matrix whose last row is `(0, 0, 1)` acts on the
points of the plane.
-/

namespace Lib

/-- A matrix of homogeneous coordinates in the plane, with the rows `(a, b, tx)`, `(c, d, ty)` and
`(p, q, w)`. -/
@[ext]
structure Matrix3 (K : Type*) where
  a : K
  b : K
  tx : K
  c : K
  d : K
  ty : K
  p : K
  q : K
  w : K
deriving DecidableEq, Repr

namespace Matrix3

variable {K : Type*} [Field K] {m n : Matrix3 K}

instance : One (Matrix3 K) := ⟨⟨1, 0, 0, 0, 1, 0, 0, 0, 1⟩⟩

instance : Mul (Matrix3 K) where
  mul m n :=
    ⟨m.a * n.a + m.b * n.c + m.tx * n.p, m.a * n.b + m.b * n.d + m.tx * n.q,
      m.a * n.tx + m.b * n.ty + m.tx * n.w,
      m.c * n.a + m.d * n.c + m.ty * n.p, m.c * n.b + m.d * n.d + m.ty * n.q,
      m.c * n.tx + m.d * n.ty + m.ty * n.w,
      m.p * n.a + m.q * n.c + m.w * n.p, m.p * n.b + m.q * n.d + m.w * n.q,
      m.p * n.tx + m.q * n.ty + m.w * n.w⟩

lemma one_def : (1 : Matrix3 K) = ⟨1, 0, 0, 0, 1, 0, 0, 0, 1⟩ := rfl

lemma mul_def (m n : Matrix3 K) : m * n = Mul.mul m n := rfl

instance : Monoid (Matrix3 K) where
  mul_assoc m n l := by
    simp only [mul_def, Mul.mul, mk.injEq]
    refine ⟨?_, ?_, ?_, ?_, ?_, ?_, ?_, ?_, ?_⟩ <;> ring
  one_mul m := by simp [mul_def, Mul.mul, one_def]
  mul_one m := by simp [mul_def, Mul.mul, one_def]

/-- The image of a point, under a matrix that is affine. -/
def apply (m : Matrix3 K) (v : K × K) : K × K :=
  (m.a * v.1 + m.b * v.2 + m.tx, m.c * v.1 + m.d * v.2 + m.ty)

def translation (v : K × K) : Matrix3 K := ⟨1, 0, v.1, 0, 1, v.2, 0, 0, 1⟩

end Matrix3

end Lib
