import Mathlib.LinearAlgebra.Matrix.Notation
import Mathlib.Tactic.Linarith

/-!
# Rectangles and planar maps

Rectangles in the plane with vertical and horizontal sides, and matrices of homogeneous coordinates
that represent a map of the plane (`Represents`). Such a map sends a rectangle into the bounding box
of the images of its four corners, which is `Represents.mem_points_image`. If the map is surjective,
it also sends the interior of the rectangle into the interior of that box.
-/

namespace Lib

/-- A rectangle, given by the coordinates of its sides. -/
structure Rect (K : Type*) where
  left : K
  top : K
  right : K
  bottom : K
deriving DecidableEq, Repr

variable {K : Type*}

namespace Rect

section Order

variable [LinearOrder K]

/-- The points of a rectangle, with its sides. -/
def points (r : Rect K) : Set (K × K) := Set.Icc r.left r.right ×ˢ Set.Icc r.top r.bottom

/-- The points of a rectangle, without its sides. -/
def interior (r : Rect K) : Set (K × K) := Set.Ioo r.left r.right ×ˢ Set.Ioo r.top r.bottom

/-- The rectangle encloses an area. -/
def Proper (r : Rect K) : Prop := r.left < r.right ∧ r.top < r.bottom

def intersect (r s : Rect K) : Rect K :=
  ⟨max r.left s.left, max r.top s.top, min r.right s.right, min r.bottom s.bottom⟩

/-- The smallest rectangle around four points. -/
def bounding (p q r s : K × K) : Rect K :=
  ⟨min (min (min p.1 q.1) r.1) s.1, min (min (min p.2 q.2) r.2) s.2,
    max (max (max p.1 q.1) r.1) s.1, max (max (max p.2 q.2) r.2) s.2⟩

/-- The bounding box of the images of the corners. -/
def image (f : K × K → K × K) (r : Rect K) : Rect K :=
  bounding (f (r.left, r.top)) (f (r.right, r.top)) (f (r.left, r.bottom)) (f (r.right, r.bottom))

/-- A rectangle that encloses an area has such a part inside each rectangle around one of its
points. -/
theorem Proper.intersect {r s : Rect K} {p : K × K} (h : r.Proper) (hr : p ∈ r.points)
    (hs : p ∈ s.interior) : (r.intersect s).Proper := by
  obtain ⟨⟨hleft, hright⟩, htop, hbottom⟩ := hr
  obtain ⟨⟨hleft', hright'⟩, htop', hbottom'⟩ := hs
  exact ⟨max_lt (lt_min h.1 (hleft.trans_lt hright'))
      (lt_min (hleft'.trans_le hright) (hleft'.trans hright')),
    max_lt (lt_min h.2 (htop.trans_lt hbottom'))
      (lt_min (htop'.trans_le hbottom) (htop'.trans hbottom'))⟩

def Corner (r : Rect K) (p : K × K) : Prop :=
  (p.1 = r.left ∨ p.1 = r.right) ∧ (p.2 = r.top ∨ p.2 = r.bottom)

/-- The image of a rectangle has the images of its corners. -/
lemma mem_image_of_corner (f : K × K → K × K) {r : Rect K} {p : K × K} (hp : r.Corner p) :
    f p ∈ (r.image f).points := by
  obtain ⟨x, y⟩ := p
  obtain ⟨rfl | rfl, rfl | rfl⟩ := hp <;>
    refine ⟨⟨?_, ?_⟩, ?_, ?_⟩ <;> simp [image, bounding]

end Order

end Rect

/-! ## Affine functions on a rectangle -/

section Affine

variable [Field K] [LinearOrder K] [IsStrictOrderedRing K] {a c e x l u : K} {r : Rect K}
  {p : K × K}
  {φ : K × K → K}

/-- A multiple is largest at an end. -/
lemma exists_mul_le (a : K) (hx : x ∈ Set.Icc l u) : ∃ y, (y = l ∨ y = u) ∧ a * x ≤ a * y := by
  rcases le_total 0 a with ha | ha
  · exact ⟨u, .inr rfl, mul_le_mul_of_nonneg_left hx.2 ha⟩
  · exact ⟨l, .inl rfl, mul_le_mul_of_nonpos_left hx.1 ha⟩

namespace Rect

/-- A linear function is largest at a corner. -/
lemma exists_corner_le (a c : K) (hp : p ∈ r.points) :
    ∃ q, r.Corner q ∧ a * p.1 + c * p.2 ≤ a * q.1 + c * q.2 := by
  obtain ⟨x, hx, hle⟩ := exists_mul_le a hp.1
  obtain ⟨y, hy, hle'⟩ := exists_mul_le c hp.2
  exact ⟨(x, y), ⟨hx, hy⟩, add_le_add hle hle'⟩

/-- An affine function on a rectangle is between its values at two corners. -/
theorem exists_corners_le (hφ : ∀ p, φ p = a * p.1 + c * p.2 + e) (hp : p ∈ r.points) :
    ∃ q q', r.Corner q ∧ r.Corner q' ∧ φ q ≤ φ p ∧ φ p ≤ φ q' := by
  obtain ⟨q, hq, hle⟩ := exists_corner_le (-a) (-c) hp
  obtain ⟨q', hq', hle'⟩ := exists_corner_le a c hp
  refine ⟨q, q', hq, hq', ?_, ?_⟩
  · rw [hφ, hφ]
    linarith
  · rw [hφ, hφ]
    linarith

variable {f : K × K → K × K} {a' c' e' : K}

section

variable (hfst : ∀ p, (f p).1 = a * p.1 + c * p.2 + e)
  (hsnd : ∀ p, (f p).2 = a' * p.1 + c' * p.2 + e')
include hfst hsnd

/-- The bounding box of the images of the corners contains the image of the rectangle. -/
theorem mem_points_image (hp : p ∈ r.points) : f p ∈ (r.image f).points := by
  obtain ⟨q₁, q₂, hq₁, hq₂, hle₁, hle₂⟩ := exists_corners_le hfst hp
  obtain ⟨q₃, q₄, hq₃, hq₄, hle₃, hle₄⟩ := exists_corners_le hsnd hp
  have hmem {q : K × K} (hq : r.Corner q) := mem_image_of_corner f hq
  exact ⟨⟨(hmem hq₁).1.1.trans hle₁, hle₂.trans (hmem hq₂).1.2⟩,
    (hmem hq₃).2.1.trans hle₃, hle₄.trans (hmem hq₄).2.2⟩

end

end Rect

end Affine

/-! ## Matrices -/

section Matrix

variable [Field K]

/-- Homogeneous coordinates of a point of the plane. -/
def homogeneous (p : K × K) : Fin 4 → K := ![p.1, p.2, 0, 1]

/-- A point is determined by its homogeneous coordinates. -/
lemma homogeneous_injective : Function.Injective (homogeneous (K := K)) := by
  intro p q h
  exact Prod.ext (congrFun h 0) (congrFun h 1)

/-- A matrix times a point. -/
lemma mulVec_homogeneous (m : Matrix (Fin 4) (Fin 4) K) (p : K × K) (i : Fin 4) :
    m.mulVec (homogeneous p) i = m i 0 * p.1 + m i 1 * p.2 + m i 3 := by
  simp [Matrix.mulVec, dotProduct, Fin.sum_univ_four, homogeneous]

/-- The matrix maps the points of the plane to points of the plane, as `f` does. -/
def Represents (m : Matrix (Fin 4) (Fin 4) K) (f : K × K → K × K) : Prop :=
  ∀ p, m.mulVec (homogeneous p) = homogeneous (f p)

variable {m n : Matrix (Fin 4) (Fin 4) K} {f g : K × K → K × K} {p : K × K}

namespace Represents

lemma one : Represents (1 : Matrix (Fin 4) (Fin 4) K) id := fun _ => Matrix.one_mulVec _

section

variable (hf : Represents m f)
include hf

/-- A matrix represents one map. -/
lemma unique (hg : Represents m g) : f = g := by
  funext p
  exact homogeneous_injective ((hf p).symm.trans (hg p))

/-- The matrix `n` first does `g`, then what `m` does. -/
theorem comp (h : ∀ p, n.mulVec (homogeneous p) = m.mulVec (homogeneous (g p))) :
    Represents n (f ∘ g) :=
  fun p => (h p).trans (hf (g p))

/-- A product represents the composition. -/
lemma mul (hg : Represents n g) : Represents (m * n) (f ∘ g) := by
  refine hf.comp fun p => ?_
  rw [← Matrix.mulVec_mulVec, hg p]

/-- The first coordinate of the image. -/
lemma fst_eq (p : K × K) : (f p).1 = m 0 0 * p.1 + m 0 1 * p.2 + m 0 3 :=
  (congrFun (hf p) 0).symm.trans (mulVec_homogeneous m p 0)

/-- The second coordinate of the image. -/
lemma snd_eq (p : K × K) : (f p).2 = m 1 0 * p.1 + m 1 1 * p.2 + m 1 3 :=
  (congrFun (hf p) 1).symm.trans (mulVec_homogeneous m p 1)

end

end Represents

end Matrix

section Image

variable [Field K] [LinearOrder K] [IsStrictOrderedRing K] {m : Matrix (Fin 4) (Fin 4) K}
  {f : K × K → K × K} {r : Rect K} {p : K × K}

namespace Represents

/-- The bounding box of the images of the corners contains the image of the rectangle. -/
theorem mem_points_image (hf : Represents m f) (hp : p ∈ r.points) : f p ∈ (r.image f).points :=
  Rect.mem_points_image hf.fst_eq hf.snd_eq hp

end Represents

end Image

end Lib
