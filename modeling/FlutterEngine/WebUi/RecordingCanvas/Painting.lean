import FlutterEngine.Lib.Run
import FlutterEngine.WebUi.RecordingCanvas

/-!
# Painting

`Painting` says what a canvas does with sets of points: it transforms the bounds of each draw call
and intersects them with the transformed clips. `PaintBounds` follows it with rectangles.

They follow it (`Follows`) as long as the flag `_currentMatrixIsIdentity` is right whenever a
rectangle is transformed (`Accurate`).
-/

namespace WebUi

open Lib Set

variable {K : Type*} [Field K] [LinearOrder K] (trig : Trigonometry K)

/-! ## Painting -/

/-- The map of the plane that a call adds to the current one. -/
def Transformation.map : Transformation K → K × K → K × K
  | .translate dx dy => fun p => (p.1 + dx, p.2 + dy)
  | .scale sx sy => fun p => (sx * p.1, sy * p.2)
  | .rotate radians => rotation trig radians
  | .transform matrix4 => matrix4.apply
  | .skew sx sy => fun p => (p.1 + sx * p.2, sy * p.1 + p.2)

/-- What a canvas is for: the current map, the points inside all current clips, what has been saved
of both, and the points that have been drawn. -/
structure Painting (K : Type*) where
  ctm : K × K → K × K
  clip : Set (K × K)
  saved : List ((K × K → K × K) × Set (K × K))
  drawn : Set (K × K)

namespace Painting

def init : Painting K := ⟨id, univ, [], ∅⟩

/-- A rectangle that does not enclose an area has no points to be drawn. -/
def step (a : Painting K) : Call K → Option (Painting K)
  | .save => some { a with saved := (a.ctm, a.clip) :: a.saved }
  | .restore =>
    match a.saved with
    | (ctm, clip) :: saved => some { a with ctm, clip, saved }
    | [] => none
  | .transform transformation => some { a with ctm := a.ctm ∘ transformation.map trig }
  | .clip clip => some { a with clip := a.clip ∩ a.ctm '' clip.rect.points }
  | .draw draw => some { a with
      drawn := a.drawn ∪ {p | ∃ bounds, draw.bounds = some bounds ∧ bounds.Proper ∧
        p ∈ a.ctm '' bounds.points ∧ p ∈ a.clip} }

end Painting

/-! ## Rectangles around sets -/

namespace PaintBounds

section Order

variable {K : Type*} [LinearOrder K] {p : K × K} {rect : Rect K}

/-- The points inside a clip. -/
def clipPoints (clip : Option (Rect K)) : Set (K × K) := (clip.map Rect.points).getD univ

/-- The points inside the painted area. -/
def paintedPoints (painted : Option (Rect K)) : Set (K × K) := (painted.map Rect.points).getD ∅

variable {clip : Option (Rect K)}

/-- A point in both rectangles is in the narrowed one. -/
lemma mem_narrowed (hrect : p ∈ rect.points) (hclip : p ∈ clipPoints clip) :
    p ∈ (narrowed clip rect).points := by
  cases clip with
  | none => exact hrect
  | some clip =>
    obtain ⟨⟨hleft, hright⟩, htop, hbottom⟩ := hrect
    obtain ⟨⟨hleft', hright'⟩, htop', hbottom'⟩ := hclip
    refine ⟨⟨?_, ?_⟩, ?_, ?_⟩ <;> dsimp only [narrowed] <;> split <;> assumption

/-- A point within the clip is not clipped away. -/
lemma mem_clipped (hrect : p ∈ rect.points) (hclip : p ∈ clipPoints clip) :
    ∃ rect', clipped clip rect = some rect' ∧ p ∈ rect'.points := by
  cases clip with
  | none => exact ⟨rect, rfl, hrect⟩
  | some clip =>
    obtain ⟨⟨hleft, hright⟩, htop, hbottom⟩ := hrect
    obtain ⟨⟨hleft', hright'⟩, htop', hbottom'⟩ := hclip
    rw [clipped, if_neg (hleft.trans hright').not_gt, if_neg (hleft'.trans hright).not_gt,
      if_neg (htop.trans hbottom').not_gt, if_neg (htop'.trans hbottom).not_gt]
    refine ⟨_, rfl, ⟨?_, ?_⟩, ?_, ?_⟩ <;> dsimp only <;> split <;> assumption

variable (painted : Option (Rect K))

/-- A rectangle that is added is covered. -/
lemma mem_extended (hrect : p ∈ rect.points) : p ∈ (extended painted rect).points := by
  obtain ⟨⟨hleft, hright⟩, htop, hbottom⟩ := hrect
  cases painted with
  | none =>
    exact ⟨⟨min_le_of_left_le hleft, le_max_of_le_right hright⟩, min_le_of_left_le htop,
      le_max_of_le_right hbottom⟩
  | some painted =>
    exact ⟨⟨min_le_of_left_le (min_le_of_right_le hleft), le_max_of_le_right hright⟩,
      min_le_of_left_le (min_le_of_right_le htop), le_max_of_le_right hbottom⟩

/-- What was covered stays covered. -/
lemma paintedPoints_subset_extended (rect : Rect K) :
    paintedPoints painted ⊆ (extended painted rect).points := by
  cases painted with
  | none => exact empty_subset _
  | some painted =>
    rintro p ⟨⟨hleft, hright⟩, htop, hbottom⟩
    exact ⟨⟨min_le_of_left_le (min_le_of_left_le hleft),
        le_max_of_le_left (le_max_of_le_left hright)⟩,
      min_le_of_left_le (min_le_of_left_le htop), le_max_of_le_left (le_max_of_le_left hbottom)⟩

end Order

/-- The flag is right when a rectangle is transformed. -/
def Accurate (s : PaintBounds K) : Call K → Prop
  | .clip _ | .draw _ => s.currentMatrixIsIdentity = true → s.currentMatrix = 1
  | _ => True

variable {trig} {s s' : PaintBounds K} {a a' : Painting K} {call : Call K} {f : K × K → K × K}
  {p : K × K} {rect : Rect K}

/-- What growing does for a proper rectangle. -/
lemma grow_of_proper (hf : Represents s.currentMatrix f) (hproper : rect.Proper) : s.grow rect =
      match clipped s.currentClip (if s.currentMatrixIsIdentity then rect else rect.image f) with
      | none => s
      | some rect => { s with painted := some (extended s.painted rect) } := by
  rw [grow, growLTRB, if_neg (not_or.mpr ⟨hproper.1.ne, hproper.2.ne⟩), ← transformRect_eq hf]
  rfl

/-- Drawing adds to the painted area and changes nothing else. -/
theorem grow_spec (s : PaintBounds K) (rect : Rect K) :
    ∃ painted, s.grow rect = { s with painted } ∧
      paintedPoints s.painted ⊆ paintedPoints painted := by
  rw [grow, growLTRB]
  split
  · exact ⟨s.painted, rfl, subset_rfl⟩
  · dsimp only
    split
    · exact ⟨s.painted, rfl, subset_rfl⟩
    · exact ⟨_, rfl, paintedPoints_subset_extended _ _⟩

/-- `computeBounds` keeps what lies inside the maximal bounds. -/
theorem mem_computeBounds (hpainted : p ∈ paintedPoints s.painted)
    (hmax : p ∈ s.maxPaintBounds.points) : p ∈ s.computeBounds.points := by
  cases hrect : s.painted with
  | none =>
    rw [hrect] at hpainted
    exact absurd hpainted (notMem_empty p)
  | some rect =>
    rw [hrect] at hpainted
    obtain ⟨⟨hleft, hright⟩, htop, hbottom⟩ := hpainted
    obtain ⟨⟨hleft', hright'⟩, htop', hbottom'⟩ := hmax
    have hright₂ : p.1 ≤ max rect.left rect.right := le_max_of_le_right hright
    have hbottom₂ : p.2 ≤ max rect.top rect.bottom := le_max_of_le_right hbottom
    rw [computeBounds, hrect]
    dsimp only
    rw [if_neg (not_or.mpr ⟨(hleft'.trans hright₂).not_gt, (htop'.trans hbottom₂).not_gt⟩)]
    exact ⟨⟨max_le (min_le_of_left_le hleft) hleft', le_min hright₂ hright'⟩,
      max_le (min_le_of_left_le htop) htop', le_min hbottom₂ hbottom'⟩

/-- The matrix represents the transformation. -/
lemma represents_transformBy (trig : Trigonometry K) (hf : Represents s.currentMatrix f)
    (transformation : Transformation K) :
    Represents (s.transformBy trig transformation).currentMatrix (f ∘ transformation.map trig) := by
  cases transformation with
  | translate dx dy => exact represents_translate hf dx dy
  | scale sx sy => exact represents_scale hf sx sy
  | rotate radians => exact represents_rotateZ hf trig radians
  | transform matrix4 => exact hf.mul (represents_toMatrix4 matrix4)
  | skew sx sy =>
    have hmap : (Transformation.skew sx sy).map trig = (⟨1, sy, sx, 1, 0, 0⟩ : Affine K).apply := by
      funext p
      simp [Transformation.map, Affine.apply]
    rw [hmap]
    change Represents (s.currentMatrix * (⟨1, sy, sx, 1, 0, 0⟩ : Affine K).toMatrix4) _
    exact hf.mul (represents_toMatrix4 _)

/-- A transformation only changes the matrix. -/
lemma transformBy_spec (trig : Trigonometry K) (s : PaintBounds K)
    (transformation : Transformation K) :
    ∃ currentMatrixIsIdentity currentMatrix, s.transformBy trig transformation =
      { s with currentMatrixIsIdentity, currentMatrix } := by
  cases transformation <;> exact ⟨_, _, rfl⟩

variable [IsStrictOrderedRing K]

section Transformed

variable (hf : Represents s.currentMatrix f)
  (hflag : s.currentMatrixIsIdentity = true → s.currentMatrix = 1) (hp : p ∈ rect.points)
include hf hflag hp

/-- The rectangle that stands for a transformed one contains its points. -/
theorem mem_transformed :
    f p ∈ (if s.currentMatrixIsIdentity then rect else rect.image f).points := by
  split
  · next hidentity =>
    rw [hflag hidentity] at hf
    rwa [hf.unique .one]
  · exact hf.mem_points_image hp

/-- A point within the clips is within the recorded one. -/
lemma mem_clipRect (hclip : f p ∈ clipPoints s.currentClip) :
    f p ∈ clipPoints (s.clipRect rect).currentClip := by
  simp only [clipRect, transform3_eq hf]
  exact mem_narrowed (mem_transformed hf hflag hp) hclip

/-- A point that is drawn is within the bounds. -/
lemma mem_grow (hproper : rect.Proper) (hclip : f p ∈ clipPoints s.currentClip) :
    f p ∈ paintedPoints (s.grow rect).painted := by
  obtain ⟨rect', hrect', hmem⟩ := mem_clipped (mem_transformed hf hflag hp) hclip
  rw [grow_of_proper hf hproper, hrect']
  exact mem_extended s.painted hmem

end Transformed

/-! ## Simulation -/

/-- The saved matrices and clips. -/
inductive Saved : List (Matrix4 K) → List (Option (Rect K)) →
    List ((K × K → K × K) × Set (K × K)) → Prop
  | nil : Saved [] [] []
  | cons {m : Matrix4 K} {clip : Option (Rect K)} {f : K × K → K × K} {region : Set (K × K)}
      {transforms : List (Matrix4 K)} {clipStack : List (Option (Rect K))}
      {saved : List ((K × K → K × K) × Set (K × K))} (matrix : Represents m f)
      (clip_subset : region ⊆ clipPoints clip) (rest : Saved transforms clipStack saved) :
      Saved (m :: transforms) (clip :: clipStack) ((f, region) :: saved)

/-- The rectangles and matrices of the bounds follow the sets and maps of the painting. -/
structure Follows (s : PaintBounds K) (a : Painting K) : Prop where
  matrix : Represents s.currentMatrix a.ctm
  clip_subset : a.clip ⊆ clipPoints s.currentClip
  saved : Saved s.transforms s.clipStack a.saved
  drawn_subset : a.drawn ⊆ paintedPoints s.painted

omit [IsStrictOrderedRing K] in
/-- The bounds follow a restore. -/
lemma Follows.restore (h : Follows s a) (hs : s.step trig .restore = some s')
    (ha : a.step trig .restore = some a') : Follows s' a' := by
  obtain ⟨maxPaintBounds, painted, transforms, clipStack, flag, matrix, clip⟩ := s
  obtain ⟨ctm, region, saved, drawn⟩ := a
  cases h.saved with
  | nil => cases ha
  | cons hmatrix hclip hrest =>
    cases hs
    cases ha
    exact ⟨hmatrix, hclip, hrest, h.drawn_subset⟩

/-- The bounds follow a draw. -/
lemma Follows.draw {draw : Draw K} (h : Follows s a) (haccurate : Accurate s (.draw draw))
    (hs : s.step trig (.draw draw) = some s') (ha : a.step trig (.draw draw) = some a') :
    Follows s' a' := by
  cases ha
  rw [PaintBounds.step] at hs
  cases hbounds : draw.bounds with
  | none =>
    rw [hbounds] at hs
    cases hs
    refine ⟨h.matrix, h.clip_subset, h.saved, union_subset h.drawn_subset ?_⟩
    rintro p ⟨bounds, hnone, -⟩
    cases hnone
  | some bounds =>
    rw [hbounds] at hs
    cases hs
    obtain ⟨painted, hgrow, hsubset⟩ := s.grow_spec bounds
    have hmem {p : K × K} (hproper : bounds.Proper) (hp : p ∈ bounds.points)
        (hclip : a.ctm p ∈ a.clip) : a.ctm p ∈ paintedPoints (s.grow bounds).painted :=
      mem_grow h.matrix haccurate hp hproper (h.clip_subset hclip)
    rw [hgrow] at hmem ⊢
    refine ⟨h.matrix, h.clip_subset, h.saved, union_subset (h.drawn_subset.trans hsubset) ?_⟩
    rintro _ ⟨bounds', hsome, hproper, ⟨p, hp, rfl⟩, hclip⟩
    cases hsome
    exact hmem hproper hp hclip

/-- The bounds follow each call. -/
lemma Follows.step (h : Follows s a) (haccurate : Accurate s call)
    (hs : s.step trig call = some s') (ha : a.step trig call = some a') : Follows s' a' := by
  cases call with
  | save =>
    cases hs
    cases ha
    exact ⟨h.matrix, h.clip_subset, .cons h.matrix h.clip_subset h.saved, h.drawn_subset⟩
  | restore => exact h.restore hs ha
  | transform transformation =>
    cases hs
    cases ha
    have hmatrix := represents_transformBy trig h.matrix transformation
    obtain ⟨currentMatrixIsIdentity, currentMatrix, heq⟩ := transformBy_spec trig s transformation
    rw [heq] at hmatrix ⊢
    exact ⟨hmatrix, h.clip_subset, h.saved, h.drawn_subset⟩
  | clip clip =>
    cases hs
    cases ha
    refine ⟨h.matrix, ?_, h.saved, h.drawn_subset⟩
    rintro _ ⟨hclip, p, hp, rfl⟩
    exact mem_clipRect h.matrix haccurate hp (h.clip_subset hclip)
  | draw draw => exact h.draw haccurate hs ha

variable (maxPaintBounds : Rect K)

omit [IsStrictOrderedRing K] in
/-- At first nothing is painted. -/
lemma follows_init : Follows (init maxPaintBounds) .init where
  matrix := .one
  clip_subset := subset_rfl
  saved := .nil
  drawn_subset := subset_rfl

variable {calls : List (Call K)}

/-- The bounds follow all calls. -/
lemma follows_of_run {maxPaintBounds : Rect K}
    (hrun : Run (step trig) Accurate (init maxPaintBounds) calls s)
    (hpainting : Run (Painting.step trig) unguarded .init calls a) : Follows s a := by
  refine hrun.invariant_history
    (P := fun calls s => ∀ a, Run (Painting.step trig) unguarded .init calls a → Follows s a)
    (fun a hpainting => ?_) (fun calls s call t ih haccurate hstep a hpainting => ?_) a hpainting
  · cases hpainting.eq_of_nil
    exact follows_init maxPaintBounds
  · obtain ⟨b, hpainting, -, hb⟩ := hpainting.of_append_singleton
    exact (ih b hpainting).step haccurate hstep hb

/-! ## Returning -/

section Depth

omit [IsStrictOrderedRing K]

/-- As many calls of `save` are open in the bounds as in the painting. -/
def SameDepth (s : PaintBounds K) (a : Painting K) : Prop :=
  s.transforms.length = a.saved.length ∧ s.clipStack.length = a.saved.length

/-- The bounds can follow wherever the painting goes. -/
lemma SameDepth.step (h : SameDepth s a) (ha : a.step trig call = some a') :
    ∃ s', s.step trig call = some s' ∧ SameDepth s' a' := by
  cases call with
  | save =>
    cases ha
    exact ⟨_, rfl, congrArg (· + 1) h.1, congrArg (· + 1) h.2⟩
  | restore =>
    obtain ⟨maxPaintBounds, painted, transforms, clipStack, flag, matrix, clip⟩ := s
    obtain ⟨ctm, region, saved, drawn⟩ := a
    cases saved with
    | nil => cases ha
    | cons entry saved =>
      cases ha
      obtain ⟨m, transforms, rfl⟩ := List.exists_of_length_succ _ h.1
      obtain ⟨c, clipStack, rfl⟩ := List.exists_of_length_succ _ h.2
      exact ⟨_, rfl, Nat.succ.inj h.1, Nat.succ.inj h.2⟩
  | transform transformation =>
    cases ha
    obtain ⟨flag, matrix, heq⟩ := transformBy_spec trig s transformation
    exact ⟨_, rfl, by rwa [heq]⟩
  | clip clip =>
    cases ha
    exact ⟨_, rfl, h⟩
  | draw draw =>
    cases ha
    rw [PaintBounds.step]
    cases draw.bounds with
    | none => exact ⟨s, rfl, h⟩
    | some bounds =>
      obtain ⟨painted, hgrow, -⟩ := s.grow_spec bounds
      exact ⟨_, rfl, by rwa [hgrow]⟩

/-- If each restore has its save, all calls return. -/
theorem exists_run (hpainting : Run (Painting.step trig) unguarded .init calls a) :
    ∃ s, Run (step trig) unguarded (init maxPaintBounds) calls s ∧ SameDepth s a := by
  refine hpainting.invariant_history (P := fun calls a =>
      ∃ s, Run (PaintBounds.step trig) unguarded (init maxPaintBounds) calls s ∧ SameDepth s a)
    ⟨_, .nil, rfl, rfl⟩ fun calls a call b ih _ hb => ?_
  obtain ⟨s, hrun, hdepth⟩ := ih
  obtain ⟨t, ht, hdepth⟩ := hdepth.step hb
  exact ⟨t, hrun.snoc trivial ht, hdepth⟩

/-- The largest bounds stay. -/
lemma maxPaintBounds_step (hs : s.step trig call = some s') :
    s'.maxPaintBounds = s.maxPaintBounds := by
  cases call with
  | save | clip =>
    cases hs
    rfl
  | restore =>
    rw [step, restoreTransformsAndClip] at hs
    split at hs
    · cases hs
      rfl
    · cases hs
  | transform transformation =>
    cases hs
    obtain ⟨flag, matrix, heq⟩ := transformBy_spec trig s transformation
    rw [heq]
  | draw draw =>
    rw [step] at hs
    split at hs
    · next bounds _ =>
      cases hs
      obtain ⟨painted, hgrow, -⟩ := s.grow_spec bounds
      rw [hgrow]
    · cases hs
      rfl

end Depth

end PaintBounds

end WebUi
