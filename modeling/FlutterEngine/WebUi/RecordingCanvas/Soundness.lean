import FlutterEngine.WebUi.RecordingCanvas.Painting
import Mathlib.Analysis.Complex.Trigonometric

/-!
# Paint bounds contain what is drawn

The flag `_currentMatrixIsIdentity` is not restored together with the matrix. If `transform` has set
it between a save and a restore, the flag may be set although the restored matrix is not the
identity, and then clips and draw calls are not transformed. `drawn_subset_computeBounds` says that
the computed bounds contain what is drawn if this does not happen to a clip or a draw call
(`Accurate`), and `accurate_of_run` that it does not happen unless `transform` cancels a matrix in
this way.

`drawColor` and `drawPaint` fill the clip whatever the matrix is, but the bounds grow by the
transformed maximal bounds. They contain what is filled if these cover it
(`clip_subset_computeBounds`).
-/

namespace WebUi

open Lib Matrix4 Transformation

/-- The functions on the real numbers. -/
noncomputable def Trigonometry.real : Trigonometry ℝ where
  cos := Real.cos
  sin := Real.sin
  cos_zero := Real.cos_zero
  sin_zero := Real.sin_zero

namespace PaintBounds

variable {K : Type*} [Field K] [LinearOrder K] {trig : Trigonometry K} {s s' : PaintBounds K}
  {call : Call K}

/-! ## The flag -/

/-- A call of `transform` does not cancel the current matrix if a saved one is not the identity. -/
def Uncancelled (s : PaintBounds K) : Call K → Prop
  | .transform (.transform matrix4) =>
    s.currentMatrix * matrix4.toMatrix4 = 1 → ∀ m ∈ s.transforms, m = 1
  | _ => True

/-- If the flag is set, it is right, and will be right after each restore. -/
def FlagRight (s : PaintBounds K) : Prop :=
  s.currentMatrixIsIdentity = true → s.currentMatrix = 1 ∧ ∀ m ∈ s.transforms, m = 1

lemma FlagRight.transformBy {transformation : Transformation K} (h : FlagRight s)
    (huncancelled : Uncancelled s (.transform transformation)) :
    FlagRight (s.transformBy trig transformation) := by
  intro hflag
  cases transformation with
  | translate dx dy =>
    change (if dx ≠ 0 ∨ dy ≠ 0 then false else s.currentMatrixIsIdentity) = true at hflag
    split at hflag
    · cases hflag
    · next hzero =>
      rw [not_or, not_not, not_not] at hzero
      obtain ⟨rfl, rfl⟩ := hzero
      obtain ⟨hmatrix, hsaved⟩ := h hflag
      exact ⟨(Matrix4.translate_zero _).trans hmatrix, hsaved⟩
  | scale sx sy =>
    change (if sx ≠ 1 ∨ sy ≠ 1 then false else s.currentMatrixIsIdentity) = true at hflag
    split at hflag
    · cases hflag
    · next hone =>
      rw [not_or, not_not, not_not] at hone
      obtain ⟨rfl, rfl⟩ := hone
      obtain ⟨hmatrix, hsaved⟩ := h hflag
      exact ⟨(scale_one _).trans hmatrix, hsaved⟩
  | rotate radians =>
    change (if radians ≠ 0 then false else s.currentMatrixIsIdentity) = true at hflag
    split at hflag
    · cases hflag
    · next hzero =>
      rw [not_not] at hzero
      subst hzero
      obtain ⟨hmatrix, hsaved⟩ := h hflag
      exact ⟨(rotateZ_zero _ _).trans hmatrix, hsaved⟩
  | transform matrix4 =>
    have hidentity := of_decide_eq_true hflag
    exact ⟨hidentity, huncancelled hidentity⟩
  | skew sx sy => cases hflag

lemma FlagRight.step (h : FlagRight s) (huncancelled : Uncancelled s call)
    (hs : s.step trig call = some s') : FlagRight s' := by
  cases call with
  | save =>
    cases hs
    intro hflag
    obtain ⟨hmatrix, hsaved⟩ := h hflag
    exact ⟨hmatrix, List.forall_mem_cons.mpr ⟨hmatrix, hsaved⟩⟩
  | restore =>
    rw [step, restoreTransformsAndClip] at hs
    split at hs
    · next htransforms _ =>
      cases hs
      intro hflag
      obtain ⟨-, hsaved⟩ := h hflag
      rw [htransforms] at hsaved
      exact List.forall_mem_cons.mp hsaved
    · cases hs
  | transform transformation =>
    cases hs
    exact h.transformBy huncancelled
  | clip clip =>
    cases hs
    exact h
  | draw draw =>
    rw [step] at hs
    split at hs
    · next bounds _ =>
      cases hs
      obtain ⟨painted, hgrow, -⟩ := s.grow_spec bounds
      rw [hgrow]
      exact h
    · cases hs
      exact h

omit [LinearOrder K] in
lemma FlagRight.accurate (h : FlagRight s) (call : Call K) : Accurate s call := by
  cases call with
  | clip | draw => exact fun hflag => (h hflag).1
  | save | restore | transform => trivial

/-- The flag is right whenever a rectangle is transformed, unless a call of `transform` cancels the
current matrix while another one is saved. -/
theorem accurate_of_run {maxPaintBounds : Rect K} {calls : List (Call K)}
    (hrun : Run (step trig) Uncancelled (init maxPaintBounds) calls s) :
    Run (step trig) Accurate (init maxPaintBounds) calls s := by
  refine (hrun.invariant_history (P := fun calls s =>
      Run (step trig) Accurate (init maxPaintBounds) calls s ∧ FlagRight s)
    ⟨.nil, fun _ => ⟨rfl, List.forall_mem_nil _⟩⟩ ?_).1
  rintro calls s call t ⟨haccurate, hflag⟩ huncancelled hstep
  exact ⟨haccurate.snoc (hflag.accurate call) hstep, hflag.step huncancelled hstep⟩

/-! ## Soundness -/

lemma maxPaintBounds_of_run {maxPaintBounds : Rect K} {calls : List (Call K)}
    (hrun : Run (step trig) Accurate (init maxPaintBounds) calls s) :
    s.maxPaintBounds = maxPaintBounds :=
  hrun.invariant (P := fun s => s.maxPaintBounds = maxPaintBounds) rfl
    fun _ _ _ heq _ hstep => (maxPaintBounds_step hstep).trans heq

/-- All calls return if each restore has its save. The computed bounds contain what is drawn inside
the maximal bounds, if the flag is right whenever a rectangle is transformed. -/
theorem drawn_subset_computeBounds [IsStrictOrderedRing K] (trig : Trigonometry K)
    (maxPaintBounds : Rect K) (calls : List (Call K)) (a : Painting K)
    (hpainting : Run (Painting.step trig) unguarded .init calls a) :
    (∃ s, Run (step trig) unguarded (init maxPaintBounds) calls s) ∧
      ∀ s, Run (step trig) Accurate (init maxPaintBounds) calls s →
        a.drawn ∩ maxPaintBounds.points ⊆ s.computeBounds.points := by
  obtain ⟨s, hrun, -⟩ := exists_run maxPaintBounds hpainting
  refine ⟨⟨s, hrun⟩, fun s haccurate p hp => ?_⟩
  have hmax := maxPaintBounds_of_run haccurate
  exact mem_computeBounds ((follows_of_run haccurate hpainting).drawn_subset hp.1) (hmax ▸ hp.2)

/-- A clip and a rectangle that are moved to the right. -/
theorem drawn_subset_computeBounds_translate : ∃ calls : List (Call ℝ), ∃ a s,
    Run (Painting.step .real) unguarded .init calls a ∧
    Run (step .real) unguarded (init ⟨0, 0, 100, 100⟩) calls s ∧
    (12, 3) ∈ a.drawn ∧ (12, 3) ∈ s.computeBounds.points := by
  obtain ⟨calls, a, s, hpainting, hrun, hdrawn⟩ : ∃ calls : List (Call ℝ), ∃ a s,
      Run (Painting.step .real) unguarded .init calls a ∧
      Run (step .real) Uncancelled (init ⟨0, 0, 100, 100⟩) calls s ∧ (12, 3) ∈ a.drawn := by
    refine ⟨[.save, .transform (.scale 2 2), .restore, .transform (.translate 10 0),
      .clip (.clipRect ⟨0, 0, 5, 5⟩), .draw (.drawRect ⟨0, 0, 10, 10⟩ none)], _, _,
      .cons trivial rfl <| .cons trivial rfl <| .cons trivial rfl <| .cons trivial rfl <|
      .cons trivial rfl <| .cons trivial rfl .nil, .cons trivial rfl <| .cons trivial rfl <|
      .cons trivial rfl <| .cons trivial rfl <| .cons trivial rfl <| .cons trivial rfl .nil,
      .inr ⟨⟨0, 0, 10, 10⟩, rfl, ?_, ⟨(2, 3), ?_, ?_⟩, trivial, (2, 3), ?_, ?_⟩⟩
    · norm_num [Rect.Proper]
    · norm_num [Rect.points]
    · norm_num [Painting.init, map]
    · norm_num [Rect.points, Clip.rect]
    · norm_num [Painting.init, map]
  have hmax : (12, 3) ∈ (Rect.mk 0 0 100 100 : Rect ℝ).points := by norm_num [Rect.points]
  have hsound := (drawn_subset_computeBounds .real ⟨0, 0, 100, 100⟩ calls a hpainting).2 s
    (accurate_of_run hrun)
  exact ⟨calls, a, s, hpainting, hrun.mono fun _ _ _ => trivial, hdrawn, hsound ⟨hdrawn, hmax⟩⟩

lemma translate_mul_toMatrix4 :
    Matrix4.translate (1 : Matrix4 ℝ) 10 0 * (⟨1, 0, 0, 1, -10, 0⟩ : Affine ℝ).toMatrix4 = 1 := by
  ext i j
  fin_cases i <;> fin_cases j <;>
    simp [Matrix4.translate, Affine.toMatrix4, Matrix.mul_apply, Fin.sum_univ_four]

/-- A translation that is cancelled between a save and a restore. -/
theorem not_drawn_subset_cancelled : ∃ calls : List (Call ℝ), ∃ a s,
    calls = [.transform (.translate 10 0), .save,
      .transform (.transform ⟨1, 0, 0, 1, -10, 0⟩), .restore,
      .draw (.drawRect ⟨0, 0, 10, 10⟩ none)] ∧
    Run (Painting.step .real) unguarded .init calls a ∧
    Run (step .real) unguarded (init ⟨0, 0, 100, 100⟩) calls s ∧
    (15, 5) ∈ a.drawn ∩ (Rect.mk 0 0 100 100 : Rect ℝ).points ∧
    s.computeBounds = ⟨0, 0, 10, 10⟩ ∧ (15, 5) ∉ s.computeBounds.points := by
  refine ⟨_, _, _, rfl, .cons trivial rfl <| .cons trivial rfl <| .cons trivial rfl <|
    .cons trivial rfl <| .cons trivial rfl .nil, .cons trivial rfl <| .cons trivial rfl <|
    .cons trivial rfl <| .cons trivial rfl <| .cons trivial rfl .nil,
    ⟨.inr ⟨⟨0, 0, 10, 10⟩, rfl, ?_, ⟨(5, 5), ?_, ?_⟩, trivial⟩, ?_⟩, ?_⟩
  · norm_num [Rect.Proper]
  · norm_num [Rect.points]
  · norm_num [Painting.init, map]
  · norm_num [Rect.points]
  · simp only [transformBy, translate, saveTransformsAndClip, transform, init, isIdentity,
      translate_mul_toMatrix4, grow, growLTRB, clipped, extended, computeBounds]
    norm_num [Rect.points]

/-! ## Filling -/

/-- The computed bounds contain the maximal bounds inside the clip if the transformed maximal bounds
do, and if the flag is right whenever a rectangle is transformed. -/
theorem clip_subset_computeBounds [IsStrictOrderedRing K] (trig : Trigonometry K)
    (maxPaintBounds : Rect K) (hproper : maxPaintBounds.Proper) (calls : List (Call K))
    (a : Painting K) (hpainting : Run (Painting.step trig) unguarded .init calls a)
    (hcover : maxPaintBounds.points ∩ a.clip ⊆ a.ctm '' maxPaintBounds.points) :
    (∃ s, Run (step trig) unguarded (init maxPaintBounds) calls s) ∧
      ∀ s, Run (step trig) Accurate (init maxPaintBounds) calls s →
        (s.currentMatrixIsIdentity = true → s.currentMatrix = 1) →
        maxPaintBounds.points ∩ a.clip ⊆
          s.drawColor.computeBounds.points ∩ s.drawPaint.computeBounds.points := by
  obtain ⟨s, hrun, -⟩ := exists_run maxPaintBounds hpainting
  refine ⟨⟨s, hrun⟩, fun s haccurate hflag p hp => ?_⟩
  obtain ⟨q, hq, rfl⟩ := hcover hp
  obtain rfl := maxPaintBounds_of_run haccurate
  have hfollows := follows_of_run haccurate hpainting
  obtain ⟨painted, hgrow, -⟩ := s.grow_spec s.maxPaintBounds
  have hpainted := mem_grow hfollows.matrix hflag hq hproper (hfollows.clip_subset hp.2)
  have hmem : a.ctm q ∈ (s.grow s.maxPaintBounds).computeBounds.points :=
    mem_computeBounds hpainted (hgrow ▸ hp.1)
  exact ⟨hmem, hmem⟩

/-- A clip in a canvas that is scaled by two: the transformed maximal bounds are larger than the
maximal bounds. -/
theorem clip_subset_computeBounds_clip : ∃ calls : List (Call ℝ), ∃ a s,
    calls = [.transform (.scale 2 2), .clip (.clipRect ⟨0, 0, 25, 25⟩)] ∧
    Run (Painting.step .real) unguarded .init calls a ∧
    Run (step .real) Accurate (init ⟨0, 0, 100, 100⟩) calls s ∧
    (40, 30) ∈ a.clip ∧ (40, 30) ∈ s.drawPaint.computeBounds.points := by
  have hproper : (Rect.mk 0 0 100 100 : Rect ℝ).Proper := by norm_num [Rect.Proper]
  have hmax : (40, 30) ∈ (Rect.mk 0 0 100 100 : Rect ℝ).points := by norm_num [Rect.points]
  have hflag : ((init ⟨(0 : ℝ), 0, 100, 100⟩).scale 2 2).currentMatrixIsIdentity = false := by
    norm_num [scale]
  have hright : ((init ⟨(0 : ℝ), 0, 100, 100⟩).scale 2 2).currentMatrixIsIdentity = true →
      ((init ⟨(0 : ℝ), 0, 100, 100⟩).scale 2 2).currentMatrix = 1 := by
    intro htrue
    rw [hflag] at htrue
    cases htrue
  have hsound := clip_subset_computeBounds .real _ hproper
    [.transform (.scale 2 2), .clip (.clipRect ⟨0, 0, 25, 25⟩)] _
    (.cons trivial rfl <| .cons trivial rfl .nil) ?_
  · have hclip : (40, 30) ∈ (Painting.init.clip : Set (ℝ × ℝ)) ∩
        (Painting.init.ctm ∘ (Transformation.scale 2 2).map .real) ''
          (Rect.mk 0 0 25 25 : Rect ℝ).points := by
      refine ⟨trivial, (20, 15), ?_, ?_⟩
      · norm_num [Rect.points]
      · norm_num [Painting.init, map]
    exact ⟨_, _, _, rfl, .cons trivial rfl <| .cons trivial rfl .nil,
      .cons trivial rfl <| .cons hright rfl .nil, hclip,
      (hsound.2 _ (.cons trivial rfl <| .cons hright rfl .nil) hright ⟨hmax, hclip⟩).2⟩
  · rintro ⟨x, y⟩ ⟨hmem, -⟩
    refine ⟨(x / 2, y / 2), ?_, ?_⟩
    · norm_num [Rect.points] at hmem ⊢
      obtain ⟨⟨hx, hx'⟩, hy, hy'⟩ := hmem
      exact ⟨⟨by linarith, by linarith⟩, by linarith, by linarith⟩
    · norm_num [Painting.init, map]
      constructor <;> ring

/-- A translation moves the bounds away from the left side. -/
theorem not_clip_subset_translate : ∃ a s,
    Run (Painting.step .real) unguarded .init [.transform (.translate 10 0)] a ∧
    Run (step .real) unguarded (init ⟨0, 0, 100, 100⟩) [.transform (.translate 10 0)] s ∧
    (5, 5) ∈ (Rect.mk 0 0 100 100 : Rect ℝ).points ∩ a.clip ∧
    s.drawPaint.computeBounds = ⟨10, 0, 100, 100⟩ ∧
    (5, 5) ∉ s.drawPaint.computeBounds.points := by
  refine ⟨_, _, .cons trivial rfl .nil, .cons trivial rfl .nil, ⟨?_, trivial⟩, ?_⟩
  · norm_num [Rect.points]
  · have hproper : (Rect.mk 0 0 100 100 : Rect ℝ).Proper := by norm_num [Rect.Proper]
    have hgrow : drawPaint ((init ⟨(0 : ℝ), 0, 100, 100⟩).translate 10 0) = _ :=
      grow_of_proper (represents_translate .one 10 0) hproper
    rw [transformBy, hgrow]
    norm_num [translate, init, clipped, extended, computeBounds, Rect.image, Rect.bounding,
      Rect.points]

end PaintBounds

end WebUi
