import FlutterEngine.WebUi.PictureSurface

/-!
# What is visible has been painted

The rectangle that is chosen for a picture always contains what is visible of it, and the canvas of
a surface has been painted with that rectangle, or will be at the end of the frame (`Consistent`).
There is one exception: a surface that had been released and is updated from another one may find
that the new rectangle is the one it had itself, and then keeps the canvas of the other surface
(`Stale`).

* `Covered` is what is expected at the end of a frame.
* `covered_iff`: it holds after every run without a stale update, and such an update breaks it.
-/

namespace WebUi

open Lib Option List PersistedSurfaceState

variable {K : Type}

/-! ## The rectangle -/

section Order

variable [LinearOrder K]

variable {other : Rect K}

/-- When a rectangle contains another one. -/
lemma rectContainsOther_iff {rect : Rect K} :
    rectContainsOther rect other = true ↔ rect.left ≤ other.left ∧ rect.top ≤ other.top ∧
      other.right ≤ rect.right ∧ other.bottom ≤ rect.bottom := by
  simp only [rectContainsOther, Bool.and_eq_true, decide_eq_true_eq, and_assoc]

lemma rectContainsOther_refl (rect : Rect K) : rectContainsOther rect rect = true :=
  rectContainsOther_iff.mpr ⟨le_rfl, le_rfl, le_rfl, le_rfl⟩

/-- An intersection contains what both contain. -/
lemma rectContainsOther_intersect {r r' : Rect K} (h : rectContainsOther r other = true)
    (h' : rectContainsOther r' other = true) : rectContainsOther (r.intersect r') other = true := by
  rw [rectContainsOther_iff] at h h' ⊢
  exact ⟨max_le h.1 h'.1, max_le h.2.1 h'.2.1, le_min h.2.2.1 h'.2.2.1, le_min h.2.2.2 h'.2.2.2⟩

end Order

/-! ## Surfaces that have been painted -/

namespace PictureSurfaces

/-- Only one surface changes. -/
lemma surfaces_put (s : PictureSurfaces K) (id id' : ℕ) (surface : PersistedPicture K) :
    (s.put id surface).surfaces id' = if id' = id then some surface else s.surfaces id' :=
  Function.update_apply ..

variable {s t : PictureSurfaces K} {id : ℕ} {surface : PersistedPicture K}
  {actions : List (Action K)}

variable {state : PersistedSurfaceState}

/-- What `prepare` has checked. -/
theorem prepare_eq_some {exact : Rect K} (h : s.prepare id state exact = some surface) :
    ∃ before, s.surfaces id = some before ∧ before.state = state ∧ before.frame < s.frame ∧
      surface = { before with
        state := .active, exactLocalCullRect := exact, frame := s.frame } := by
  rw [prepare] at h
  split at h
  · cases h
  · next before hbefore =>
    split at h
    · next hcond =>
      cases h
      exact ⟨before, hbefore, hcond.1, hcond.2, rfl⟩
    · cases h

variable [LinearOrder K]

/-- The picture of a surface has been painted with its rectangle, or is about to be, and the
rectangle contains what is visible. -/
def Painted (queue : List ℕ) (id : ℕ) (surface : PersistedPicture K) : Prop :=
  ∃ rect, surface.optimalLocalCullRect = some rect ∧
    rectContainsOther rect surface.exactLocalCullRect = true ∧
    (surface.picture.didDraw = true → id ∈ queue ∨ surface.painted = some rect)

/-- The invariant. Surfaces in the queue have been rendered in this frame. -/
structure Consistent (s : PictureSurfaces K) : Prop where
  frame_le : ∀ id surface, s.surfaces id = some surface → surface.frame ≤ s.frame
  queued : ∀ id ∈ s.paintQueue, ∃ surface, s.surfaces id = some surface ∧ surface.frame = s.frame
  active : ∀ id surface, s.surfaces id = some surface → surface.state = .active →
    Painted s.paintQueue id surface

section

variable (h : s.Consistent)
include h

/-- A surface in the queue is of this frame. -/
lemma Consistent.frame_eq (hmem : id ∈ s.paintQueue) (hsurface : s.surfaces id = some surface) :
    surface.frame = s.frame := by
  obtain ⟨surface', hsurface', hframe⟩ := h.queued id hmem
  cases hsurface.symm.trans hsurface'
  exact hframe

/-- A surface is replaced, and may be added to the queue. -/
theorem Consistent.putQueue (hframe : surface.frame ≤ s.frame) {queue : List ℕ}
    (hqueue : ∀ id', id' ≠ id → (id' ∈ queue ↔ id' ∈ s.paintQueue))
    (hqueued : id ∈ queue → surface.frame = s.frame)
    (hactive : surface.state = .active → Painted queue id surface) :
    Consistent { s.put id surface with paintQueue := queue } where
  frame_le id' surface' hsurface := by
    rw [surfaces_put] at hsurface
    split at hsurface
    · cases hsurface
      exact hframe
    · exact h.frame_le id' surface' hsurface
  queued id' hid' := by
    rw [surfaces_put]
    split
    · next heq => exact ⟨surface, rfl, hqueued (heq ▸ hid')⟩
    · next hne => exact h.queued id' ((hqueue id' hne).mp hid')
  active id' surface' hsurface hstate := by
    rw [surfaces_put] at hsurface
    split at hsurface
    · next heq =>
      cases hsurface
      rw [heq]
      exact hactive hstate
    · next hne =>
      obtain ⟨rect, hrect, hcontains, hpainted⟩ := h.active id' surface' hsurface hstate
      exact ⟨rect, hrect, hcontains, fun hdraw => (hpainted hdraw).imp_left (hqueue id' hne).mpr⟩

/-- A surface that is painted, queued or not active takes its place. -/
lemma Consistent.put (hframe : surface.frame ≤ s.frame)
    (hqueued : id ∈ s.paintQueue → surface.frame = s.frame)
    (hactive : surface.state = .active → Painted s.paintQueue id surface) :
    (s.put id surface).Consistent :=
  h.putQueue hframe (fun _ _ => Iff.rfl) hqueued hactive

/-- Painting keeps everything consistent, now or later. -/
theorem Consistent.applyPaint (hframe : surface.frame = s.frame) {rect : Rect K}
    (hrect : surface.optimalLocalCullRect = some rect)
    (hcontains : rectContainsOther rect surface.exactLocalCullRect = true) (now : Bool) :
    (s.applyPaint id surface now).Consistent := by
  rw [PictureSurfaces.applyPaint]
  split
  · next hdraw =>
    rw [Bool.not_eq_true'] at hdraw
    refine h.put hframe.le (fun _ => hframe) fun _ => ⟨rect, hrect, hcontains, fun hdraw' => ?_⟩
    exact absurd (hdraw.symm.trans hdraw') Bool.false_ne_true
  · split
    · exact h.put hframe.le (fun _ => hframe) fun _ => ⟨rect, hrect, hcontains, fun _ => .inr hrect⟩
    · refine h.putQueue hframe.le (fun id' hne => ?_) (fun _ => hframe) fun _ =>
        ⟨rect, hrect, hcontains, fun _ => .inl (mem_append_right _ mem_cons_self)⟩
      -- only this surface is new in the queue
      rw [mem_append, mem_singleton]
      exact ⟨fun h => h.resolve_right hne, .inl⟩

/-- An active surface of an earlier frame has been painted. -/
theorem Consistent.painted_of_lt (hsurface : s.surfaces id = some surface)
    (hstate : surface.state = .active) (hlt : surface.frame < s.frame) :
    ∃ rect, surface.optimalLocalCullRect = some rect ∧
      (surface.picture.didDraw = true → surface.painted = some rect) := by
  -- if it were in the queue, it would have been rendered in this frame
  obtain ⟨rect, hrect, -, hpainted⟩ := h.active id surface hsurface hstate
  refine ⟨rect, hrect, fun hdraw => (hpainted hdraw).resolve_left fun hmem => ?_⟩
  exact hlt.ne (h.frame_eq hmem hsurface)

/-- A surface leaves the scene, or is created again. -/
theorem Consistent.withState (hsurface : s.surfaces id = some surface) (hstate : state ≠ .active) :
    (s.put id { surface with state := state }).Consistent := by
  have hframe (hmem : id ∈ s.paintQueue) : surface.frame = s.frame := h.frame_eq hmem hsurface
  exact h.put (h.frame_le id surface hsurface) hframe fun hactive => absurd hactive hstate

/-- A surface that is no longer active needs no paint. -/
lemma Consistent.changeState {newState : PersistedSurfaceState} (hnew : newState ≠ .active)
    (hstep : s.changeState id state newState = some t) : t.Consistent := by
  rw [PictureSurfaces.changeState] at hstep
  split at hstep
  · cases hstep
  · next surface hsurface =>
    split at hstep
    · cases hstep
      exact h.withState hsurface hnew
    · cases hstep

/-- Painting empties the queue. -/
lemma Consistent.paint : s.paint.Consistent where
  frame_le id surface hsurface := by
    obtain ⟨before, hbefore, rfl⟩ := map_eq_some_iff.mp hsurface
    refine le_trans ?_ ((h.frame_le id before hbefore).trans (Nat.le_succ _))
    split <;> exact le_rfl
  queued := nofun
  active id surface hsurface hstate := by
    obtain ⟨before, hbefore, rfl⟩ := map_eq_some_iff.mp hsurface
    split at hstate
    · next hmem =>
      obtain ⟨rect, hrect, hcontains, -⟩ := h.active id before hbefore hstate
      rw [if_pos hmem]
      exact ⟨rect, hrect, hcontains, fun _ => .inr hrect⟩
    · next hmem =>
      obtain ⟨rect, hrect, hcontains, hpainted⟩ := h.active id before hbefore hstate
      rw [if_neg hmem]
      exact ⟨rect, hrect, hcontains, fun hdraw => .inr ((hpainted hdraw).resolve_left hmem)⟩

end

/-- At first there are no surfaces. -/
lemma consistent_init : (init : PictureSurfaces K).Consistent where
  frame_le := nofun
  queued := nofun
  active := nofun

/-- Every picture that draws anything has been painted as far as it is visible, or is about to be.
At the end of a frame the queue is empty. -/
def Covered (s : PictureSurfaces K) : Prop :=
  ∀ id surface, s.surfaces id = some surface → surface.state = .active →
    surface.picture.didDraw = true → id ∈ s.paintQueue ∨
      ∃ rect, surface.painted = some rect ∧ rectContainsOther rect surface.exactLocalCullRect = true

/-- At rest every active surface is covered. -/
lemma Consistent.covered (h : s.Consistent) : s.Covered := by
  intro id surface hsurface hstate hdraw
  obtain ⟨rect, -, hcontains, hpainted⟩ := h.active id surface hsurface hstate
  exact (hpainted hdraw).imp_right fun hrect => ⟨rect, hrect, hcontains⟩

end PictureSurfaces

/-! ## The choice of a rectangle -/

variable [Field K] [LinearOrder K]

namespace PictureSurfaces

variable {s t : PictureSurfaces K} {id oldId : ℕ} {exact : Rect K} {now : Bool}

/-- Building a surface keeps the surfaces consistent. -/
lemma Consistent.build (h : s.Consistent) (hstep : s.build id exact now = some t) :
    t.Consistent := by
  obtain ⟨surface, hprepare, hprepared⟩ := bind_eq_some_iff.mp hstep
  obtain ⟨before, hbefore, -, -, rfl⟩ := prepare_eq_some hprepare
  cases hprepared
  exact h.applyPaint rfl rfl (rectContainsOther_refl exact) now

/-- A surface whose `_exactLocalCullRect` has been computed for this frame. -/
def prepared (s : PictureSurfaces K) (before : PersistedPicture K) (exact : Rect K) :
    PersistedPicture K :=
  { before with state := .active, exactLocalCullRect := exact, frame := s.frame }

/-- What `update` has checked, and what it does. -/
theorem update_eq_some (h : s.update id oldId exact now = some t) :
    ∃ before oldSurface rect requiresRepaint,
      (s.surfaces id = some before ∧ before.state = .created ∧ before.frame < s.frame) ∧
      (s.surfaces oldId = some oldSurface ∧ oldSurface.state = .active ∧
        oldSurface.frame < s.frame) ∧
      (s.prepared before exact).computeOptimalCullRect (some oldSurface) =
        some (rect, requiresRepaint) ∧
      t = if before.picture = oldSurface.picture ∧ requiresRepaint = false then
          (s.put oldId { oldSurface with state := .released }).put id
            { s.prepared before exact with
              optimalLocalCullRect := some rect, painted := oldSurface.painted }
        else
          (s.put oldId { oldSurface with state := .released }).applyPaint id
            { s.prepared before exact with optimalLocalCullRect := some rect } now := by
  obtain ⟨surface, hprepare, hprepared⟩ := bind_eq_some_iff.mp h
  obtain ⟨before, hbefore, hstate, hlt, rfl⟩ := prepare_eq_some hprepare
  obtain ⟨oldSurface, hold, hfound⟩ := bind_eq_some_iff.mp hprepared
  obtain ⟨_, hguard, hguarded⟩ := bind_eq_some_iff.mp hfound
  obtain ⟨⟨rect, requiresRepaint⟩, hcompute, heq⟩ := bind_eq_some_iff.mp hguarded
  refine ⟨before, oldSurface, rect, requiresRepaint, ⟨hbefore, hstate, hlt⟩,
    ⟨hold, (guard_eq_some' _).mp hguard⟩, hcompute, ?_⟩
  simp only [Bool.not_eq_true'] at heq
  split at heq <;> cases heq
  · next hsame => rw [if_pos hsame, prepared]
  · next hsame => rw [if_neg hsame, prepared]

/-- A surface that was released and revived is updated from a surface with the same picture. That
one was not painted far enough, but the new rectangle is the one that the revived surface had
before. -/
def Stale (s : PictureSurfaces K) : Action K → Prop
  | .update id oldId exact _ =>
    ∃ surface ∈ s.surfaces id, ∃ oldSurface ∈ s.surfaces oldId,
      ∃ old ∈ oldSurface.optimalLocalCullRect,
      surface.picture = oldSurface.picture ∧ surface.picture.didDraw = true ∧
      exact ≠ rectZero ∧ rectContainsOther old exact = false ∧
      surface.optimalLocalCullRect =
        some ((predictedCullRect old exact).intersect surface.picture.paintBounds)
  | _ => False

instance (s : PictureSurfaces K) : ∀ action, Decidable (s.Stale action)
  | .update .. => inferInstanceAs (Decidable (∃ _ ∈ _, ∃ _ ∈ _, ∃ _ ∈ _, _))
  | .create .. | .build .. | .retain .. | .discard .. | .revive .. | .endFrame =>
    inferInstanceAs (Decidable False)

/-- A stale surface keeps a canvas that does not reach as far as the picture is visible. -/
theorem Consistent.not_covered_of_stale {action : Action K} (h : s.Consistent)
    (hstale : s.Stale action) (hstep : s.step action = some t) : ¬t.Covered := by
  cases action with
  | update id oldId exact now =>
    obtain ⟨surface, hsurface, oldSurface, hold, old, holdRect, hpicture, hdraw, hnonzero, hnot,
      hown⟩ := hstale
    rw [mem_def] at hsurface hold holdRect
    obtain ⟨before, oldSurface', rect, requiresRepaint, ⟨hbefore, -, hlt⟩, ⟨hold', hactive, hltOld⟩,
      hcompute, rfl⟩ := update_eq_some hstep
    cases hbefore.symm.trans hsurface
    cases hold'.symm.trans hold
    -- its own rectangle seems to be unchanged
    have hsame : requiresRepaint = false := by
      rw [PersistedPicture.computeOptimalCullRect] at hcompute
      simp only [← hpicture, hdraw, holdRect, prepared, hnonzero, hnot, hown] at hcompute
      cases hcompute
      exact decide_eq_false (not_not_intro rfl)
    obtain ⟨old', holdRect', hpainted⟩ := h.painted_of_lt hold hactive hltOld
    cases holdRect'.symm.trans holdRect
    intro hcovered
    rw [if_pos ⟨hpicture, hsame⟩] at hcovered
    obtain hmem | ⟨rect', hrect', hcontains⟩ :=
      hcovered id _ ((surfaces_put ..).trans (if_pos rfl)) rfl hdraw
    · exact hlt.ne (h.frame_eq hmem hsurface)
    · -- the canvas is that of the old surface
      cases hrect'.symm.trans (hpainted (hpicture ▸ hdraw))
      exact absurd (hcontains.symm.trans hnot) Bool.noConfusion
  | _ => exact hstale.elim

end PictureSurfaces

variable [IsStrictOrderedRing K]

/-- The growth that is predicted is at least the growth so far. -/
theorem le_predictedGrowth (x : K) : x ≤ predictedGrowthFactor * max x 0 := by
  have hle : x ≤ max x 0 := le_max_left x 0
  have hnonneg : (0 : K) ≤ max x 0 := le_max_right x 0
  rw [predictedGrowthFactor]
  linarith

/-- A predicted rectangle contains the exact one. -/
lemma rectContainsOther_predictedCullRect (old exact : Rect K) :
    rectContainsOther (predictedCullRect old exact) exact = true := by
  have hleft := le_predictedGrowth (old.left - exact.left)
  have htop := le_predictedGrowth (old.top - exact.top)
  have hright := le_predictedGrowth (exact.right - old.right)
  have hbottom := le_predictedGrowth (exact.bottom - old.bottom)
  rw [rectContainsOther_iff]
  simp only [predictedCullRect]
  refine ⟨?_, ?_, ?_, ?_⟩ <;> linarith

/-- The visible part lies within the bounds of the picture, or there is none. -/
def WithinBounds (picture : EnginePicture K) (exact : Rect K) : Prop :=
  exact = rectZero ∨ rectContainsOther picture.paintBounds exact = true

instance (picture : EnginePicture K) (exact : Rect K) : Decidable (WithinBounds picture exact) :=
  inferInstanceAs (Decidable (_ ∨ _))

namespace PersistedPicture

variable {s oldSurface : PersistedPicture K} {old rect : Rect K} {requiresRepaint : Bool}

/-- The new rectangle, if the old one has to be replaced. -/
def grownCullRect (s : PersistedPicture K) (old : Rect K) : Rect K :=
  (predictedCullRect old s.exactLocalCullRect).intersect s.picture.paintBounds

/-- The new rectangle contains what is visible. If no repaint is required, it is the old one, or the
one that the surface itself had before. -/
theorem computeOptimalCullRect_spec (hbounds : WithinBounds s.picture s.exactLocalCullRect)
    (hold : oldSurface.picture.didDraw = true → oldSurface.optimalLocalCullRect = some old)
    (h : s.computeOptimalCullRect (some oldSurface) = some (rect, requiresRepaint)) :
    rectContainsOther rect s.exactLocalCullRect = true ∧
      (requiresRepaint = false → rect = old ∨
        rectContainsOther old s.exactLocalCullRect = false ∧
          s.exactLocalCullRect ≠ rectZero ∧ rect = s.grownCullRect old ∧
          s.optimalLocalCullRect = some (s.grownCullRect old)) := by
  rw [computeOptimalCullRect] at h
  split at h
  · cases h
    exact ⟨rectContainsOther_refl _, Bool.noConfusion⟩
  · next hdraw =>
    rw [Bool.not_eq_true, Bool.not_eq_false'] at hdraw
    rw [hold hdraw] at h
    dsimp only at h
    split at h
    · next hzero =>
      cases h
      refine ⟨by rw [hzero]; exact rectContainsOther_refl _, fun hsame => .inl ?_⟩
      exact (of_not_not (of_decide_eq_false hsame)).symm
    · next hnonzero =>
      split at h
      · next hcontains =>
        cases h
        exact ⟨hcontains, fun _ => .inl rfl⟩
      · next hcontains =>
        cases h
        -- cutting the prediction down to the picture loses nothing that is visible
        have hinside := hbounds.resolve_left hnonzero
        refine ⟨rectContainsOther_intersect (rectContainsOther_predictedCullRect _ _) hinside,
          fun hsame => .inr ⟨Bool.eq_false_iff.mpr hcontains, hnonzero, rfl, ?_⟩⟩
        exact of_not_not (of_decide_eq_false hsame)

end PersistedPicture

namespace PictureSurfaces

variable {s t : PictureSurfaces K} {id oldId : ℕ} {exact : Rect K} {now : Bool}

section

variable (h : s.Consistent)
  (hbounds : ∀ surface, s.surfaces id = some surface → WithinBounds surface.picture exact)
include h hbounds

/-- Retaining a surface keeps the surfaces consistent. -/
lemma Consistent.retain (hstep : s.retain id exact now = some t) : t.Consistent := by
  obtain ⟨surface, hprepare, hrest⟩ := bind_eq_some_iff.mp hstep
  obtain ⟨before, hbefore, hstate, hlt, rfl⟩ := prepare_eq_some hprepare
  obtain ⟨⟨rect, requiresRepaint⟩, hcompute, heq⟩ := bind_eq_some_iff.mp hrest
  obtain ⟨old, hold, hpainted⟩ := h.painted_of_lt hbefore hstate hlt
  obtain ⟨hcontains, hsame⟩ := PersistedPicture.computeOptimalCullRect_spec
    (hbounds before hbefore) (fun _ => hold) hcompute
  cases requiresRepaint with
  | true =>
    cases heq
    refine h.applyPaint rfl rfl ?_ now
    exact hcontains
  | false =>
    cases heq
    refine h.put le_rfl (fun _ => rfl) fun _ => ⟨rect, rfl, hcontains, fun hdraw => .inr ?_⟩
    obtain rfl | ⟨hnot, -, hrect, hown⟩ := hsame rfl
    · exact hpainted hdraw
    · -- the surface had this rectangle before, but that did not contain what is visible
      rw [← hrect, hold] at hown
      rw [some.inj hown, hcontains] at hnot
      cases hnot

/-- Updating a surface keeps the surfaces consistent. -/
lemma Consistent.update (hstale : ¬s.Stale (.update id oldId exact now))
    (hstep : s.update id oldId exact now = some t) : t.Consistent := by
  obtain ⟨before, oldSurface, rect, requiresRepaint, ⟨hbefore, hstate, hlt⟩,
    ⟨hold, hactive, hltOld⟩, hcompute, rfl⟩ := update_eq_some hstep
  obtain ⟨old, holdRect, hpainted⟩ := h.painted_of_lt hold hactive hltOld
  obtain ⟨hcontains, hsame⟩ := PersistedPicture.computeOptimalCullRect_spec
    (hbounds before hbefore) (fun _ => holdRect) hcompute
  have hstateOld : released ≠ .active := nofun
  have hreleased := h.withState hold hstateOld
  split
  · next hcond =>
    refine hreleased.put le_rfl (fun _ => rfl) fun _ => ⟨rect, rfl, hcontains, fun hdraw => .inr ?_⟩
    obtain rfl | ⟨hnot, hnonzero, -, hown⟩ := hsame hcond.2
    · exact hpainted (hcond.1 ▸ hdraw)
    -- the rectangle is one that this surface had before, which is what a stale surface is
    · exact absurd ⟨before, hbefore, oldSurface, hold, old, holdRect, hcond.1, hdraw, hnonzero,
        hnot, hown⟩ hstale
  · refine hreleased.applyPaint rfl rfl ?_ now
    exact hcontains

end

/-- The exact cull rectangles lie within the bounds of the pictures. -/
def InBounds (s : PictureSurfaces K) : Action K → Prop
  | .build id exact _ | .update id _ exact _ | .retain id exact _ =>
    ∀ surface ∈ s.surfaces id, WithinBounds surface.picture exact
  | _ => True

instance (s : PictureSurfaces K) : ∀ action, Decidable (s.InBounds action)
  | .build id exact _ | .update id _ exact _ | .retain id exact _ =>
    inferInstanceAs (Decidable (∀ surface ∈ s.surfaces id, WithinBounds surface.picture exact))
  | .create .. | .discard .. | .revive .. | .endFrame => inferInstanceAs (Decidable True)

/-- No action breaks the invariant, other than an update of a stale surface. -/
theorem Consistent.step {action : Action K} (h : s.Consistent) (hbounds : s.InBounds action)
    (hstale : ¬s.Stale action) (hstep : s.step action = some t) : t.Consistent := by
  cases action with
  | create id picture =>
    rw [PictureSurfaces.step] at hstep
    split at hstep
    · next hnone =>
      cases hstep
      refine h.put (Nat.zero_le _) (fun hmem => ?_) nofun
      obtain ⟨surface, hsurface, -⟩ := h.queued id hmem
      cases hnone.symm.trans hsurface
    · cases hstep
  | build id exact now => exact h.build hstep
  | update id oldId exact now => exact h.update hbounds hstale hstep
  | retain id exact now => exact h.retain hbounds hstep
  | discard id =>
    have hreleased : released ≠ .active := nofun
    exact h.changeState hreleased hstep
  | revive id =>
    have hcreated : created ≠ .active := nofun
    exact h.changeState hcreated hstep
  | endFrame =>
    cases hstep
    exact h.paint

/-- Whatever frames are rendered, with exact cull rectangles within the bounds of the pictures:
every picture has been painted as far as it is visible at all times, if and only if no stale surface
is updated. -/
theorem covered_iff {actions : List (Action K)} (h : Run step InBounds init actions s) :
    (∀ before after t, actions = before ++ after → Run step InBounds init before t → t.Covered) ↔
      Run step (fun s action => s.InBounds action ∧ ¬s.Stale action) init actions s := by
  have hconsistent {before : List (Action K)} {t : PictureSurfaces K} (hrun : Run step
      (fun s action => s.InBounds action ∧ ¬s.Stale action) init before t) : t.Consistent :=
    hrun.invariant consistent_init fun _ _ _ hs hguard hstep => hs.step hguard.1 hguard.2 hstep
  constructor
  · intro hcovered
    refine h.guarded_or.resolve_right ?_
    rintro ⟨before, action, after, t, u, rfl, hbefore, hnot, hstep, -⟩
    have hrun : Run step InBounds init before t := hbefore.mono fun _ _ hguard => hguard.1
    -- the first action that is not allowed is within bounds, and therefore stale
    obtain ⟨t', u', hrun', hbounds, -⟩ := h.of_append_cons
    rw [hrun'.unique hrun] at hbounds
    have hstale : t.Stale action := not_not.mp fun hnotStale => hnot ⟨hbounds, hnotStale⟩
    exact (hconsistent hbefore).not_covered_of_stale hstale hstep
      (hcovered _ after u (append_cons ..) (.snoc hrun hbounds hstep))
  · rintro hrun before after t rfl hbefore
    obtain ⟨t', hbefore', -⟩ := hrun.of_append
    rw [hbefore.unique hbefore']
    exact (hconsistent hbefore').covered

/-- A picture that is scrolled into view, by surfaces that are new or retained. -/
theorem covered_scrolling :
    ∃ s : PictureSurfaces ℚ, Run step InBounds init
      [.create 0 ⟨7, true, ⟨0, 0, 100, 100⟩⟩, .build 0 ⟨0, 0, 100, 10⟩ true, .endFrame,
        .retain 0 ⟨0, 0, 100, 20⟩ false, .endFrame,
        .create 1 ⟨7, true, ⟨0, 0, 100, 100⟩⟩, .update 1 0 ⟨0, 0, 100, 50⟩ false, .endFrame] s ∧
      s.Covered := by
  have hcovered (actions : List (Action ℚ)) (hexec : (exec step (fun s action =>
      s.InBounds action ∧ ¬s.Stale action) init actions).isSome) :
      ∃ s : PictureSurfaces ℚ, Run step InBounds init actions s ∧ s.Covered := by
    obtain ⟨s, hexec⟩ := isSome_iff_exists.mp hexec
    have hrun := run_iff_exec.mpr hexec
    have hbounds : Run step InBounds init _ s := hrun.mono fun _ _ hguard => hguard.1
    exact ⟨s, hbounds, (covered_iff hbounds).mpr hrun _ [] s (append_nil _).symm hbounds⟩
  exact hcovered _ (by decide +kernel)

/-- A surface is released, and another one shows a small part of its picture. When the first one is
revived, the predicted rectangle is the one it had, and it is not painted again. -/
theorem not_covered_revived :
    ∃ s : PictureSurfaces ℚ, Run step InBounds init
      [.create 0 ⟨7, true, ⟨0, 0, 100, 100⟩⟩, .build 0 ⟨0, 0, 100, 100⟩ true, .endFrame,
        .discard 0, .create 1 ⟨7, true, ⟨0, 0, 100, 100⟩⟩, .build 1 ⟨0, 0, 10, 10⟩ true, .endFrame,
        .revive 0, .update 0 1 ⟨0, 0, 100, 100⟩ true, .endFrame] s ∧
      s.paintQueue = [] ∧ ¬s.Covered := by
  have hrevived (actions : List (Action ℚ)) (hexec : ∃ s ∈ exec step InBounds init actions,
      s.paintQueue = [] ∧ ∃ surface ∈ s.surfaces 0, surface.state = .active ∧
        surface.picture.didDraw = true ∧ surface.painted = some ⟨0, 0, 10, 10⟩ ∧
        surface.exactLocalCullRect = ⟨0, 0, 100, 100⟩) :
      ∃ s, Run step InBounds init actions s ∧ s.paintQueue = [] ∧ ¬s.Covered := by
    obtain ⟨s, hexec, hqueue, surface, hsurface, hstate, hdraw, hpainted, hexact⟩ := hexec
    refine ⟨s, run_iff_exec.mpr hexec, hqueue, fun hcovered => ?_⟩
    obtain hmem | ⟨rect, hrect, hcontains⟩ := hcovered 0 surface hsurface hstate hdraw
    · rw [hqueue] at hmem
      cases hmem
    · cases hpainted.symm.trans hrect
      rw [hexact] at hcontains
      revert hcontains
      decide +kernel
  exact hrevived _ (by decide +kernel)

end PictureSurfaces

end WebUi
