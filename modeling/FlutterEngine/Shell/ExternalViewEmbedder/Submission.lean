import FlutterEngine.Shell.ExternalViewEmbedder.Frames
import Mathlib.Data.Rat.Floor

/-!
# What is presented

`submitFrame_spec` says what `SubmitFrame` does after any sequence of frames: if it returns true,
the root backing store is presented and, for each view in the order of their preroll, a platform
layer and the backing store of its overlay if something was drawn into it; if it returns false,
nothing is presented and the targets that are kept for the next frame are the same as before.

The loop of `SubmitFrame` has the invariant `Progress`, which speaks of the views that are done.
-/

namespace Flutter.ExternalViewEmbedder

open Flow Lib Function List Option Nat Prod Outside

variable {K M : Type*} [LinearOrder K] {ops : MatrixOperations K M} {embedder : Embedder}
  {s t : ExternalViewEmbedder K M} {calls : List (FrameCall K M)} {frame : Frame K M}
  [Field K] [Monoid M] [FloorRing K]

/-! ## Submitting a frame -/

variable [DecidableEq M]

/-- `SubmitFrame` has presented a frame, with the overlays that something was drawn into as `shows`
tells it. -/
structure Presents (ops : MatrixOperations K M) (shows : CanvasCall → Bool) (frame : Frame K M)
    (s t : ExternalViewEmbedder K M) (root : RenderTarget) (target : ℤ → Option RenderTarget) :
    Prop where
  root_eq : s.rootRenderTarget = some root
  presented : t.presented = s.presented ++
    [⟨frame.surfaceSize ops, frame.embedderLayers.backingStoreLayer ops root ::
      (views frame.calls).flatMap fun view =>
        frame.embedderLayers.platformViewLayer ops view.1 view.2 ::
          (target view.1).toList.map (frame.embedderLayers.backingStoreLayer ops)⟩]
  isSome_iff : ∀ view ∈ views frame.calls,
    (target view.1).isSome ↔ ∃ call ∈ overlayCalls frame.calls view.1, shows call
  ne_root : ∀ viewId renderTarget, target viewId = some renderTarget → renderTarget.id ≠ root.id
  injective : ∀ viewId viewId' renderTarget renderTarget', target viewId = some renderTarget →
    target viewId' = some renderTarget' → renderTarget.id = renderTarget'.id → viewId = viewId'
  reused : ∀ viewId renderTarget, target viewId = some renderTarget →
    renderTarget.id < s.outside.clock → ∃ last, s.presented.getLast? = some last ∧
      last.surfaceSize = frame.surfaceSize ops ∧ Follows last.layers viewId renderTarget
  root_contents : t.outside.contents root.id =
    some (frame.transformation.getD 1, rootCalls frame.calls)
  contents : ∀ viewId renderTarget, target viewId = some renderTarget →
    t.outside.contents renderTarget.id =
      some (frame.transformation.getD 1, overlayCalls frame.calls viewId)

/-- What the loop of `SubmitFrame` relies on -/
structure Submitting (ops : MatrixOperations K M) (frame : Frame K M) (clock : ℕ)
    (root : RenderTarget) (s : ExternalViewEmbedder K M) : Prop where
  pending : Pending frame.calls s
  layers : s.embedderLayers = frame.embedderLayers
  surfaceSize : s.surfaceSize ops = frame.surfaceSize ops
  root_lt : root.id < clock
  registry_lt : ∀ key renderTarget, s.registry key = some renderTarget → renderTarget.id < clock
  ne_root : ∀ key renderTarget, s.registry key = some renderTarget → renderTarget.id ≠ root.id
  injective : ∀ key key' renderTarget renderTarget', s.registry key = some renderTarget →
    s.registry key' = some renderTarget' → renderTarget.id = renderTarget'.id → key = key'

/-- What the loop of `SubmitFrame` has done for the first views -/
structure Progress (ops : MatrixOperations K M) (frame : Frame K M) (clock : ℕ)
    (root : RenderTarget) (s : ExternalViewEmbedder K M)
    (done : List (ℤ × EmbeddedViewParams K M)) (submission : Submission K M)
    (outside : Outside M) : Prop where
  clock_le : clock ≤ outside.clock
  presentedLayers : submission.presentedLayers =
    frame.embedderLayers.backingStoreLayer ops root :: done.flatMap fun view =>
      frame.embedderLayers.platformViewLayer ops view.1 view.2 ::
        (submission.renderTargetsUsed ⟨view.1, frame.surfaceSize ops⟩).toList.map
          (frame.embedderLayers.backingStoreLayer ops)
  key : ∀ key renderTarget, submission.renderTargetsUsed key = some renderTarget →
    key.size = frame.surfaceSize ops ∧ key.viewIdentifier ∈ done.map fst
  isSome_iff : ∀ view ∈ done,
    (submission.renderTargetsUsed ⟨view.1, frame.surfaceSize ops⟩).isSome ↔
      ∃ call ∈ overlayCalls frame.calls view.1, call.marksDraw
  lt : ∀ key renderTarget, submission.renderTargetsUsed key = some renderTarget →
    renderTarget.id < outside.clock
  ne_root : ∀ key renderTarget, submission.renderTargetsUsed key = some renderTarget →
    renderTarget.id ≠ root.id
  injective : ∀ key key' renderTarget renderTarget',
    submission.renderTargetsUsed key = some renderTarget →
    submission.renderTargetsUsed key' = some renderTarget' →
    renderTarget.id = renderTarget'.id → key = key'
  reused : ∀ key renderTarget, submission.renderTargetsUsed key = some renderTarget →
    renderTarget.id < clock → s.registry key = some renderTarget
  root_contents : outside.contents root.id =
    some (frame.transformation.getD 1, rootCalls frame.calls)
  contents : ∀ key renderTarget, submission.renderTargetsUsed key = some renderTarget →
    outside.contents renderTarget.id =
      some (frame.transformation.getD 1, overlayCalls frame.calls key.viewIdentifier)

section Loop

variable {clock : ℕ} {root : RenderTarget} {done : List (ℤ × EmbeddedViewParams K M)}
  {submission : Submission K M} {outside outside' : Outside M} {view : ℤ × EmbeddedViewParams K M}
  {renderTarget : RenderTarget}

/-! The number of calls never decreases. -/

omit [Monoid M] [FloorRing K] [Field K] [DecidableEq M] in
lemma clock_le_acquireRenderTarget (s : ExternalViewEmbedder K M) (embedder : Embedder)
    (key : RegistryKey) (outside : Outside M) :
    outside.clock ≤ (s.acquireRenderTarget embedder key outside).2.clock := by
  rw [acquireRenderTarget]
  split
  · exact le_rfl
  · exact le_succ _

omit [Monoid M] [DecidableEq M] in
lemma clock_le_renderPictureToRenderTarget (embedder : Embedder) (outside : Outside M)
    (transformation : M) (picture : Option (List CanvasCall)) (renderTarget : RenderTarget) :
    outside.clock ≤ (outside.renderPictureToRenderTarget embedder transformation picture
      renderTarget).2.clock := by
  rw [renderPictureToRenderTarget.eq_def]
  split
  · split <;> exact le_succ _
  · exact le_rfl

/-- A target that can be used for a view next. -/
structure Acquired (s : ExternalViewEmbedder K M) (clock : ℕ) (root : RenderTarget)
    (submission : Submission K M) (outside outside' : Outside M) (key : RegistryKey)
    (renderTarget : RenderTarget) : Prop where
  clock_le : outside.clock ≤ outside'.clock
  contents : outside'.contents = outside.contents
  lt : renderTarget.id < outside'.clock
  ne_root : renderTarget.id ≠ root.id
  ne_used : ∀ key' renderTarget', submission.renderTargetsUsed key' = some renderTarget' →
    renderTarget'.id ≠ renderTarget.id
  reused : renderTarget.id < clock → s.registry key = some renderTarget

lemma acquired_of_acquireRenderTarget {key : RegistryKey} (hs : Submitting ops frame clock root s)
    (hprogress : Progress ops frame clock root s done submission outside)
    (hkey : submission.renderTargetsUsed key = none)
    (h : s.acquireRenderTarget embedder key outside = (some renderTarget, outside')) :
    Acquired s clock root submission outside outside' key renderTarget := by
  rw [acquireRenderTarget] at h
  split at h
  · next registered hregistry =>
    cases h
    have hlt := hs.registry_lt _ _ hregistry
    refine ⟨le_rfl, rfl, hlt.trans_le hprogress.clock_le, hs.ne_root _ _ hregistry, ?_,
      fun _ => hregistry⟩
    -- Another view with this target would have it from the registry, too.
    intro key' renderTarget' hused heq
    have hregistry' := hprogress.reused _ _ hused (heq ▸ hlt)
    rw [hs.injective _ _ _ _ hregistry' hregistry heq, hkey] at hused
    cases hused
  · rw [createRenderTarget, Prod.mk.injEq, map_eq_some_iff] at h
    obtain ⟨⟨surface, -, rfl⟩, rfl⟩ := h
    refine ⟨le_succ _, rfl, lt_succ_self _,
      (hs.root_lt.trans_le hprogress.clock_le).ne', ?_,
      fun hlt => absurd hlt hprogress.clock_le.not_gt⟩
    exact fun key' renderTarget' hused => (hprogress.lt _ _ hused).ne

section Round

variable (h : Progress ops frame clock root s done submission outside)

include h

section

variable (hmem : view.1 ∉ done.map fst)
include hmem

/-- No target is used yet for a view that is still to come. -/
theorem Progress.not_used :
    submission.renderTargetsUsed ⟨view.1, frame.surfaceSize ops⟩ = none := by
  by_contra hsome
  obtain ⟨used, hused⟩ := ne_none_iff_exists'.mp hsome
  exact hmem (h.key _ _ hused).2

/-- The platform layer of a view that nothing was drawn after. -/
theorem Progress.platformView (hclock : outside.clock ≤ outside'.clock)
    (hcontents : outside'.contents = outside.contents)
    (hdraw : ¬∃ call ∈ overlayCalls frame.calls view.1, call.marksDraw) :
    Progress ops frame clock root s (done ++ [view])
    { submission with presentedLayers := submission.presentedLayers ++
          [frame.embedderLayers.platformViewLayer ops view.1 view.2] } outside' := by
  have hnone := h.not_used hmem
  refine ⟨h.clock_le.trans hclock, ?_, ?_, ?_, ?_, h.ne_root, h.injective, h.reused, ?_, ?_⟩
  · simp [h.presentedLayers, hnone]
  · intro key renderTarget hused
    obtain ⟨hsize, hview⟩ := h.key _ _ hused
    refine ⟨hsize, ?_⟩
    rw [map_append]
    exact mem_append_left _ hview
  · intro other hother
    rcases mem_append.mp hother with hother | hother
    · exact h.isSome_iff other hother
    · rw [mem_singleton.mp hother]
      simp [hnone, hdraw]
  · exact fun key renderTarget hused => (h.lt _ _ hused).trans_le hclock
  · rw [hcontents]
    exact h.root_contents
  · rw [hcontents]
    exact h.contents

/-- The platform layer of a view and the backing store of its overlay. -/
theorem Progress.overlay (hdraw : ∃ call ∈ overlayCalls frame.calls view.1, call.marksDraw)
    (hacquired : Acquired s clock root submission outside outside'
      ⟨view.1, frame.surfaceSize ops⟩ renderTarget) :
    Progress ops frame clock root s (done ++ [view])
      ⟨update submission.renderTargetsUsed ⟨view.1, frame.surfaceSize ops⟩
          (some renderTarget),
        submission.presentedLayers ++ [frame.embedderLayers.platformViewLayer ops view.1 view.2] ++
          [frame.embedderLayers.backingStoreLayer ops renderTarget]⟩
      ⟨outside'.clock + 1, update outside'.contents renderTarget.id
        (some (frame.transformation.getD 1, overlayCalls frame.calls view.1))⟩ := by
  have hne {other : ℤ × EmbeddedViewParams K M} (hother : other ∈ done) :
      (⟨other.1, frame.surfaceSize ops⟩ : RegistryKey) ≠ ⟨view.1, frame.surfaceSize ops⟩ := by
    intro heq
    obtain ⟨heq, -⟩ := RegistryKey.mk.inj heq
    exact hmem (heq ▸ mem_map_of_mem hother)
  -- What is used is the new target or one from before.
  have hcases {key : RegistryKey} {used : RenderTarget}
      (hused : update submission.renderTargetsUsed ⟨view.1, frame.surfaceSize ops⟩
        (some renderTarget) key = some used) :
      (key = ⟨view.1, frame.surfaceSize ops⟩ ∧ used = renderTarget) ∨
        submission.renderTargetsUsed key = some used := by
    by_cases hkey : key = ⟨view.1, frame.surfaceSize ops⟩
    · rw [hkey, update_self, some.injEq] at hused
      exact .inl ⟨hkey, hused.symm⟩
    · rw [update_of_ne hkey] at hused
      exact .inr hused
  refine ⟨(h.clock_le.trans hacquired.clock_le).trans (le_succ _), ?_, ?_, ?_, ?_, ?_, ?_, ?_,
    ?_, ?_⟩
  · rw [flatMap_append, h.presentedLayers, append_assoc, ← cons_append]
    refine congrArg₂ (· ++ ·) (congrArg _ (flatMap_congr fun other hother => ?_)) ?_
    · dsimp only
      rw [update_of_ne (hne hother)]
    · simp
  · intro key used hused
    rw [map_append]
    rcases hcases hused with ⟨rfl, -⟩ | hused
    · exact ⟨rfl, mem_append_right _ (mem_singleton_self _)⟩
    · obtain ⟨hsize, hview⟩ := h.key _ _ hused
      exact ⟨hsize, mem_append_left _ hview⟩
  · intro other hother
    rcases mem_append.mp hother with hother | hother
    · dsimp only
      rw [update_of_ne (hne hother)]
      exact h.isSome_iff other hother
    · rw [mem_singleton.mp hother]
      dsimp only
      rw [update_self]
      exact iff_of_true rfl hdraw
  · intro key used hused
    rcases hcases hused with ⟨-, rfl⟩ | hused
    · exact hacquired.lt.trans (lt_succ_self _)
    · exact ((h.lt _ _ hused).trans_le hacquired.clock_le).trans (lt_succ_self _)
  · intro key used hused
    rcases hcases hused with ⟨-, rfl⟩ | hused
    · exact hacquired.ne_root
    · exact h.ne_root _ _ hused
  · intro key key' used used' hused hused' heq
    rcases hcases hused with ⟨hkey, hnew⟩ | hold <;>
      rcases hcases hused' with ⟨hkey', hnew'⟩ | hold'
    · exact hkey.trans hkey'.symm
    · exact absurd (heq.symm.trans (congrArg _ hnew)) (hacquired.ne_used _ _ hold')
    · exact absurd (heq.trans (congrArg _ hnew')) (hacquired.ne_used _ _ hold)
    · exact h.injective _ _ _ _ hold hold' heq
  · intro key used hused
    rcases hcases hused with ⟨rfl, rfl⟩ | hused
    · exact hacquired.reused
    · exact h.reused _ _ hused
  · dsimp only
    rw [update_of_ne hacquired.ne_root.symm, hacquired.contents]
    exact h.root_contents
  · intro key used hused
    rcases hcases hused with ⟨rfl, rfl⟩ | hused
    · exact update_self ..
    · dsimp only
      rw [update_of_ne (hacquired.ne_used _ _ hused), hacquired.contents]
      exact h.contents _ _ hused

end

end Round

omit [DecidableEq M] in
lemma transformation_eq (hs : Submitting ops frame clock root s) :
    s.pendingSurfaceTransformation = frame.transformation.getD 1 :=
  congrArg EmbedderLayers.rootSurfaceTransformation hs.layers

omit [Monoid M] [DecidableEq M] in
/-- A picture that is rendered is the new content of its target. -/
theorem eq_of_renderPictureToRenderTarget {transformation : M} {picture : Option (List CanvasCall)}
    (h : outside.renderPictureToRenderTarget embedder transformation picture renderTarget =
      (true, outside')) :
    ∃ recorded, picture = some recorded ∧ outside' = ⟨outside.clock + 1,
      update outside.contents renderTarget.id (some (transformation, recorded))⟩ := by
  rw [renderPictureToRenderTarget.eq_def] at h
  split at h
  · split at h
    · cases h
      exact ⟨_, rfl, rfl⟩
    · cases h
  · cases h

/-- A round of the loop is defined, and goes on with what it should have done. -/
theorem Progress.submitView (embedder : Embedder) (hs : Submitting ops frame clock root s)
    (h : Progress ops frame clock root s done submission outside)
    (hview : view ∈ views frame.calls) (hmem : view.1 ∉ done.map fst) :
    ∃ result outside', s.submitView ops embedder view.1 submission outside =
        some (result, outside') ∧ outside.clock ≤ outside'.clock ∧
      ∀ submission', result = some submission' →
        Progress ops frame clock root s (done ++ [view]) submission' outside' := by
  have horder : view.1 ∈ s.compositionOrder := by
    rw [hs.pending.order]
    exact mem_map_of_mem hview
  rw [ExternalViewEmbedder.submitView, hs.pending.params view hview,
    hs.pending.recorders _ horder, hs.pending.spies _ horder, hs.layers]
  simp only [finishRecording]
  split
  · next hfinish =>
    rw [Prod.mk.injEq] at hfinish
    exact ⟨_, _, rfl, hfinish.2 ▸ le_succ _, nofun⟩
  · next picture outside₁ hfinish =>
    rw [Prod.mk.injEq, ite_none_right_eq_some] at hfinish
    obtain ⟨⟨-, ⟨⟩⟩, rfl⟩ := hfinish
    split
    · next hdraw =>
      refine ⟨_, _, rfl, le_succ _, ?_⟩
      rintro _ ⟨⟩
      refine h.platformView hmem (le_succ _) rfl ?_
      simpa using hdraw
    · next hdraw =>
      rw [submitOverlay, hs.surfaceSize, transformation_eq hs, hs.layers]
      have hclock := (le_succ _).trans (clock_le_acquireRenderTarget s embedder
        ⟨view.1, frame.surfaceSize ops⟩ { outside with clock := outside.clock + 1 })
      split
      · next hacquire =>
        rw [hacquire] at hclock
        exact ⟨_, _, rfl, hclock, nofun⟩
      · next renderTarget outside₂ hacquire =>
        rw [hacquire] at hclock
        split
        · next hrender =>
          have hclock' := clock_le_renderPictureToRenderTarget embedder outside₂
            (frame.transformation.getD 1) (some (overlayCalls frame.calls view.1)) renderTarget
          rw [hrender] at hclock'
          exact ⟨_, _, rfl, hclock.trans hclock', nofun⟩
        · next outside₃ hrender =>
          obtain ⟨recorded, ⟨⟩, rfl⟩ := eq_of_renderPictureToRenderTarget hrender
          refine ⟨_, _, rfl, hclock.trans (le_succ _), ?_⟩
          rintro _ ⟨⟩
          have hprogress : Progress ops frame clock root s done submission
              { outside with clock := outside.clock + 1 } :=
            { h with
              clock_le := h.clock_le.trans (le_succ _)
              lt := fun key used hused => (h.lt _ _ hused).trans (lt_succ_self _) }
          refine hprogress.overlay hmem ?_
            (acquired_of_acquireRenderTarget hs hprogress (h.not_used hmem) hacquire)
          simpa using hdraw

/-- The whole loop. -/
theorem Progress.submitViews (embedder : Embedder) (hs : Submitting ops frame clock root s)
    {rest : List (ℤ × EmbeddedViewParams K M)} (hviews : done ++ rest = views frame.calls)
    (h : Progress ops frame clock root s done submission outside) :
    ∃ result outside', s.submitViews ops embedder (rest.map fst) submission outside =
        some (result, outside') ∧ outside.clock ≤ outside'.clock ∧
      ∀ submission', result = some submission' →
        Progress ops frame clock root s (views frame.calls) submission' outside' := by
  induction rest generalizing done submission outside with
  | nil =>
    rw [List.append_nil] at hviews
    refine ⟨_, _, rfl, le_rfl, ?_⟩
    rintro _ ⟨⟩
    exact hviews ▸ h
  | cons view rest ih =>
    have hview : view ∈ views frame.calls := by
      rw [← hviews]
      exact mem_append_right _ mem_cons_self
    have hmem : view.1 ∉ done.map fst := by
      have hnodup := hs.pending.nodup
      rw [hs.pending.order, ← hviews, map_append, map_cons] at hnodup
      exact fun hmem => (disjoint_of_nodup_append hnodup) hmem mem_cons_self
    obtain ⟨result, outside', hround, hclock, hresult⟩ := h.submitView embedder hs hview hmem
    rw [map_cons, submitViews, hround]
    cases result with
    | none => exact ⟨_, _, rfl, hclock, nofun⟩
    | some submission' =>
      obtain ⟨result, outside', hloop, hclock', hresult⟩ :=
        ih (by rw [append_assoc, singleton_append, hviews]) (hresult submission' rfl)
      exact ⟨result, outside', hloop, hclock.trans hclock', hresult⟩

end Loop

/-- What `SubmitFrame` does, for each result -/
structure Submitted (ops : MatrixOperations K M) (shows : CanvasCall → Bool) (frame : Frame K M)
    (s t : ExternalViewEmbedder K M) (result : Bool) : Prop where
  of_true : result = true → ∃ root target, Presents ops shows frame s t root target
  of_false : result = false → t.presented = s.presented ∧ t.registry = s.registry ∧
    t.rootRenderTarget = s.rootRenderTarget

omit [DecidableEq M] in
/-- The state in which the loop starts. -/
theorem submitting_of_drawn {root : RenderTarget} (hs : Consistent t)
    (ht : Drawn frame frame.calls s t) (hroot : t.rootRenderTarget = some root)
    (outside : Outside M) :
    Submitting ops frame t.outside.clock root
      { t with outside, rootPictureRecorder := none } := by
  refine ⟨{ ht.pending with }, ht.layers, ht.surfaceSize_eq, hs.root_lt root hroot, hs.registry_lt,
    ?_, hs.injective⟩
  exact fun key renderTarget hkey => hs.ne_root key renderTarget root hkey hroot

omit [Field K] [FloorRing K] [Monoid M] [DecidableEq M] in
/-- Calls that change no target that is kept. -/
theorem Consistent.of_clock_le (h : Consistent t) {outside : Outside M}
    (hclock : t.outside.clock ≤ outside.clock) (recorder : Option (List CanvasCall)) :
    Consistent { t with outside, rootPictureRecorder := recorder } :=
  { h with
    root_lt := fun root hroot => (h.root_lt root hroot).trans_le hclock
    registry_lt := fun key renderTarget hkey =>
      (h.registry_lt key renderTarget hkey).trans_le hclock }

/-- What the loop has done at its end, if it is not left before. -/
theorem Progress.submitted {root : RenderTarget} {submission : Submission K M}
    {outside outside' : Outside M} (hconsistent : Consistent t)
    (hdrawn : Drawn frame frame.calls s t) (hroot : t.rootRenderTarget = some root)
    (h : Progress ops frame t.outside.clock root { t with outside, rootPictureRecorder := none }
      (views frame.calls) submission outside') :
    let u := { t with
      outside := outside'
      rootPictureRecorder := none
      presented := t.presented ++ [⟨t.surfaceSize ops, submission.presentedLayers⟩]
      registry := submission.renderTargetsUsed }
    Submitted ops CanvasCall.marksDraw frame t u true ∧ Consistent u := by
  have hsize : t.surfaceSize ops = frame.surfaceSize ops := hdrawn.surfaceSize_eq
  refine ⟨⟨fun _ => ⟨root, fun viewId =>
    submission.renderTargetsUsed ⟨viewId, frame.surfaceSize ops⟩, ?_⟩, Bool.noConfusion⟩, ?_⟩
  · refine ⟨hroot, ?_, h.isSome_iff, fun _ => h.ne_root _, ?_, ?_, h.root_contents,
      fun _ => h.contents _⟩
    · rw [hsize, h.presentedLayers]
    · intro viewId viewId' renderTarget renderTarget' hused hused' heq
      exact (RegistryKey.mk.inj (h.injective _ _ _ _ hused hused' heq)).1
    · intro viewId renderTarget hused hlt
      exact hconsistent.used _ _ (h.reused _ _ hused hlt)
  · refine ⟨?_, h.lt, ?_, h.injective, ?_⟩
    · exact fun root hroot => (hconsistent.root_lt root hroot).trans_le h.clock_le
    · intro key renderTarget root' hused hroot'
      obtain rfl := some.inj (hroot.symm.trans hroot')
      exact h.ne_root _ _ hused
    · rintro ⟨viewId, size⟩ renderTarget hused
      obtain ⟨hkey, hview⟩ := h.key _ _ hused
      obtain ⟨view, hmem, rfl⟩ := mem_map.mp hview
      subst hkey
      refine ⟨_, getLast?_concat, hsize, ?_⟩
      have hlayers : frame.embedderLayers.platformViewLayer ops view.1 view.2 ::
          (submission.renderTargetsUsed ⟨view.1, frame.surfaceSize ops⟩).toList.map
            (frame.embedderLayers.backingStoreLayer ops) <:+: submission.presentedLayers := by
        rw [h.presentedLayers]
        exact infix_cons (infix_of_mem_flatten (mem_map_of_mem hmem))
      dsimp only at hused
      rw [hused] at hlayers
      exact ⟨_, hlayers.map FlutterLayer.content⟩

/-- What `SubmitFrame` does with a frame that was drawn. The state stays consistent. -/
theorem submitted_of_drawn (embedder : Embedder) (hconsistent : Consistent t)
    (hdrawn : Drawn frame frame.calls s t) :
    ∃ result u, t.submitFrame ops embedder = some (result, u) ∧
      Submitted ops CanvasCall.marksDraw frame t u result ∧ Consistent u := by
  rw [submitFrame]
  split
  · exact ⟨_, _, rfl, ⟨nofun, fun _ => ⟨rfl, rfl, rfl⟩⟩, hconsistent⟩
  · next root hroot =>
    split
    · next hrecorder =>
      rw [hdrawn.recorder] at hrecorder
      cases hrecorder
    · next calls hrecorder =>
      rw [hdrawn.recorder, some.injEq] at hrecorder
      subst hrecorder
      dsimp only [finishRecording]
      have hclock := clock_le_renderPictureToRenderTarget embedder
        { t.outside with clock := t.outside.clock + 1 } t.pendingSurfaceTransformation
        (if embedder.finishesRecording t.outside.clock then some (rootCalls frame.calls) else none)
        root
      split
      · next outside hrender =>
        rw [hrender] at hclock
        refine ⟨_, _, rfl, ⟨nofun, fun _ => ⟨rfl, rfl, rfl⟩⟩, ?_⟩
        exact hconsistent.of_clock_le ((le_succ _).trans hclock) _
      · next outside hrender =>
        rw [hrender] at hclock
        have hclock : t.outside.clock ≤ outside.clock := (le_succ _).trans hclock
        have hsubmitting : Submitting ops frame t.outside.clock root
            { t with outside, rootPictureRecorder := none } :=
          submitting_of_drawn hconsistent hdrawn hroot outside
        -- Before the loop, only the root is rendered.
        have hstart : Progress ops frame t.outside.clock root
            { t with outside, rootPictureRecorder := none } []
            ⟨fun _ => none, [frame.embedderLayers.backingStoreLayer ops root]⟩ outside := by
          obtain ⟨recorded, hrecorded, houtside⟩ := eq_of_renderPictureToRenderTarget hrender
          rw [ite_none_right_eq_some, some.injEq] at hrecorded
          refine ⟨hclock, rfl, nofun, nofun, nofun, nofun, nofun, nofun, ?_, nofun⟩
          rw [houtside, ← hrecorded.2, ← transformation_eq hsubmitting]
          exact update_self ..
        obtain ⟨result, outside', hloop, hclock', hresult⟩ :=
          hstart.submitViews embedder hsubmitting (List.nil_append _)
        have hlayers : t.embedderLayers = frame.embedderLayers := hdrawn.layers
        rw [← hlayers, ← hdrawn.pending.order] at hloop
        cases result with
        | none =>
          refine ⟨false, { t with outside := outside', rootPictureRecorder := none }, ?_,
            ⟨nofun, fun _ => ⟨rfl, rfl, rfl⟩⟩, hconsistent.of_clock_le (hclock.trans hclock') _⟩
          exact map_eq_some_iff.mpr ⟨_, hloop, rfl⟩
        | some submission =>
          obtain ⟨hsubmitted, hconsistent'⟩ :=
            (hresult submission rfl).submitted hconsistent hdrawn hroot
          exact ⟨true, _, map_eq_some_iff.mpr ⟨_, hloop, rfl⟩, hsubmitted, hconsistent'⟩

/-! ## Sequences of frames -/

/-- And it can be ended, if the state before it is consistent. -/
theorem Consistent.exists_step (h : Consistent s)
    (hfits : ∀ front call, front ++ [call] <+: frame.calls → Fits front call) :
    ∃ t, s.step ops embedder frame = some t := by
  obtain ⟨t, ht⟩ := exists_draw s hfits
  obtain ⟨result, u, hsubmit, -, -⟩ := submitted_of_drawn embedder (h.draw ht) (drawn_of_draw ht)
  rw [step, ht, bind_some]
  split
  · exact ⟨u, by rw [hsubmit]; rfl⟩
  · exact ⟨_, rfl⟩

lemma Consistent.step (h : Consistent s) (ht : s.step ops embedder frame = some t) :
    Consistent t := by
  obtain ⟨u, hu, hend⟩ := bind_eq_some_iff.mp ht
  have hconsistent := h.draw hu
  split at hend
  · obtain ⟨⟨result, _⟩, hsubmit, rfl⟩ := map_eq_some_iff.mp hend
    obtain ⟨result', t', hsubmit', -, hconsistent'⟩ :=
      submitted_of_drawn embedder hconsistent (drawn_of_draw hu)
    rw [hsubmit'] at hsubmit
    cases hsubmit
    exact hconsistent'
  · cases hend
    exact { hconsistent with }

lemma consistent_of_run {history : List (Frame K M)}
    (h : Run (fun s frame => s.step ops embedder frame) unguarded init history s) : Consistent s :=
  h.invariant consistent_init fun _ _ _ hs _ hstep => hs.step hstep

/-- No assertion fails in any sequence of frames whose calls fit, whatever fails outside. -/
theorem exists_run_of_fits (frames : List (Frame K M))
    (hfits : ∀ frame ∈ frames, ∀ front call, front ++ [call] <+: frame.calls → Fits front call) :
    ∃ s, Run (fun s frame => s.step ops embedder frame) unguarded init frames s := by
  induction frames using reverseRecOn with
  | nil => exact ⟨init, .nil⟩
  | append_singleton frames frame ih =>
    obtain ⟨hfits, hlast⟩ := forall_mem_append.mp hfits
    obtain ⟨s, hs⟩ := ih hfits
    obtain ⟨t, ht⟩ := (consistent_of_run hs).exists_step (hlast frame (mem_singleton_self frame))
    exact ⟨t, .snoc hs trivial ht⟩

/-- For each view of the frame, the canvas spy finds out whether something was drawn after it. -/
def Recognized (frame : Frame K M) : Prop :=
  ∀ view ∈ views frame.calls, (∃ call ∈ overlayCalls frame.calls view.1, call.marksDraw) ↔
    ∃ call ∈ overlayCalls frame.calls view.1, call.draws

/-- If the spies are right, then what they say may be replaced by what was drawn. -/
lemma Submitted.of_recognized {result : Bool}
    (h : Submitted ops CanvasCall.marksDraw frame s t result) (hrecognized : Recognized frame) :
    Submitted ops CanvasCall.draws frame s t result := by
  refine ⟨fun hresult => ?_, h.of_false⟩
  obtain ⟨root, target, hpresents⟩ := h.of_true hresult
  exact ⟨root, target, { hpresents with
    isSome_iff := fun view hview => (hpresents.isSome_iff view hview).trans
      (hrecognized view hview) }⟩

/-- After any sequence of frames, whatever fails outside, `SubmitFrame` at the end of a frame in
which the canvas spies are right presents this frame and returns true, or it presents nothing and
keeps the targets. -/
theorem submitFrame_spec (ops : MatrixOperations K M) (embedder : Embedder)
    (history : List (Frame K M)) (frame : Frame K M) {s t : ExternalViewEmbedder K M}
    (hhistory : Run (fun s frame => s.step ops embedder frame) unguarded init history s)
    (hdraw : s.draw ops embedder frame = some t) (hrecognized : Recognized frame) :
    ∃ result u, t.submitFrame ops embedder = some (result, u) ∧
      Submitted ops CanvasCall.draws frame t u result := by
  obtain ⟨result, u, hsubmit, hsubmitted, -⟩ :=
    submitted_of_drawn embedder ((consistent_of_run hhistory).draw hdraw) (drawn_of_draw hdraw)
  exact ⟨result, u, hsubmit, hsubmitted.of_recognized hrecognized⟩

/-- An embedder for which everything succeeds. -/
def willing : Embedder := ⟨fun _ size => some (some size), fun _ => true, fun _ => true⟩

/-- A frame with a view that something is drawn after. -/
def frameWith (call : CanvasCall) : Frame ℚ (SkMatrix ℚ) where
  frameSize := (800, 600)
  devicePixelRatio := 1
  transformation := none
  calls := [.drawRoot (.unpainted .picture false), .preroll 7 ⟨0, (10, 10), []⟩,
    .drawOverlay 7 call]
  submitted := true

/-- A frame with a view that a picture is drawn after. -/
def viewFrame : Frame ℚ (SkMatrix ℚ) := frameWith (.unpainted .picture false)

theorem exists_run_of_fits_viewFrame :
    ∃ s, Run (fun s frame => s.step plainOperations willing frame) unguarded init [viewFrame]
      s := by
  refine exists_run_of_fits _ (forall_mem_singleton.mpr fun front call hcall => ?_)
  rcases front with _ | ⟨_, _ | ⟨_, _ | ⟨_, front⟩⟩⟩ <;>
    simp_all [viewFrame, frameWith, Fits, views, cons_prefix_cons]

/-- The second of two such frames. -/
theorem submitFrame_spec_viewFrame :
    ∃ s t u result,
      Run (fun s frame => s.step plainOperations willing frame) unguarded init [viewFrame] s ∧
      s.draw plainOperations willing viewFrame = some t ∧
      t.submitFrame plainOperations willing = some (result, u) ∧ result = true ∧
      Submitted plainOperations CanvasCall.draws viewFrame t u result := by
  have heval : ((init.step plainOperations willing viewFrame).bind fun s =>
      s.draw plainOperations willing viewFrame).bind
        (fun t => (t.submitFrame plainOperations willing).map fst) = some true := by
    decide +kernel
  obtain ⟨t, ht, hresult⟩ := bind_eq_some_iff.mp heval
  obtain ⟨s, hs, hdraw⟩ := bind_eq_some_iff.mp ht
  have hrun : Run (fun s frame => s.step plainOperations willing frame) unguarded init [viewFrame]
    s := .snoc .nil trivial hs
  obtain ⟨result, u, hsubmit, hsubmitted⟩ :=
    submitFrame_spec plainOperations willing [viewFrame] viewFrame hrun hdraw
      (by simp [Recognized, viewFrame, frameWith, views, overlayCalls, CanvasCall.marksDraw,
        CanvasCall.draws])
  rw [hsubmit] at hresult
  exact ⟨s, t, u, result, hrun, hdraw, hsubmit, some.inj hresult, hsubmitted⟩

/-- A rectangle whose paint is transparent, and red after its color filter. -/
def filteredRect : CanvasCall :=
  .painted .rect ⟨⟨0, 0, 0, 0⟩, some fun _ => ⟨255, 255, 0, 0⟩⟩

/-- The overlay with this rectangle is not presented. -/
theorem not_presents_filteredRect : filteredRect.draws = true ∧
    ∃ t u, init.draw plainOperations willing (frameWith filteredRect) = some t ∧
      t.submitFrame plainOperations willing = some (true, u) ∧
      u.presented.map (·.layers.length) = [2] ∧
      ¬∃ root target,
        Presents plainOperations CanvasCall.draws (frameWith filteredRect) t u root target := by
  have heval : ((init.draw plainOperations willing (frameWith filteredRect)).bind fun t =>
      (t.submitFrame plainOperations willing).map fun result =>
        (result.1, t.presented.length, result.2.presented.map (·.layers.length))) =
          some (true, 0, [2]) := by
    decide +kernel
  obtain ⟨t, hdraw, hresult⟩ := bind_eq_some_iff.mp heval
  obtain ⟨⟨result, u⟩, hsubmit, heq⟩ := map_eq_some_iff.mp hresult
  obtain ⟨rfl, hnil, hlayers⟩ : result = true ∧ t.presented.length = 0 ∧
      u.presented.map (·.layers.length) = [2] := by
    simpa using heq
  refine ⟨rfl, t, u, hdraw, hsubmit, hlayers, ?_⟩
  rintro ⟨root, target, hpresents⟩
  have hsome : (target 7).isSome := by
    refine (hpresents.isSome_iff (7, ⟨0, (10, 10), []⟩) (mem_singleton_self _)).mpr ?_
    exact ⟨filteredRect, by simp [frameWith, overlayCalls], rfl⟩
  obtain ⟨renderTarget, htarget⟩ := isSome_iff_exists.mp hsome
  rw [hpresents.presented, length_eq_zero_iff.mp hnil] at hlayers
  simp [frameWith, views, htarget] at hlayers

end Flutter.ExternalViewEmbedder
