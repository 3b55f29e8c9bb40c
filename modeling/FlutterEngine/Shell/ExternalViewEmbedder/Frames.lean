import FlutterEngine.Shell.ExternalViewEmbedder

/-!
# The calls of a frame

What the state of the embedder is while a frame is drawn, and between frames. `Pending` relates the
four maps of a frame to the calls of the frame, `Drawn` says that nothing but them changes before
`SubmitFrame`, and `Consistent` says between frames that the targets in the registry are different
objects, and which frame they were used in.

* `views`, `rootCalls` and `overlayCalls` are what the calls of a frame amount to.
* `Fits` is what the framework keeps to: views are prerolled once and drawn after.
* `exists_draw`: the calls of a frame that fits can all be made.
-/

namespace Flutter.ExternalViewEmbedder

open Flow Lib Function List Option

variable {K M : Type*} [LinearOrder K] {ops : MatrixOperations K M} {embedder : Embedder}
  {s t : ExternalViewEmbedder K M} {calls : List (FrameCall K M)} {frame : Frame K M}

/-! ## The calls of a frame -/

/-- The views of a frame with their parameters, in the order of their preroll. -/
def views (calls : List (FrameCall K M)) : List (ℤ × EmbeddedViewParams K M) :=
  calls.filterMap fun
    | .preroll viewId params => some (viewId, params)
    | _ => none

/-- What is drawn after a view. -/
def overlayCalls (calls : List (FrameCall K M)) (viewId : ℤ) : List CanvasCall :=
  calls.filterMap fun
    | .drawOverlay viewId' call => if viewId' = viewId then some call else none
    | _ => none

/-- What is drawn in front of all views. -/
def rootCalls (calls : List (FrameCall K M)) : List CanvasCall :=
  calls.filterMap fun
    | .drawRoot call => some call
    | _ => none

section Lists

variable (calls : List (FrameCall K M)) (viewId viewId' : ℤ) (params : EmbeddedViewParams K M)
  (call : CanvasCall)

/-- A view that is prerolled is the last one. -/
lemma views_preroll :
    views (calls ++ [.preroll viewId params]) = views calls ++ [(viewId, params)] :=
  filterMap_append

/-- Drawing into the root adds no view. -/
lemma views_drawRoot : views (calls ++ [.drawRoot call]) = views calls :=
  filterMap_append.trans (append_nil _)

/-- Drawing into an overlay adds no view. -/
lemma views_drawOverlay : views (calls ++ [.drawOverlay viewId call]) = views calls :=
  filterMap_append.trans (append_nil _)

/-- Prerolling a view draws nothing into an overlay. -/
lemma overlayCalls_preroll :
    overlayCalls (calls ++ [.preroll viewId params]) viewId' = overlayCalls calls viewId' :=
  filterMap_append.trans (append_nil _)

/-- Drawing into the root is not drawing into an overlay. -/
lemma overlayCalls_drawRoot :
    overlayCalls (calls ++ [.drawRoot call]) viewId' = overlayCalls calls viewId' :=
  filterMap_append.trans (append_nil _)

/-- What is drawn after a view is added to its calls. -/
lemma overlayCalls_drawOverlay_self : overlayCalls (calls ++ [.drawOverlay viewId call]) viewId =
      overlayCalls calls viewId ++ [call] := by
  simp [overlayCalls, filterMap_append]

/-- The calls of other views stay. -/
lemma overlayCalls_drawOverlay_of_ne (h : viewId ≠ viewId') :
    overlayCalls (calls ++ [.drawOverlay viewId call]) viewId' = overlayCalls calls viewId' := by
  simp [overlayCalls, filterMap_append, h]

/-- A view draws nothing into the root. -/
lemma rootCalls_preroll : rootCalls (calls ++ [.preroll viewId params]) = rootCalls calls :=
  filterMap_append.trans (append_nil _)

/-- What is drawn into the root is added to its calls. -/
lemma rootCalls_drawRoot : rootCalls (calls ++ [.drawRoot call]) = rootCalls calls ++ [call] :=
  filterMap_append

/-- Drawing into an overlay is not drawing into the root. -/
lemma rootCalls_drawOverlay : rootCalls (calls ++ [.drawOverlay viewId call]) = rootCalls calls :=
  filterMap_append.trans (append_nil _)

end Lists

/-! ## The maps of a frame -/

/-- The maps have what the calls of the frame have put into them. -/
structure Pending (calls : List (FrameCall K M)) (s : ExternalViewEmbedder K M) : Prop where
  order : s.compositionOrder = (views calls).map Prod.fst
  nodup : s.compositionOrder.Nodup
  params : ∀ view ∈ views calls, s.pendingParams view.1 = some view.2
  recorders : ∀ viewId ∈ s.compositionOrder,
    s.pendingRecorders viewId = some (overlayCalls calls viewId)
  spies : ∀ viewId ∈ s.compositionOrder,
    s.pendingCanvasSpies viewId = some ((overlayCalls calls viewId).any (·.marksDraw))
  absent : ∀ viewId ∉ s.compositionOrder, s.pendingRecorders viewId = none ∧
    s.pendingCanvasSpies viewId = none ∧ s.pendingParams viewId = none ∧
    overlayCalls calls viewId = []

namespace Pending

/-- Prerolling a view keeps the record of the frame. -/
lemma preroll (h : Pending calls s) {viewId : ℤ} {params : EmbeddedViewParams K M}
    (ht : s.prerollCompositeEmbeddedView viewId params = some t) :
    Pending (calls ++ [.preroll viewId params]) t := by
  rw [prerollCompositeEmbeddedView] at ht
  split at ht
  · next hnew =>
    cases ht
    obtain ⟨-, -, -, hmem⟩ := hnew
    -- The maps of the other views do not change.
    have hne {viewId' : ℤ} (h' : viewId' ∈ s.compositionOrder) : viewId' ≠ viewId :=
      fun heq => hmem (heq ▸ h')
    obtain ⟨-, -, -, hnil⟩ := h.absent viewId hmem
    refine ⟨?_, ?_, ?_, ?_, ?_, ?_⟩
    · rw [views_preroll, map_append, ← h.order]
      rfl
    · exact nodup_append_comm.mp (nodup_cons.mpr ⟨hmem, h.nodup⟩)
    · rw [views_preroll]
      intro view hview
      rcases mem_append.mp hview with hview | hview
      · have hview' : view.1 ∈ s.compositionOrder := h.order ▸ mem_map_of_mem hview
        exact (update_of_ne (hne hview') ..).trans (h.params view hview)
      · rw [mem_singleton.mp hview]
        exact update_self ..
    · intro viewId' hview
      rw [overlayCalls_preroll]
      rcases mem_append.mp hview with hview | hview
      · exact (update_of_ne (hne hview) ..).trans (h.recorders viewId' hview)
      · rw [mem_singleton.mp hview, hnil]
        exact update_self ..
    · intro viewId' hview
      rw [overlayCalls_preroll]
      rcases mem_append.mp hview with hview | hview
      · exact (update_of_ne (hne hview) ..).trans (h.spies viewId' hview)
      · rw [mem_singleton.mp hview, hnil]
        exact update_self ..
    · intro viewId' hview
      rw [overlayCalls_preroll]
      rw [mem_append, mem_singleton, not_or] at hview
      simpa [update_of_ne hview.2] using h.absent viewId' hview.1
  · cases ht

/-- Drawing into the root keeps the record of the frame. -/
lemma drawRoot (h : Pending calls s) {call : CanvasCall} (ht : s.drawRoot call = some t) :
    Pending (calls ++ [.drawRoot call]) t := by
  obtain ⟨recorded, -, rfl⟩ := map_eq_some_iff.mp ht
  refine ⟨?_, h.nodup, ?_, ?_, ?_, ?_⟩
  · rw [views_drawRoot]
    exact h.order
  · rw [views_drawRoot]
    exact h.params
  all_goals simp only [overlayCalls_drawRoot]
  · exact h.recorders
  · exact h.spies
  · exact h.absent

/-- Drawing into an overlay keeps the record of the frame. -/
lemma drawOverlay (h : Pending calls s) {viewId : ℤ} {call : CanvasCall}
    (ht : s.drawOverlay viewId call = some t) :
    Pending (calls ++ [.drawOverlay viewId call]) t := by
  rw [ExternalViewEmbedder.drawOverlay] at ht
  split at ht
  · next recorded didDraw hrecorder hspy =>
    cases ht
    have hmem : viewId ∈ s.compositionOrder := by
      by_contra hmem
      rw [(h.absent viewId hmem).1] at hrecorder
      cases hrecorder
    obtain rfl := some.inj (hrecorder.symm.trans (h.recorders viewId hmem))
    obtain rfl := some.inj (hspy.symm.trans (h.spies viewId hmem))
    refine ⟨?_, h.nodup, ?_, ?_, ?_, ?_⟩
    · rw [views_drawOverlay]
      exact h.order
    · rw [views_drawOverlay]
      exact h.params
    · intro viewId' hview
      by_cases hne : viewId' = viewId
      · rw [hne, overlayCalls_drawOverlay_self]
        exact update_self ..
      · rw [overlayCalls_drawOverlay_of_ne _ _ _ _ (Ne.symm hne)]
        exact (update_of_ne hne ..).trans (h.recorders viewId' hview)
    · intro viewId' hview
      by_cases hne : viewId' = viewId
      · rw [hne, overlayCalls_drawOverlay_self, any_append, any_cons, any_nil, Bool.or_false]
        exact update_self ..
      · rw [overlayCalls_drawOverlay_of_ne _ _ _ _ (Ne.symm hne)]
        exact (update_of_ne hne ..).trans (h.spies viewId' hview)
    · intro viewId' hview
      have hne : viewId' ≠ viewId := fun heq => hview (heq ▸ hmem)
      rw [overlayCalls_drawOverlay_of_ne _ _ _ _ (Ne.symm hne)]
      simpa [update_of_ne hne] using h.absent viewId' hview
  · cases ht

end Pending

/-! ## Drawing -/

variable [Field K] [Monoid M]

/-- What the frame says about its layers. -/
def Frame.embedderLayers (frame : Frame K M) : EmbedderLayers K M :=
  ⟨((frame.frameSize.1 : K), (frame.frameSize.2 : K)), frame.devicePixelRatio,
    frame.transformation.getD 1⟩

/-- Nothing but the maps has changed since the frame was begun. -/
structure Drawn (frame : Frame K M) (calls : List (FrameCall K M))
    (s t : ExternalViewEmbedder K M) : Prop where
  pending : Pending calls t
  layers : t.embedderLayers = frame.embedderLayers
  frameSize : t.pendingFrameSize = frame.frameSize
  recorder : t.rootPictureRecorder = some (rootCalls calls)
  rootRenderTarget : t.rootRenderTarget = s.rootRenderTarget
  registry : t.registry = s.registry
  outside : t.outside = s.outside
  presented : t.presented = s.presented

/-- The call fits to those before it: a view is prerolled once, and before it is drawn after. -/
def Fits (calls : List (FrameCall K M)) : FrameCall K M → Prop
  | .preroll viewId _ => viewId ∉ (views calls).map Prod.fst
  | .drawRoot _ => True
  | .drawOverlay viewId _ => viewId ∈ (views calls).map Prod.fst

namespace Drawn

/-- Each call of a frame keeps the record of the frame. -/
lemma perform {u : ExternalViewEmbedder K M} (h : Drawn frame calls s t) {call : FrameCall K M}
    (hu : t.perform call = some u) : Drawn frame (calls ++ [call]) s u := by
  cases call with
  | preroll viewId params =>
    have hpending := h.pending.preroll hu
    rw [ExternalViewEmbedder.perform, prerollCompositeEmbeddedView] at hu
    split at hu
    · cases hu
      have hrecorder := h.recorder.trans (congrArg some (rootCalls_preroll _ viewId params).symm)
      exact { h with pending := hpending, recorder := hrecorder }
    · cases hu
  | drawRoot call =>
    have hpending := h.pending.drawRoot hu
    rw [ExternalViewEmbedder.perform, ExternalViewEmbedder.drawRoot, h.recorder] at hu
    cases hu
    exact { h with
      pending := hpending
      recorder := congrArg some (rootCalls_drawRoot _ _).symm }
  | drawOverlay viewId call =>
    have hpending := h.pending.drawOverlay hu
    rw [ExternalViewEmbedder.perform, ExternalViewEmbedder.drawOverlay] at hu
    split at hu
    · cases hu
      have hrecorder := h.recorder.trans (congrArg some (rootCalls_drawOverlay _ viewId call).symm)
      exact { h with pending := hpending, recorder := hrecorder }
    · cases hu

/-- All calls of a frame keep the record of the frame. -/
lemma foldlM (hs : Drawn frame [] s s)
    (ht : calls.foldlM ExternalViewEmbedder.perform s = some t) : Drawn frame calls s t := by
  induction calls using reverseRecOn generalizing t with
  | nil =>
    cases ht
    exact hs
  | append_singleton calls call ih =>
    rw [foldlM_append] at ht
    obtain ⟨u, hu, hcall⟩ := bind_eq_some_iff.mp ht
    obtain ⟨_, hperform, ⟨⟩⟩ := bind_eq_some_iff.mp hcall
    exact (ih hu).perform hperform

/-- A call that fits can be made. -/
lemma exists_perform (h : Drawn frame calls s t) {call : FrameCall K M}
    (hfits : Fits calls call) : ∃ u, t.perform call = some u := by
  cases call with
  | preroll viewId params =>
    have hmem : viewId ∉ t.compositionOrder := h.pending.order ▸ hfits
    obtain ⟨hrecorder, hspy, hparams, -⟩ := h.pending.absent viewId hmem
    exact ⟨_, if_pos ⟨by rw [hrecorder]; rfl, by rw [hspy]; rfl, by rw [hparams]; rfl, hmem⟩⟩
  | drawRoot call =>
    rw [ExternalViewEmbedder.perform, ExternalViewEmbedder.drawRoot, h.recorder]
    exact ⟨_, rfl⟩
  | drawOverlay viewId call =>
    have hmem : viewId ∈ t.compositionOrder := h.pending.order ▸ hfits
    rw [ExternalViewEmbedder.perform, ExternalViewEmbedder.drawOverlay,
      h.pending.recorders viewId hmem, h.pending.spies viewId hmem]
    exact ⟨_, rfl⟩

/-- Calls that fit can be made one after the other. -/
lemma exists_foldlM (hs : Drawn frame [] s s)
    (hfits : ∀ front call, front ++ [call] <+: calls → Fits front call) :
    ∃ t, calls.foldlM ExternalViewEmbedder.perform s = some t := by
  induction calls using reverseRecOn with
  | nil => exact ⟨s, rfl⟩
  | append_singleton calls call ih =>
    obtain ⟨t, ht⟩ := ih fun front other hfront => hfits front other
      (hfront.trans (prefix_append _ _))
    obtain ⟨u, hu⟩ := (hs.foldlM ht).exists_perform (hfits calls call (prefix_refl _))
    refine ⟨u, ?_⟩
    rw [foldlM_append, ht]
    exact bind_eq_some_iff.mpr ⟨t, rfl, bind_eq_some_iff.mpr ⟨u, hu, rfl⟩⟩

end Drawn

/-! ## Between frames -/

/-- In a list of layers, the target belongs to the overlay of the view. -/
def Follows (layers : List (FlutterLayer K M RenderTarget)) (viewId : ℤ) (target : RenderTarget) :
    Prop :=
  ∃ mutations, [.platformView viewId mutations, .backingStore target] <:+: layers.map (·.content)

/-- What holds between frames. -/
structure Consistent (s : ExternalViewEmbedder K M) : Prop where
  root_lt : ∀ root, s.rootRenderTarget = some root → root.id < s.outside.clock
  registry_lt : ∀ key renderTarget, s.registry key = some renderTarget →
    renderTarget.id < s.outside.clock
  ne_root : ∀ key renderTarget root, s.registry key = some renderTarget →
    s.rootRenderTarget = some root → renderTarget.id ≠ root.id
  injective : ∀ key key' renderTarget renderTarget', s.registry key = some renderTarget →
    s.registry key' = some renderTarget' → renderTarget.id = renderTarget'.id → key = key'
  used : ∀ key renderTarget, s.registry key = some renderTarget →
    ∃ last, s.presented.getLast? = some last ∧ last.surfaceSize = key.size ∧
      Follows last.layers key.viewIdentifier renderTarget

/-- At first there is no frame and no target. -/
lemma consistent_init : Consistent (init : ExternalViewEmbedder K M) :=
  ⟨nofun, nofun, nofun, nofun, nofun⟩

/-- Drawing leaves the registry alone. -/
lemma Consistent.of_drawn (h : Consistent s) (ht : Drawn frame calls s t) : Consistent t := by
  obtain ⟨hroot, hregistry, hne, hinjective, hused⟩ := h
  rw [← ht.rootRenderTarget, ← ht.outside] at hroot
  rw [← ht.registry, ← ht.outside] at hregistry
  rw [← ht.registry, ← ht.rootRenderTarget] at hne
  rw [← ht.registry] at hinjective
  rw [← ht.registry, ← ht.presented] at hused
  exact ⟨hroot, hregistry, hne, hinjective, hused⟩

/-! ## Beginning a frame -/

variable [FloorRing K]

/-- The size of the surfaces of the frame. -/
def Frame.surfaceSize (ops : MatrixOperations K M) (frame : Frame K M) : ISize :=
  transformedSurfaceSize ops frame.frameSize (frame.transformation.getD 1)

/-- A new frame has empty maps. -/
theorem drawn_beginFrame (s : ExternalViewEmbedder K M) :
    Drawn frame [] (s.beginFrame ops embedder frame.frameSize frame.devicePixelRatio
      frame.transformation) (s.beginFrame ops embedder frame.frameSize frame.devicePixelRatio
        frame.transformation) := by
  have hpending : Pending [] (s.beginFrame ops embedder frame.frameSize frame.devicePixelRatio
      frame.transformation) := by
    rw [beginFrame]
    split <;> exact ⟨rfl, nodup_nil, nofun, nofun, nofun, fun _ _ => ⟨rfl, rfl, rfl, rfl⟩⟩
  refine ⟨hpending, ?_, ?_, ?_, rfl, rfl, rfl, rfl⟩
  all_goals
    rw [beginFrame]
    split <;> rfl

/-- What is known at the end of a frame. -/
lemma drawn_of_draw (ht : s.draw ops embedder frame = some t) :
    Drawn frame frame.calls (s.beginFrame ops embedder frame.frameSize frame.devicePixelRatio
      frame.transformation) t :=
  (drawn_beginFrame s).foldlM ht

/-- A frame of calls that fit can be drawn, from every state. -/
theorem exists_draw (s : ExternalViewEmbedder K M)
    (hfits : ∀ front call, front ++ [call] <+: frame.calls → Fits front call) :
    ∃ t, s.draw ops embedder frame = some t :=
  (drawn_beginFrame s).exists_foldlM hfits

/-- The size of the surface is that of the frame. -/
lemma Drawn.surfaceSize_eq (h : Drawn frame calls s t) :
    t.surfaceSize ops = frame.surfaceSize ops := by
  rw [surfaceSize, Frame.surfaceSize, h.frameSize]
  exact congrArg _ (congrArg EmbedderLayers.rootSurfaceTransformation h.layers)

/-- A frame begins without pending views. -/
lemma Consistent.beginFrame (h : Consistent s) (frameSize : ISize) (devicePixelRatio : K)
    (transformation : Option M) :
    Consistent (s.beginFrame ops embedder frameSize devicePixelRatio transformation) := by
  rw [ExternalViewEmbedder.beginFrame]
  split
  · next target htarget =>
    -- The root target is kept.
    have hroot : s.rootRenderTarget = some target := (filter_eq_some_iff.mp htarget).1
    refine ⟨?_, h.registry_lt, ?_, h.injective, h.used⟩
    · rintro _ ⟨⟩
      exact h.root_lt target hroot
    · rintro key renderTarget _ hkey ⟨⟩
      exact h.ne_root key renderTarget target hkey hroot
  · -- The root target is new, if there is one.
    refine ⟨?_, fun key renderTarget hkey => (h.registry_lt key renderTarget hkey).trans
      (Nat.lt_succ_self _), ?_, h.injective, h.used⟩
    · intro root hroot
      obtain ⟨surface, -, rfl⟩ := map_eq_some_iff.mp hroot
      exact Nat.lt_succ_self _
    · intro key renderTarget root hkey hroot
      obtain ⟨surface, -, rfl⟩ := map_eq_some_iff.mp hroot
      exact (h.registry_lt key renderTarget hkey).ne

/-- The registry is right at the end of a frame. -/
lemma Consistent.draw (h : Consistent s) (ht : s.draw ops embedder frame = some t) : Consistent t :=
  (h.beginFrame _ _ _).of_drawn (drawn_of_draw ht)

end Flutter.ExternalViewEmbedder
