import FlutterEngine.Shell.EmbedderLayers

/-!
# The external view embedder

`shell/platform/embedder/embedder_external_view_embedder.cc`: a frame with platform views is drawn
into the root render target and, for each platform view that something was drawn after, into a
render target of its own. The targets come from the embedder and are kept for the next frame.

Everything that can fail outside is decided by an `Embedder`, which is asked with the number of
things that have happened before. A render target is known by the number of the call that created
it, since each call of the callback returns a new object. What has no meaning in the source (an
assertion that fails, a null pointer that is used, a key that is not in a map) has no result.

Whether something was drawn after a view is decided by a canvas that is told of all calls
(`canvas_spy.cc`). It takes a paint for transparent if the color of the paint is, whatever its color
filter makes of it (`CanvasCall.draws`, `CanvasCall.marksDraw`). Shaders, image filters and what
clips leave of a drawing are left out.
-/

namespace Flutter

open Flow Lib Function

/-! ## Canvases that are spied on -/

/-- Calls of a canvas that are given a paint. -/
inductive PaintedCall where
  | paint | behind | points | rect | region | oval | arc | rrect | drrect | path | textBlob
  | vertices | patch
deriving DecidableEq, Repr

/-- Calls of a canvas that draw, whatever their paint is. -/
inductive UnpaintedCall where
  | bitmap | bitmapRect | bitmapNine | bitmapLattice | image | imageRect | imageNine | imageLattice
  | picture | drawable | atlas | shadowRec | annotation | edgeAAQuad | edgeAAImageSet
deriving DecidableEq, Repr

/-- Calls of a canvas that do not draw. -/
inductive StateCall where
  | save | saveLayer | saveBehind | restore | concat | setMatrix | clipRect | clipRRect | clipPath
  | clipRegion | flush
deriving DecidableEq, Repr

/-- `SkColor` -/
structure Color where
  alpha : ℕ
  red : ℕ
  green : ℕ
  blue : ℕ
deriving DecidableEq, Repr

/-- `SkPaint`, with what gives the color that is drawn. -/
structure Paint where
  color : Color
  /-- What the color filter makes of a color: `ColorFilter.mode(color, BlendMode.src)` makes
  `color` of it, for one. -/
  colorFilter : Option (Color → Color)

/-- The color that is drawn with a paint. -/
def Paint.drawnColor (paint : Paint) : Color :=
  paint.colorFilter.elim paint.color fun colorFilter => colorFilter paint.color

/-- A call of a canvas. -/
inductive CanvasCall where
  | painted (call : PaintedCall) (paint : Paint)
  /-- With the content of the image, the picture and so on, or with its own color. -/
  | unpainted (call : UnpaintedCall) (transparent : Bool)
  /-- With whether nothing comes of it: the filters of a layer may fill it. -/
  | state (call : StateCall) (transparent : Bool)

/-- The call draws something that is not transparent. -/
def CanvasCall.draws : CanvasCall → Bool
  | .painted _ paint => paint.drawnColor.alpha ≠ 0
  | .unpainted _ transparent | .state _ transparent => !transparent

/-- What `DidDrawCanvas` adds to `did_draw_`: it looks at the alpha of paints only. -/
def CanvasCall.marksDraw : CanvasCall → Bool
  | .painted _ paint => paint.color.alpha ≠ 0
  | .unpainted .. => true
  | .state .. => false

/-! ## The state -/

/-- `SkISize` -/
abbrev ISize := ℤ × ℤ

/-- `EmbedderRenderTarget`: the number of the call that created it, and the size of its surface -/
structure RenderTarget where
  id : ℕ
  renderSurface : Option ISize
deriving DecidableEq, Repr

/-- `RegistryKey` -/
structure RegistryKey where
  viewIdentifier : ℤ
  size : ISize
deriving DecidableEq, Repr

variable {K M : Type*} [Field K] [LinearOrder K] [FloorRing K] [Monoid M] [DecidableEq M]

/-- What happens outside. -/
structure Embedder where
  /-- `create_render_target_callback_`: no target, or one with or without a surface -/
  createRenderTarget : ℕ → ISize → Option (Option ISize)
  /-- `finishRecordingAsPicture` returns a picture. -/
  finishesRecording : ℕ → Bool
  /-- `getCanvas` of a surface returns a canvas. -/
  providesCanvas : ℕ → Bool

/-- What has happened outside: the number of calls, and the picture that was rendered last into each
target, with the matrix of its canvas. -/
structure Outside (M : Type*) where
  clock : ℕ
  contents : ℕ → Option (M × List CanvasCall)

/-- The layers that were presented together, and the size of the surfaces. -/
structure PresentedFrame (K M : Type*) where
  surfaceSize : ISize
  layers : List (FlutterLayer K M RenderTarget)

/-- `EmbedderExternalViewEmbedder` -/
structure ExternalViewEmbedder (K M : Type*) [LinearOrder K] where
  pendingFrameSize : ISize
  pendingDevicePixelRatio : K
  pendingSurfaceTransformation : M
  pendingRecorders : ℤ → Option (List CanvasCall)
  /-- `pending_canvas_spies_`, with `did_draw_` -/
  pendingCanvasSpies : ℤ → Option Bool
  pendingParams : ℤ → Option (EmbeddedViewParams K M)
  compositionOrder : List ℤ
  rootRenderTarget : Option RenderTarget
  rootPictureRecorder : Option (List CanvasCall)
  registry : RegistryKey → Option RenderTarget
  outside : Outside M
  /-- What `present_callback_` has been given. -/
  presented : List (PresentedFrame K M)

namespace Outside

variable (embedder : Embedder) (outside : Outside M)

/-- A call of `create_render_target_callback_` -/
def createRenderTarget (size : ISize) : Option RenderTarget × Outside M :=
  ((embedder.createRenderTarget outside.clock size).map (⟨outside.clock, ·⟩),
    { outside with clock := outside.clock + 1 })

/-- `finishRecordingAsPicture` -/
def finishRecording (calls : List CanvasCall) : Option (List CanvasCall) × Outside M :=
  (if embedder.finishesRecording outside.clock then some calls else none,
    { outside with clock := outside.clock + 1 })

/-- `RenderPictureToRenderTarget`, for a target that exists -/
def renderPictureToRenderTarget (transformation : M) (picture : Option (List CanvasCall))
    (renderTarget : RenderTarget) : Bool × Outside M :=
  match picture, renderTarget.renderSurface with
  | some picture, some _ =>
    if embedder.providesCanvas outside.clock then
      (true, ⟨outside.clock + 1,
        update outside.contents renderTarget.id (some (transformation, picture))⟩)
    else (false, { outside with clock := outside.clock + 1 })
  | _, _ => (false, outside)

end Outside

namespace ExternalViewEmbedder

variable (ops : MatrixOperations K M) (embedder : Embedder) (s : ExternalViewEmbedder K M)

/-- The constructor. -/
def init : ExternalViewEmbedder K M where
  pendingFrameSize := (0, 0)
  pendingDevicePixelRatio := 1
  pendingSurfaceTransformation := 1
  pendingRecorders _ := none
  pendingCanvasSpies _ := none
  pendingParams _ := none
  compositionOrder := []
  rootRenderTarget := none
  rootPictureRecorder := none
  registry _ := none
  outside := ⟨0, fun _ => none⟩
  presented := []

/-- `Reset` -/
def reset : ExternalViewEmbedder K M :=
  { s with
    pendingRecorders := fun _ => none
    pendingCanvasSpies := fun _ => none
    pendingParams := fun _ => none
    compositionOrder := [] }

/-- `CancelFrame` -/
def cancelFrame : ExternalViewEmbedder K M := s.reset

/-- `TransformedSurfaceSize` -/
def transformedSurfaceSize (size : ISize) (transformation : M) : ISize :=
  let transformedRect := ops.mapRect transformation (SkRect.makeXYWH 0 ((size.1 : K), (size.2 : K)))
  (truncToInt (transformedRect.right - transformedRect.left),
    truncToInt (transformedRect.bottom - transformedRect.top))

/-- The size of the surfaces of a frame. -/
def surfaceSize : ISize :=
  transformedSurfaceSize ops s.pendingFrameSize s.pendingSurfaceTransformation

/-- The root render target of the last frame, unless it is discarded. -/
def keptRootRenderTarget (surfaceSize : ISize) : Option RenderTarget :=
  s.rootRenderTarget.filter fun target => target.renderSurface = some surfaceSize

/-- `BeginFrame`, with the matrix of `surface_transformation_callback_` if there is this callback -/
def beginFrame (frameSize : ISize) (devicePixelRatio : K) (transformation : Option M) :
    ExternalViewEmbedder K M :=
  let s :=
    { s.reset with
      pendingFrameSize := frameSize
      pendingDevicePixelRatio := devicePixelRatio
      pendingSurfaceTransformation := transformation.getD 1
      rootPictureRecorder := some [] }
  match s.keptRootRenderTarget (s.surfaceSize ops) with
  | some target => { s with rootRenderTarget := some target }
  | none =>
    let (rootRenderTarget, outside) := s.outside.createRenderTarget embedder (s.surfaceSize ops)
    { s with rootRenderTarget, outside }

/-- `PrerollCompositeEmbeddedView` -/
def prerollCompositeEmbeddedView (viewId : ℤ) (params : EmbeddedViewParams K M) :
    Option (ExternalViewEmbedder K M) :=
  if (s.pendingRecorders viewId).isNone ∧ (s.pendingCanvasSpies viewId).isNone ∧
      (s.pendingParams viewId).isNone ∧ viewId ∉ s.compositionOrder then
    some
      { s with
        pendingRecorders := update s.pendingRecorders viewId (some [])
        pendingCanvasSpies := update s.pendingCanvasSpies viewId (some false)
        pendingParams := update s.pendingParams viewId (some params)
        compositionOrder := s.compositionOrder ++ [viewId] }
  else none

/-- A call of the canvas that `GetRootCanvas` returns -/
def drawRoot (call : CanvasCall) : Option (ExternalViewEmbedder K M) :=
  s.rootPictureRecorder.map fun calls => { s with rootPictureRecorder := some (calls ++ [call]) }

/-- A call of the canvas that `CompositeEmbeddedView` returns -/
def drawOverlay (viewId : ℤ) (call : CanvasCall) : Option (ExternalViewEmbedder K M) :=
  match s.pendingRecorders viewId, s.pendingCanvasSpies viewId with
  | some calls, some didDraw =>
    some
      { s with
        pendingRecorders := update s.pendingRecorders viewId (some (calls ++ [call]))
        pendingCanvasSpies :=
          update s.pendingCanvasSpies viewId (some (didDraw || call.marksDraw)) }
  | _, _ => none

/-! ## Submitting a frame -/

/-- What `SubmitFrame` collects: `render_targets_used` and the layers of `presented_layers` -/
structure Submission (K M : Type*) where
  renderTargetsUsed : RegistryKey → Option RenderTarget
  presentedLayers : List (FlutterLayer K M RenderTarget)

/-- `presented_layers`, without the layers -/
def embedderLayers : EmbedderLayers K M :=
  ⟨((s.pendingFrameSize.1 : K), (s.pendingFrameSize.2 : K)), s.pendingDevicePixelRatio,
    s.pendingSurfaceTransformation⟩

/-- The target for the overlay of a view: the one in the registry, or a new one. -/
def acquireRenderTarget (key : RegistryKey) (outside : Outside M) :
    Option RenderTarget × Outside M :=
  match s.registry key with
  | some renderTarget => (some renderTarget, outside)
  | none => outside.createRenderTarget embedder key.size

/-- The overlay of a view, which something was drawn into. `SubmitFrame` goes on with what it has
collected, or returns false. -/
def submitOverlay (viewId : ℤ) (picture : List CanvasCall) (submission : Submission K M)
    (outside : Outside M) : Option (Submission K M) × Outside M :=
  let registryKey : RegistryKey := ⟨viewId, s.surfaceSize ops⟩
  match s.acquireRenderTarget embedder registryKey outside with
  | (none, outside) => (none, outside)
  | (some renderTarget, outside) =>
    match outside.renderPictureToRenderTarget embedder s.pendingSurfaceTransformation picture
      renderTarget with
    | (false, outside) => (none, outside)
    | (true, outside) =>
      (some
        ⟨update submission.renderTargetsUsed registryKey (some renderTarget),
          submission.presentedLayers ++ [s.embedderLayers.backingStoreLayer ops renderTarget]⟩,
        outside)

/-- A round of the loop of `SubmitFrame` -/
def submitView (viewId : ℤ) (submission : Submission K M) (outside : Outside M) :
    Option (Option (Submission K M) × Outside M) :=
  match s.pendingParams viewId, s.pendingRecorders viewId, s.pendingCanvasSpies viewId with
  | some params, some calls, some didDraw =>
    match outside.finishRecording embedder calls with
    | (none, outside) => some (none, outside)
    | (some picture, outside) =>
      let submission :=
        { submission with
          presentedLayers := submission.presentedLayers ++
            [s.embedderLayers.platformViewLayer ops viewId params] }
      if !didDraw then some (some submission, outside)
      else some (s.submitOverlay ops embedder viewId picture submission outside)
  | _, _, _ => none

/-- The loop of `SubmitFrame` -/
def submitViews : List ℤ → Submission K M → Outside M →
    Option (Option (Submission K M) × Outside M)
  | [], submission, outside => some (some submission, outside)
  | viewId :: viewIds, submission, outside =>
    match s.submitView ops embedder viewId submission outside with
    | none => none
    | some (none, outside) => some (none, outside)
    | some (some submission, outside) => submitViews viewIds submission outside

/-- `SubmitFrame` -/
def submitFrame : Option (Bool × ExternalViewEmbedder K M) :=
  match s.rootRenderTarget with
  | none => some (false, s)
  | some rootRenderTarget =>
    match s.rootPictureRecorder with
    | none => none
    | some calls =>
      let (picture, outside) := s.outside.finishRecording embedder calls
      match outside.renderPictureToRenderTarget embedder s.pendingSurfaceTransformation picture
        rootRenderTarget with
      | (false, outside) => some (false, { s with outside })
      | (true, outside) =>
        let s := { s with outside, rootPictureRecorder := none }
        let submission : Submission K M :=
          ⟨fun _ => none, [s.embedderLayers.backingStoreLayer ops rootRenderTarget]⟩
        (s.submitViews ops embedder s.compositionOrder submission outside).map fun
          | (none, outside) => (false, { s with outside })
          | (some submission, outside) =>
            (true, { s with
              outside
              presented := s.presented ++ [⟨s.surfaceSize ops, submission.presentedLayers⟩]
              registry := submission.renderTargetsUsed })

/-! ## Frames -/

/-- What is done between `BeginFrame` and `SubmitFrame` or `CancelFrame` -/
inductive FrameCall (K M : Type*) [LinearOrder K] where
  | preroll (viewId : ℤ) (params : EmbeddedViewParams K M)
  | drawRoot (call : CanvasCall)
  | drawOverlay (viewId : ℤ) (call : CanvasCall)

structure Frame (K M : Type*) [LinearOrder K] where
  frameSize : ISize
  devicePixelRatio : K
  transformation : Option M
  calls : List (FrameCall K M)
  /-- The frame ends with `SubmitFrame`, not with `CancelFrame`. -/
  submitted : Bool

def perform : FrameCall K M → Option (ExternalViewEmbedder K M)
  | .preroll viewId params => s.prerollCompositeEmbeddedView viewId params
  | .drawRoot call => s.drawRoot call
  | .drawOverlay viewId call => s.drawOverlay viewId call

/-- A frame without its end. -/
def draw (frame : Frame K M) : Option (ExternalViewEmbedder K M) :=
  frame.calls.foldlM perform
    (s.beginFrame ops embedder frame.frameSize frame.devicePixelRatio frame.transformation)

/-- A whole frame. -/
def step (frame : Frame K M) : Option (ExternalViewEmbedder K M) :=
  (s.draw ops embedder frame).bind fun s =>
    if frame.submitted then (s.submitFrame ops embedder).map (·.2) else some s.cancelFrame

end ExternalViewEmbedder

end Flutter
