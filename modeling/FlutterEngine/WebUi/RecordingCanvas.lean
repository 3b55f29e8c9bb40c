import FlutterEngine.WebUi.Matrix4

/-!
# Paint bounds of a recording canvas

`RecordingCanvas` forwards each call that saves, transforms, clips or draws to a `_PaintBounds`,
which keeps the current matrix, a rectangle around the current clip and a rectangle around what has
been drawn. A rounded rectangle, a path, an image and a paragraph are here what `_PaintBounds` sees
of them, a rectangle. The commands that are recorded at the same time are left out, and so are the
tests for NaN in `computeBounds`.
-/

namespace WebUi

open Lib Matrix4

variable {K : Type*} [Field K] [LinearOrder K]

/-! ## Calls -/

/-- The sides of a rounded rectangle. -/
structure RRect (K : Type*) where
  left : K
  top : K
  right : K
  bottom : K

def RRect.outerRect (rrect : RRect K) : Rect K := ⟨rrect.left, rrect.top, rrect.right, rrect.bottom⟩

structure Path (K : Type*) where
  getBounds : Rect K

structure Paragraph (K : Type*) where
  isLaidOut : Bool
  width : K
  height : K

/-- `inflate` -/
def inflate (rect : Rect K) (delta : K) : Rect K :=
  ⟨rect.left - delta, rect.top - delta, rect.right + delta, rect.bottom + delta⟩

inductive Transformation (K : Type*) where
  | translate (dx dy : K)
  | scale (sx sy : K)
  | rotate (radians : K)
  | transform (matrix4 : Affine K)
  | skew (sx sy : K)

inductive Clip (K : Type*) where
  | clipRect (rect : Rect K)
  | clipRRect (rrect : RRect K)
  | clipPath (path : Path K)

inductive Draw (K : Type*) where
  | drawRect (rect : Rect K) (strokeWidth : Option K)
  | drawRRect (rrect : RRect K) (strokeWidth : Option K)
  | drawOval (rect : Rect K) (strokeWidth : Option K)
  | drawCircle (c : K × K) (radius : K) (strokeWidth : Option K)
  | drawPath (path : Path K) (strokeWidth : Option K)
  | drawImageRect (dst : Rect K)
  | drawParagraph (paragraph : Paragraph K) (offset : K × K)

inductive Call (K : Type*) where
  | save
  | restore
  | transform (transformation : Transformation K)
  | clip (clip : Clip K)
  | draw (draw : Draw K)

/-- The rectangle of a clip. -/
def Clip.rect : Clip K → Rect K
  | clipRect rect => rect
  | clipRRect rrect => rrect.outerRect
  | clipPath path => path.getBounds

/-- The bounds of what is drawn. A paragraph without a layout is ignored. -/
def Draw.bounds : Draw K → Option (Rect K)
  | drawRect rect strokeWidth =>
    match strokeWidth with
    | some strokeWidth =>
      some (if strokeWidth ≠ 0 then inflate rect (strokeWidth / (2 : ℕ)) else rect)
    | none => some rect
  | drawRRect rrect strokeWidth =>
    let strokeWidth := strokeWidth.getD 0
    some ⟨min rrect.left rrect.right - strokeWidth, min rrect.top rrect.bottom - strokeWidth,
      max rrect.left rrect.right + strokeWidth, max rrect.top rrect.bottom + strokeWidth⟩
  | drawOval rect strokeWidth =>
    match strokeWidth with
    | some strokeWidth => some (inflate rect strokeWidth)
    | none => some rect
  | drawCircle c radius strokeWidth =>
    let strokeWidth := strokeWidth.getD 0
    some ⟨c.1 - radius - strokeWidth, c.2 - radius - strokeWidth, c.1 + radius + strokeWidth,
      c.2 + radius + strokeWidth⟩
  | drawPath path strokeWidth =>
    match strokeWidth with
    | some strokeWidth => some (inflate path.getBounds strokeWidth)
    | none => some path.getBounds
  | drawImageRect dst => some dst
  | drawParagraph paragraph offset =>
    if paragraph.isLaidOut then
      some ⟨offset.1, offset.2, offset.1 + paragraph.width, offset.2 + paragraph.height⟩
    else
      none

/-! ## Bounds -/

/-- `_PaintBounds` -/
structure PaintBounds (K : Type*) where
  maxPaintBounds : Rect K
  /-- `_left`, `_top`, `_right` and `_bottom`, if `_didPaintInsideClipArea` -/
  painted : Option (Rect K)
  /-- The stacks start with the entry that was added last. -/
  transforms : List (Matrix4 K)
  clipStack : List (Option (Rect K))
  currentMatrixIsIdentity : Bool
  currentMatrix : Matrix4 K
  /-- `_currentClipLeft`, `_currentClipTop`, `_currentClipRight` and `_currentClipBottom`, if
  `_clipRectInitialized` -/
  currentClip : Option (Rect K)

namespace PaintBounds

def init (maxPaintBounds : Rect K) : PaintBounds K where
  maxPaintBounds
  painted := none
  transforms := []
  clipStack := []
  currentMatrixIsIdentity := true
  currentMatrix := 1
  currentClip := none

variable (s : PaintBounds K)

def translate (dx dy : K) : PaintBounds K :=
  { s with
    currentMatrixIsIdentity := if dx ≠ 0 ∨ dy ≠ 0 then false else s.currentMatrixIsIdentity
    currentMatrix := Matrix4.translate s.currentMatrix dx dy }

def scale (sx sy : K) : PaintBounds K :=
  { s with
    currentMatrixIsIdentity := if sx ≠ 1 ∨ sy ≠ 1 then false else s.currentMatrixIsIdentity
    currentMatrix := Matrix4.scale s.currentMatrix sx sy }

def rotateZ (trig : Trigonometry K) (radians : K) : PaintBounds K :=
  { s with
    currentMatrixIsIdentity := if radians ≠ 0 then false else s.currentMatrixIsIdentity
    currentMatrix := Matrix4.rotateZ s.currentMatrix trig radians }

def transform (matrix4 : Matrix4 K) : PaintBounds K :=
  { s with
    currentMatrixIsIdentity := isIdentity (s.currentMatrix * matrix4)
    currentMatrix := s.currentMatrix * matrix4 }

def skew (sx sy : K) : PaintBounds K :=
  { s with
    currentMatrixIsIdentity := false
    currentMatrix := s.currentMatrix * !![1, sx, 0, 0; sy, 1, 0, 0; 0, 0, 1, 0; 0, 0, 0, 1] }

/-- The clip, together with another rectangle, in `clipRect`. -/
def narrowed (clip : Option (Rect K)) (rect : Rect K) : Rect K :=
  match clip with
  | none => rect
  | some clip =>
    ⟨if rect.left > clip.left then rect.left else clip.left,
      if rect.top > clip.top then rect.top else clip.top,
      if rect.right < clip.right then rect.right else clip.right,
      if rect.bottom < clip.bottom then rect.bottom else clip.bottom⟩

/-- `clipRect` -/
def clipRect (rect : Rect K) : PaintBounds K :=
  let rect :=
    if s.currentMatrixIsIdentity then
      rect
    else
      let leftTop := transform3 s.currentMatrix (rect.left, rect.top)
      let rightTop := transform3 s.currentMatrix (rect.right, rect.top)
      let leftBottom := transform3 s.currentMatrix (rect.left, rect.bottom)
      let rightBottom := transform3 s.currentMatrix (rect.right, rect.bottom)
      ⟨min (min (min leftTop.1 rightTop.1) leftBottom.1) rightBottom.1,
        min (min (min leftTop.2 rightTop.2) leftBottom.2) rightBottom.2,
        max (max (max leftTop.1 rightTop.1) leftBottom.1) rightBottom.1,
        max (max (max leftTop.2 rightTop.2) leftBottom.2) rightBottom.2⟩
  { s with currentClip := some (narrowed s.currentClip rect) }

/-- What a clip leaves of a rectangle, in `growLTRB`. -/
def clipped (clip : Option (Rect K)) (rect : Rect K) : Option (Rect K) :=
  match clip with
  | none => some rect
  | some clip =>
    if rect.left > clip.right then none
    else if rect.right < clip.left then none
    else if rect.top > clip.bottom then none
    else if rect.bottom < clip.top then none
    else some ⟨if rect.left < clip.left then clip.left else rect.left,
      if rect.top < clip.top then clip.top else rect.top,
      if rect.right > clip.right then clip.right else rect.right,
      if rect.bottom > clip.bottom then clip.bottom else rect.bottom⟩

/-- What has been painted, with another rectangle, in `growLTRB`. -/
def extended (painted : Option (Rect K)) (rect : Rect K) : Rect K :=
  match painted with
  | some painted =>
    ⟨min (min painted.left rect.left) rect.right, min (min painted.top rect.top) rect.bottom,
      max (max painted.right rect.left) rect.right, max (max painted.bottom rect.top) rect.bottom⟩
  | none =>
    ⟨min rect.left rect.right, min rect.top rect.bottom, max rect.left rect.right,
      max rect.top rect.bottom⟩

/-- `growLTRB` -/
def growLTRB (left top right bottom : K) : PaintBounds K :=
  if left = right ∨ top = bottom then
    s
  else
    let transformed :=
      if s.currentMatrixIsIdentity then
        ⟨left, top, right, bottom⟩
      else
        transformLTRB s.currentMatrix left top right bottom
    match clipped s.currentClip transformed with
    | none => s
    | some rect => { s with painted := some (extended s.painted rect) }

/-- `grow` -/
def grow (rect : Rect K) : PaintBounds K := s.growLTRB rect.left rect.top rect.right rect.bottom

/-- What `drawColor` does with the bounds. -/
def drawColor : PaintBounds K := s.grow s.maxPaintBounds

/-- What `drawPaint` does with the bounds. -/
def drawPaint : PaintBounds K := s.grow s.maxPaintBounds

/-- `saveTransformsAndClip` -/
def saveTransformsAndClip : PaintBounds K :=
  { s with
    transforms := s.currentMatrix :: s.transforms
    clipStack := s.currentClip :: s.clipStack }

/-- `restoreTransformsAndClip`. It throws if there is nothing to restore. -/
def restoreTransformsAndClip : Option (PaintBounds K) :=
  match s.transforms, s.clipStack with
  | currentMatrix :: transforms, currentClip :: clipStack =>
    some { s with currentMatrix, transforms, currentClip, clipStack }
  | _, _ => none

/-- `computeBounds` -/
def computeBounds : Rect K :=
  match s.painted with
  | none => ⟨0, 0, 0, 0⟩
  | some painted =>
    let left := min painted.left painted.right
    let right := max painted.left painted.right
    let top := min painted.top painted.bottom
    let bottom := max painted.top painted.bottom
    if right < s.maxPaintBounds.left ∨ bottom < s.maxPaintBounds.top then
      ⟨0, 0, 0, 0⟩
    else
      ⟨max left s.maxPaintBounds.left, max top s.maxPaintBounds.top,
        min right s.maxPaintBounds.right, min bottom s.maxPaintBounds.bottom⟩

def transformBy (trig : Trigonometry K) : Transformation K → PaintBounds K
  | .translate dx dy => s.translate dx dy
  | .scale sx sy => s.scale sx sy
  | .rotate radians => s.rotateZ trig radians
  | .transform matrix4 => s.transform matrix4.toMatrix4
  | .skew sx sy => s.skew sx sy

/-- A call of a method of `RecordingCanvas`. -/
def step (trig : Trigonometry K) (s : PaintBounds K) : Call K → Option (PaintBounds K)
  | .save => some s.saveTransformsAndClip
  | .restore => s.restoreTransformsAndClip
  | .transform transformation => some (s.transformBy trig transformation)
  | .clip clip => some (s.clipRect clip.rect)
  | .draw draw =>
    match draw.bounds with
    | some bounds => some (s.grow bounds)
    | none => some s

end PaintBounds

end WebUi
