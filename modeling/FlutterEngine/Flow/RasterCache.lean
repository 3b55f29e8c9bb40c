import FlutterEngine.Flow.Canvas

/-!
# The raster cache

`flow/raster_cache.cc`: images of pictures and of layers, kept from frame to frame while they are
used. The key of an image is the number of the picture or layer and the matrix it was painted with,
up to whole pixels of translation. An image is here what was drawn into it.

Images are traced and checkerboards drawn for debugging only; both are left out.
-/

namespace Flow

open Lib

variable {K : Type*} [Field K] [LinearOrder K] [FloorRing K]

/-! ## Keys -/

/-- `SkScalarTruncToScalar` -/
def truncToScalar (x : K) : K := truncToInt x

/-- `SkScalarFraction` -/
def fraction (x : K) : K := x - truncToScalar x

/-- `RasterCacheKey` -/
structure RasterCacheKey (K : Type*) where
  id : ℕ
  matrix : SkMatrix K
deriving DecidableEq

/-- The constructor, which keeps the fractions of the translation only. -/
def RasterCacheKey.of (id : ℕ) (ctm : SkMatrix K) : RasterCacheKey K :=
  ⟨id, { ctm with tx := fraction ctm.tx, ty := fraction ctm.ty }⟩

/-! ## Images -/

/-- A `RasterCacheResult` with an image. -/
structure RasterCacheResult (K : Type*) [LinearOrder K] where
  logicalRect : SkRect K
  width : ℤ
  height : ℤ
  /-- What was drawn into the image. -/
  image : List (Draw K)

/-- `GetDeviceBounds` -/
def getDeviceBounds (skia : Skia K) (rect : SkRect K) (ctm : SkMatrix K) : SkIRect :=
  (skia.mapRect ctm rect).roundOut

/-- The corner of a rectangle of pixels. -/
def corner (rect : SkIRect) : K × K := (rect.left, rect.top)

/-- `Rasterize`. The draw function is given the matrix of the canvas of the new surface. -/
def rasterize (skia : Skia K) (ctm : SkMatrix K) (logicalRect : SkRect K)
    (drawFunction : SkMatrix K → List (Draw K)) : Option (RasterCacheResult K) :=
  let cacheRect := getDeviceBounds skia logicalRect ctm
  let width := cacheRect.right - cacheRect.left
  let height := cacheRect.bottom - cacheRect.top
  if skia.makesSurface width height then
    some ⟨logicalRect, width, height,
      drawFunction (SkMatrix.preTranslate 1 (-corner cacheRect) * ctm)⟩
  else none

/-- `RasterizePicture` -/
def rasterizePicture (skia : Skia K) (picture : Picture K) (ctm : SkMatrix K) :
    Option (RasterCacheResult K) :=
  rasterize skia ctm picture.cullRect fun matrix => [⟨.picture picture, matrix, []⟩]

/-- `RasterCacheResult::draw`, on a canvas with a total matrix and with the alpha of the paint -/
def RasterCacheResult.draw (skia : Skia K) (result : RasterCacheResult K)
    (totalMatrix : SkMatrix K) (alpha : Option ℕ) : List (Draw K) :=
  let position : K × K := corner (getDeviceBounds skia result.logicalRect totalMatrix)
  let bounds := SkRect.makeXYWH position ((result.width : K), (result.height : K))
  result.image.map fun draw => (draw.moved position).within (.image bounds alpha)

/-! ## The cache -/

/-- `RasterCache::Entry` -/
structure Entry (K : Type*) [LinearOrder K] where
  usedThisFrame : Bool := false
  accessCount : ℕ := 0
  image : Option (RasterCacheResult K) := none

/-- `RasterCache` -/
structure RasterCache (K : Type*) [LinearOrder K] where
  accessThreshold : ℕ
  pictureCacheLimitPerFrame : ℕ
  pictureCachedThisFrame : ℕ
  pictureCache : RasterCacheKey K → Option (Entry K)
  layerCache : RasterCacheKey K → Option (Entry K)

/-- `CanRasterizePicture` -/
def canRasterizePicture : Option (Picture K) → Bool
  | none => false
  | some picture => !picture.cullRect.isEmpty && picture.cullRectIsFinite

/-- `IsPictureWorthRasterizing` -/
def isPictureWorthRasterizing (picture : Option (Picture K)) (willChange isComplex : Bool) : Bool :=
  if willChange then false
  else if !canRasterizePicture picture then false
  else if isComplex then true
  else picture.any (5 < ·.approximateOpCount)

/-- An entry that is used: it is new if there is none, and it counts the accesses up to the
threshold. -/
def Entry.accessed (accessThreshold : ℕ) (entry : Option (Entry K)) : Entry K :=
  let entry := entry.getD {}
  { entry with usedThisFrame := true, accessCount := min (entry.accessCount + 1) accessThreshold }

namespace RasterCache

/-- The constructor. -/
def init (accessThreshold pictureCacheLimitPerFrame : ℕ) : RasterCache K :=
  ⟨accessThreshold, pictureCacheLimitPerFrame, 0, fun _ => none, fun _ => none⟩

variable (skia : Skia K) (cache : RasterCache K)

/-- `Prepare` for a layer. `paint` paints the layer, with a raster cache, on a canvas with a
matrix. -/
def prepareLayer (uniqueId : ℕ) (paintBounds : SkRect K) (ctm : SkMatrix K)
    (paint : RasterCache K → SkMatrix K → List (Draw K)) : RasterCache K :=
  let cacheKey := RasterCacheKey.of uniqueId ctm
  let entry := Entry.accessed cache.accessThreshold (cache.layerCache cacheKey)
  let cache := { cache with layerCache := Function.update cache.layerCache cacheKey (some entry) }
  if entry.image.isSome then cache
  else
    let image := rasterize skia ctm paintBounds (paint cache)
    { cache with
      layerCache := Function.update cache.layerCache cacheKey (some { entry with image }) }

/-- `Prepare` for a picture -/
def preparePicture (picture : Option (Picture K)) (transformationMatrix : SkMatrix K)
    (isComplex willChange : Bool) : Bool × RasterCache K :=
  if cache.pictureCacheLimitPerFrame ≤ cache.pictureCachedThisFrame then (false, cache)
  else if !isPictureWorthRasterizing picture willChange isComplex then (false, cache)
  else if !skia.isDecomposable transformationMatrix then (false, cache)
  else
    match picture with
    | none => (false, cache)
    | some picture =>
      let cacheKey := RasterCacheKey.of picture.uniqueId transformationMatrix
      let entry := Entry.accessed cache.accessThreshold (cache.pictureCache cacheKey)
      let put (entry : Entry K) := Function.update cache.pictureCache cacheKey (some entry)
      if entry.accessCount < cache.accessThreshold ∨ cache.accessThreshold = 0 then
        -- The threshold has not been reached yet.
        (false, { cache with pictureCache := put entry })
      else if entry.image.isSome then
        (true, { cache with pictureCache := put entry })
      else
        let image := rasterizePicture skia picture transformationMatrix
        (true, { cache with
          pictureCache := put { entry with image }
          pictureCachedThisFrame := cache.pictureCachedThisFrame + 1 })

/-- `Get` for a picture -/
def getPicture (picture : Picture K) (ctm : SkMatrix K) : Option (RasterCacheResult K) :=
  (cache.pictureCache (.of picture.uniqueId ctm)).bind (·.image)

/-- `Get` for a layer -/
def getLayer (uniqueId : ℕ) (ctm : SkMatrix K) : Option (RasterCacheResult K) :=
  (cache.layerCache (.of uniqueId ctm)).bind (·.image)

/-- `SweepOneCacheAfterFrame` -/
def sweepOneCacheAfterFrame (entries : RasterCacheKey K → Option (Entry K)) :
    RasterCacheKey K → Option (Entry K) := fun key =>
  ((entries key).filter (·.usedThisFrame)).map fun entry => { entry with usedThisFrame := false }

/-- `SweepAfterFrame` -/
def sweepAfterFrame : RasterCache K :=
  { cache with
    pictureCache := sweepOneCacheAfterFrame cache.pictureCache
    layerCache := sweepOneCacheAfterFrame cache.layerCache
    pictureCachedThisFrame := 0 }

end RasterCache

end Flow
