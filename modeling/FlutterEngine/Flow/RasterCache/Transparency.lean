import FlutterEngine.Flow.RasterCache.Retention

/-!
# Drawing from the raster cache

A cached image is drawn at the device bounds of its picture, without the matrix of the canvas.
Matrices with the same key differ by whole pixels of translation, and so do the device bounds.

* `exists_eq_of_key_eq` and `getDeviceBounds_moved` are these two facts.
* `Genuine` is the invariant of the cache: an image under the number of a picture was made from it.
  Each `Prepare` and each sweep keeps it.
* `draw_getPicture`: a cached image shows its picture as the canvas would.
* `getLayer_prepareLayer`: the image of a layer is made once and then kept.
-/

namespace Flow

open Lib Function

variable {K : Type*} [Field K] [LinearOrder K] {skia : Skia K} {picture : Picture K}
  {m ctm : SkMatrix K} {result : RasterCacheResult K} {cache : RasterCache K} {i j : ℕ}

/-- Moving back by the corner leaves the whole pixels. -/
theorem postTranslate_preTranslate_mul (hm : m.hasPerspective = false) (u v : K × K) :
    (SkMatrix.preTranslate 1 (-u) * m).postTranslate (u + v) =
      { m with tx := m.tx + v.1, ty := m.ty + v.2 } := by
  simp only [SkMatrix.hasPerspective, Bool.not_eq_false', Bool.and_eq_true, decide_eq_true_eq] at hm
  obtain ⟨⟨hp, hq⟩, hw⟩ := hm
  ext <;> simp [SkMatrix.postTranslate, SkMatrix.preTranslate, SkMatrix.makeTrans,
    Matrix3.translation, Matrix3.mul_def, Mul.mul, hp, hq, hw]

variable [FloorRing K]

/-- Matrices with the same key differ by whole pixels. -/
theorem exists_eq_of_key_eq (h : RasterCacheKey.of i m = .of j ctm) :
    ∃ x y : ℤ, ctm = { m with tx := m.tx + x, ty := m.ty + y } := by
  obtain ⟨-, h⟩ := RasterCacheKey.mk.inj h
  simp only [fraction, truncToScalar, Matrix3.mk.injEq] at h
  obtain ⟨ha, hb, hx, hc, hd, hy, hp, hq, hw⟩ := h
  refine ⟨truncToInt ctm.tx - truncToInt m.tx, truncToInt ctm.ty - truncToInt m.ty, ?_⟩
  ext <;> simp [*]
  · rw [add_sub_left_comm, hx, add_sub_cancel]
  · rw [add_sub_left_comm, hy, add_sub_cancel]

variable [IsStrictOrderedRing K]

/-- The device bounds move by whole pixels, too. -/
theorem getDeviceBounds_moved (skia : Skia K) (hm : m.hasPerspective = false) (r : SkRect K)
    (x y : ℤ) :
    getDeviceBounds skia r { m with tx := m.tx + x, ty := m.ty + y } =
      ⟨(getDeviceBounds skia r m).left + x, (getDeviceBounds skia r m).top + y,
        (getDeviceBounds skia r m).right + x, (getDeviceBounds skia r m).bottom + y⟩ := by
  have hm' : SkMatrix.hasPerspective { m with tx := m.tx + x, ty := m.ty + y } = false := hm
  simp [getDeviceBounds, Skia.mapRect, hm, hm', SkRect.roundOut, Rect.image, Rect.bounding,
    Matrix3.apply, ← add_assoc, min_add_add_right, max_add_add_right]

/-- The image of a picture, drawn under another matrix with the same key. -/
lemma draw_of_rasterizePicture (h : rasterizePicture skia picture m = some result)
    (hkey : RasterCacheKey.of i m = .of j ctm) (hctm : ctm.hasPerspective = false)
    (alpha : Option ℕ) :
    let bounds := getDeviceBounds skia picture.cullRect ctm
    result.width = bounds.right - bounds.left ∧ result.height = bounds.bottom - bounds.top ∧
      result.draw skia ctm alpha = [⟨.picture picture, ctm, [.image (SkRect.makeXYWH
        (corner bounds) ((result.width : K), (result.height : K))) alpha]⟩] := by
  obtain ⟨x, y, rfl⟩ := exists_eq_of_key_eq hkey
  have hm : m.hasPerspective = false := hctm
  have hbounds := getDeviceBounds_moved skia hm picture.cullRect x y
  obtain ⟨_, heq⟩ := Option.ite_none_right_eq_some.mp h
  cases heq
  have hmatrix := postTranslate_preTranslate_mul hm
    (corner (getDeviceBounds skia picture.cullRect m)) (x, y)
  refine ⟨by simp [hbounds], by simp [hbounds], ?_⟩
  simp only [RasterCacheResult.draw, hbounds, List.map_cons, List.map_nil, Draw.moved, Draw.within,
    corner, Int.cast_add]
  simp only [corner, Prod.mk_add_mk] at hmatrix
  rw [hmatrix]

namespace RasterCache

/-- Every image under the number of a picture has been made from it. -/
def Genuine (skia : Skia K) (picture : Picture K) (cache : RasterCache K) : Prop :=
  ∀ key result, key.id = picture.uniqueId → (cache.pictureCache key).bind (·.image) = some result →
    ∃ m, key = .of picture.uniqueId m ∧ rasterizePicture skia picture m = some result

omit [IsStrictOrderedRing K] in
/-- `Prepare` makes an image from the picture that it is given. -/
lemma Genuine.prepare (h : Genuine skia picture cache) {call : PrepareCall K}
    (hcall : ∀ p ∈ call.picture, p.uniqueId = picture.uniqueId → p = picture) :
    Genuine skia picture (cache.prepare skia call) := by
  intro key result hid himage
  rcases prepare_cases cache call key with ⟨-, heq⟩ | ⟨⟨hkey, ⟨hworth, hvalid⟩, hlimit⟩, -⟩
  · exact h key result hid (heq ▸ himage)
  · obtain ⟨p, hp, rfl⟩ := Option.map_eq_some_iff.mp hkey
    obtain rfl := hcall p hp hid
    have hold : ∀ {t entry}, (Entry.accessed t entry).image = some result →
        Option.bind entry (·.image) = some result := by
      rintro t (- | entry) ht
      · cases ht
      · exact ht
    rw [hp] at hworth
    simp only [RasterCache.prepare, preparePicture, hp, hworth, hvalid, hlimit.not_ge, if_false,
      Bool.not_true, Bool.false_eq_true] at himage
    split at himage
    · exact h _ result hid (hold (by simpa using himage))
    · split at himage
      · exact h _ result hid (hold (by simpa using himage))
      · exact ⟨_, rfl, by simpa using himage⟩

omit [IsStrictOrderedRing K] in
/-- The calls of `Prepare` within a frame keep images genuine. -/
lemma Genuine.prepareAll (h : Genuine skia picture cache) {calls : List (PrepareCall K)}
    (hcalls : ∀ call ∈ calls, ∀ p ∈ call.picture, p.uniqueId = picture.uniqueId → p = picture) :
    Genuine skia picture (cache.prepareAll skia calls) :=
  List.foldlRecOn calls _ h fun _ h call hcall => h.prepare (hcalls call hcall)

omit [IsStrictOrderedRing K] in
/-- A sweep only drops entries. -/
lemma Genuine.sweepAfterFrame (h : Genuine skia picture cache) :
    Genuine skia picture cache.sweepAfterFrame := by
  intro key result hid himage
  refine h key result hid ?_
  obtain ⟨swept, hswept, hresult⟩ := Option.bind_eq_some_iff.mp himage
  obtain ⟨entry, hentry, rfl⟩ := Option.map_eq_some_iff.mp hswept
  rw [(Option.filter_eq_some_iff.mp hentry).1]
  exact hresult

/-- At any point of any frame, what `Get` returns has the size that `draw` asserts, and drawing it
is drawing the picture under the matrix of the canvas, in the device bounds of the picture. -/
theorem draw_getPicture (skia : Skia K) (accessThreshold pictureCacheLimitPerFrame : ℕ)
    (history : List (List (PrepareCall K))) (front : List (PrepareCall K)) (picture : Picture K)
    (ctm : SkMatrix K) (alpha : Option ℕ)
    (hids : ∀ frame ∈ front :: history, ∀ call ∈ frame, ∀ p ∈ call.picture,
      p.uniqueId = picture.uniqueId → p = picture)
    (hctm : ctm.hasPerspective = false)
    (hget : ((history.foldl (afterFrame skia)
      (init accessThreshold pictureCacheLimitPerFrame)).prepareAll skia front).getPicture picture
        ctm = some result) :
    let bounds := getDeviceBounds skia picture.cullRect ctm
    result.width = bounds.right - bounds.left ∧ result.height = bounds.bottom - bounds.top ∧
      result.draw skia ctm alpha = [⟨.picture picture, ctm, [.image (SkRect.makeXYWH
        (corner bounds) ((result.width : K), (result.height : K))) alpha]⟩] := by
  obtain ⟨hfront, hhistory⟩ := List.forall_mem_cons.mp hids
  have hinit : Genuine skia picture (init accessThreshold pictureCacheLimitPerFrame) := nofun
  have hgenuine : Genuine skia picture
      (history.foldl (afterFrame skia) (init accessThreshold pictureCacheLimitPerFrame)) :=
    List.foldlRecOn history _ hinit fun _ h frame hframe =>
      (h.prepareAll (hhistory frame hframe)).sweepAfterFrame
  obtain ⟨m, hkey, hrasterize⟩ := hgenuine.prepareAll hfront _ result rfl hget
  exact draw_of_rasterizePicture hrasterize hkey.symm hctm alpha

omit [IsStrictOrderedRing K] in
/-- What `Get` returns for a layer after an entry has been put. -/
lemma getLayer_update (cache : RasterCache K) (entries : RasterCacheKey K → Option (Entry K))
    (key : RasterCacheKey K) (entry : Entry K) (uniqueId : ℕ) (ctm : SkMatrix K) :
    getLayer { cache with layerCache := update entries key (some entry) } uniqueId ctm =
      if RasterCacheKey.of uniqueId ctm = key then entry.image
      else (entries (.of uniqueId ctm)).bind (·.image) := by
  by_cases hkey : RasterCacheKey.of uniqueId ctm = key
  · simp [getLayer, hkey]
  · simp [getLayer, hkey]

omit [IsStrictOrderedRing K] in
/-- After `Prepare` for a layer, `Get` returns the image that there was, or the one that is made
now. Nothing changes for layers and matrices with another key. -/
theorem getLayer_prepareLayer (skia : Skia K) (cache : RasterCache K) (uniqueId uniqueId' : ℕ)
    (paintBounds : SkRect K) (ctm ctm' : SkMatrix K)
    (paint : RasterCache K → SkMatrix K → List (Draw K)) :
    ∃ painted, (cache.prepareLayer skia uniqueId paintBounds ctm paint).getLayer uniqueId' ctm' =
      if RasterCacheKey.of uniqueId' ctm' = .of uniqueId ctm then
        (cache.getLayer uniqueId ctm).or (rasterize skia ctm paintBounds painted)
      else cache.getLayer uniqueId' ctm' := by
  obtain ⟨entry, hentry⟩ : ∃ entry, Entry.accessed cache.accessThreshold
      (cache.layerCache (.of uniqueId ctm)) = entry := ⟨_, rfl⟩
  have himage : entry.image = cache.getLayer uniqueId ctm := by
    rw [← hentry, getLayer]
    cases cache.layerCache (.of uniqueId ctm) <;> rfl
  let accessed := update cache.layerCache (.of uniqueId ctm) (some entry)
  refine ⟨paint { cache with layerCache := accessed }, ?_⟩
  rw [prepareLayer, hentry]
  dsimp only
  rw [himage]
  cases hget : cache.getLayer uniqueId ctm with
  | none =>
    rw [Option.isSome_none, if_neg Bool.false_ne_true, getLayer_update, Option.none_or]
    split
    · rfl
    · next hkey =>
      rw [update_of_ne hkey]
      rfl
  | some image =>
    rw [Option.isSome_some, if_pos rfl, getLayer_update, himage, hget, Option.some_or]
    rfl

end RasterCache

end Flow
