import FlutterEngine.Flow.RasterCache
import Mathlib.Data.Rat.Floor

/-!
# Which pictures stay in the raster cache

A frame is a sequence of calls of `Prepare`, followed by `SweepAfterFrame`, which drops each entry
that has not been used since the last sweep. `Prepare` returns before it marks the entry as used if
the limit of pictures for the frame has been reached. Hence a picture stays in the cache exactly if
each frame prepares it while fewer pictures have been rasterized in the frame (`staysValid_iff`).
-/

namespace Flow

open Lib Function

variable {K : Type*} [Field K] [LinearOrder K] [FloorRing K]

/-- The arguments of `Prepare`, for a picture. -/
structure PrepareCall (K : Type*) where
  picture : Option (Picture K)
  transformationMatrix : SkMatrix K
  isComplex : Bool
  willChange : Bool

namespace PrepareCall

/-- The picture can be cached, if the limit is not reached. -/
def Eligible (skia : Skia K) (call : PrepareCall K) : Prop :=
  isPictureWorthRasterizing call.picture call.willChange call.isComplex ∧
    skia.isDecomposable call.transformationMatrix

/-- The key under which the picture is cached. -/
def key (call : PrepareCall K) : Option (RasterCacheKey K) :=
  call.picture.map fun picture => .of picture.uniqueId call.transformationMatrix

end PrepareCall

namespace RasterCache

variable (skia : Skia K)

def prepare (cache : RasterCache K) (call : PrepareCall K) : RasterCache K :=
  (cache.preparePicture skia call.picture call.transformationMatrix call.isComplex
    call.willChange).2

/-- The calls of `Prepare` of a frame. -/
def prepareAll (cache : RasterCache K) (calls : List (PrepareCall K)) : RasterCache K :=
  calls.foldl (prepare skia) cache

/-- A whole frame. -/
def afterFrame (cache : RasterCache K) (calls : List (PrepareCall K)) : RasterCache K :=
  (cache.prepareAll skia calls).sweepAfterFrame

/-- `Get` returns an image. -/
def Valid (key : RasterCacheKey K) (cache : RasterCache K) : Prop :=
  ((cache.pictureCache key).bind (·.image)).isSome

/-- The image stays valid: at each point of each of the frames, and after them. -/
def StaysValid (key : RasterCacheKey K) :
    RasterCache K → List (List (PrepareCall K)) → Prop
  | cache, [] => cache.Valid key
  | cache, frame :: frames =>
    (∀ front, front <+: frame → (cache.prepareAll skia front).Valid key) ∧
      StaysValid key (cache.afterFrame skia frame) frames

/-- A call uses the entry: it is for this key, and the limit has not been reached. -/
def Refreshes (key : RasterCacheKey K) (cache : RasterCache K) (call : PrepareCall K) : Prop :=
  call.key = some key ∧ call.Eligible skia ∧
    cache.pictureCachedThisFrame < cache.pictureCacheLimitPerFrame

/-- Each of the frames has a call that uses the entry. -/
def Refreshed (key : RasterCacheKey K) :
    RasterCache K → List (List (PrepareCall K)) → Prop
  | _, [] => True
  | cache, frame :: frames =>
    (∃ front call rest, frame = front ++ call :: rest ∧
      Refreshes skia key (cache.prepareAll skia front) call) ∧
      Refreshed key (cache.afterFrame skia frame) frames

variable {skia} {cache : RasterCache K} {key : RasterCacheKey K}

/-! ## One call -/

/-- What a call does to the entry of a key. -/
theorem prepare_cases (cache : RasterCache K) (call : PrepareCall K) (key : RasterCacheKey K) :
    (¬cache.Refreshes skia key call ∧
      (cache.prepare skia call).pictureCache key = cache.pictureCache key) ∨
    (cache.Refreshes skia key call ∧ ∃ entry,
      (cache.prepare skia call).pictureCache key = some entry ∧ entry.usedThisFrame ∧
        (cache.Valid key → entry.image.isSome)) := by
  obtain ⟨picture, transformationMatrix, isComplex, willChange⟩ := call
  rw [prepare, preparePicture.eq_def]
  split
  · next hlimit => exact .inl ⟨fun h => absurd h.2.2 hlimit.not_gt, rfl⟩
  · next hlimit =>
    split
    · next hworth => exact .inl ⟨fun h => by simp [h.2.1.1] at hworth, rfl⟩
    · next hworth =>
      split
      · next hmatrix => exact .inl ⟨fun h => by simp [h.2.1.2] at hmatrix, rfl⟩
      · next hmatrix =>
        cases picture with
        | none => exact .inl ⟨fun h => (nomatch h.1), rfl⟩
        | some picture =>
          by_cases hkey : RasterCacheKey.of picture.uniqueId transformationMatrix = key
          · -- Whatever the threshold, the entry is marked and an image in it stays.
            subst hkey
            refine .inr ⟨⟨rfl, ⟨by simpa using hworth, by simpa using hmatrix⟩,
              not_le.mp hlimit⟩, ?_⟩
            have himage : ∀ {entry : Entry K}, entry = Entry.accessed cache.accessThreshold
                  (cache.pictureCache (.of picture.uniqueId transformationMatrix)) →
                cache.Valid (.of picture.uniqueId transformationMatrix) → entry.image.isSome := by
              rintro entry rfl hvalid
              rw [Valid] at hvalid
              cases hentry : cache.pictureCache (.of picture.uniqueId transformationMatrix) with
              | none =>
                rw [hentry] at hvalid
                cases hvalid
              | some entry =>
                rw [hentry] at hvalid
                exact hvalid
            simp only
            split
            · exact ⟨_, update_self .., rfl, himage rfl⟩
            · split
              · exact ⟨_, update_self .., rfl, himage rfl⟩
              · next hnone => exact ⟨_, update_self .., rfl, fun h => absurd (himage rfl h) hnone⟩
          · refine .inl ⟨fun h => hkey (Option.some.inj h.1), ?_⟩
            simp only
            split
            · exact update_of_ne (Ne.symm hkey) ..
            · split <;> exact update_of_ne (Ne.symm hkey) ..

/-- Preparing keeps an image. -/
lemma Valid.prepare (h : cache.Valid key) (call : PrepareCall K) :
    (cache.prepare skia call).Valid key := by
  rcases prepare_cases cache call key with ⟨-, heq⟩ | ⟨-, entry, heq, -, himage⟩
  · rwa [Valid, heq]
  · rw [Valid, heq]
    exact himage h

/-- Preparing during a frame keeps an image. -/
lemma Valid.prepareAll (h : cache.Valid key) (calls : List (PrepareCall K)) :
    (cache.prepareAll skia calls).Valid key := by
  induction calls generalizing cache with
  | nil => exact h
  | cons call calls ih => exact ih (h.prepare call)

/-! ## A frame -/

/-- The entry has been used in this frame. -/
def Used (key : RasterCacheKey K) (cache : RasterCache K) : Prop :=
  (cache.pictureCache key).any (·.usedThisFrame)

/-- When preparing uses an entry. -/
lemma used_prepare_iff (call : PrepareCall K) :
    (cache.prepare skia call).Used key ↔ cache.Used key ∨ cache.Refreshes skia key call := by
  rcases prepare_cases cache call key with ⟨hnot, heq⟩ | ⟨hcall, entry, heq, hused, -⟩
  · rw [Used, Used, heq]
    simp [hnot]
  · rw [Used, heq]
    simp [hcall, hused]

/-- When a frame uses an entry. -/
lemma used_prepareAll_iff (calls : List (PrepareCall K)) :
    (cache.prepareAll skia calls).Used key ↔ cache.Used key ∨
      ∃ front call rest, calls = front ++ call :: rest ∧
        Refreshes skia key (cache.prepareAll skia front) call := by
  induction calls generalizing cache with
  | nil => simp [prepareAll]
  | cons call calls ih =>
    have hcons : cache.prepareAll skia (call :: calls) =
        (cache.prepare skia call).prepareAll skia calls := rfl
    rw [hcons, ih, used_prepare_iff, or_assoc]
    refine or_congr_right ?_
    constructor
    · rintro (hcall | ⟨front, other, rest, rfl, hother⟩)
      · exact ⟨[], call, calls, rfl, hcall⟩
      · exact ⟨call :: front, other, rest, rfl, hother⟩
    · rintro ⟨front, other, rest, heq, hother⟩
      cases front with
      | nil =>
        cases heq
        exact .inl hother
      | cons first front =>
        cases heq
        exact .inr ⟨front, other, rest, rfl, hother⟩

omit [Field K] [FloorRing K] in
/-- After a sweep nothing is marked as used. -/
theorem not_used_sweepAfterFrame (cache : RasterCache K) : ¬cache.sweepAfterFrame.Used key := by
  simp only [Used, sweepAfterFrame, sweepOneCacheAfterFrame]
  cases (cache.pictureCache key).filter (·.usedThisFrame) <;> simp

omit [Field K] [FloorRing K] in
/-- A sweep keeps the image of an entry that was used. -/
theorem valid_sweepAfterFrame_iff :
    cache.sweepAfterFrame.Valid key ↔ cache.Valid key ∧ cache.Used key := by
  simp only [Valid, Used, sweepAfterFrame, sweepOneCacheAfterFrame]
  cases cache.pictureCache key with
  | none => simp
  | some entry => cases hused : entry.usedThisFrame <;> simp [Option.filter, hused]

/-- When an image survives a frame. -/
lemma valid_afterFrame_iff (hvalid : cache.Valid key) (hused : ¬cache.Used key)
    (frame : List (PrepareCall K)) :
    (cache.afterFrame skia frame).Valid key ↔ ∃ front call rest, frame = front ++ call :: rest ∧
      Refreshes skia key (cache.prepareAll skia front) call := by
  rw [afterFrame, valid_sweepAfterFrame_iff, used_prepareAll_iff]
  simp [hvalid.prepareAll frame, hused]

/-! ## All frames -/

/-- What stays valid is valid. -/
lemma StaysValid.valid {frames : List (List (PrepareCall K))}
    (h : StaysValid skia key cache frames) : cache.Valid key := by
  cases frames with
  | nil => exact h
  | cons frame frames => exact h.1 [] (List.nil_prefix)

/-- An image stays as long as each frame refreshes it. -/
lemma staysValid_iff_refreshed (hvalid : cache.Valid key) (hused : ¬cache.Used key)
    (frames : List (List (PrepareCall K))) :
    StaysValid skia key cache frames ↔ Refreshed skia key cache frames := by
  induction frames generalizing cache with
  | nil => exact iff_of_true hvalid trivial
  | cons frame frames ih =>
    have hused' : ¬(cache.afterFrame skia frame).Used key := not_used_sweepAfterFrame _
    rw [StaysValid, Refreshed, ← valid_afterFrame_iff hvalid hused]
    constructor
    · rintro ⟨-, hstays⟩
      exact ⟨hstays.valid, (ih hstays.valid hused').mp hstays⟩
    · rintro ⟨hafter, hrefreshed⟩
      exact ⟨fun front _ => hvalid.prepareAll front, (ih hafter hused').mpr hrefreshed⟩

/-- After a frame no entry counts as used. -/
lemma not_used_foldl_afterFrame (accessThreshold pictureCacheLimitPerFrame : ℕ)
    (history : List (List (PrepareCall K))) :
    ¬(history.foldl (afterFrame skia) (init accessThreshold pictureCacheLimitPerFrame)).Used
      key := by
  induction history using List.reverseRecOn with
  | nil => exact nofun
  | append_singleton history frame ih =>
    rw [List.foldl_append]
    exact not_used_sweepAfterFrame _

/-- A picture with a valid image after some frames keeps it through the following frames exactly if
each of them prepares the picture before the limit of the frame is reached. -/
theorem staysValid_iff (skia : Skia K) (accessThreshold pictureCacheLimitPerFrame : ℕ)
    (history frames : List (List (PrepareCall K))) (picture : Picture K) (ctm : SkMatrix K)
    (hvalid : ((history.foldl (afterFrame skia)
      (init accessThreshold pictureCacheLimitPerFrame)).getPicture picture ctm).isSome) :
    StaysValid skia (.of picture.uniqueId ctm)
        (history.foldl (afterFrame skia) (init accessThreshold pictureCacheLimitPerFrame)) frames ↔
      Refreshed skia (.of picture.uniqueId ctm)
        (history.foldl (afterFrame skia) (init accessThreshold pictureCacheLimitPerFrame)) frames :=
  staysValid_iff_refreshed hvalid (not_used_foldl_afterFrame _ _ history) frames

end RasterCache

/-! ## Two pictures and room for one -/

namespace Retention

open RasterCache

/-- Everything that is left open of Skia succeeds. -/
def skia : Skia ℚ := ⟨fun _ rect => rect, fun _ _ => true, fun _ => true⟩

/-- A picture that is worth rasterizing. -/
def picture (uniqueId : ℕ) : Picture ℚ := ⟨uniqueId, ⟨0, 0, 10, 10⟩, true, 6⟩

def call (uniqueId : ℕ) : PrepareCall ℚ := ⟨some (picture uniqueId), 1, false, false⟩

end Retention

open RasterCache Retention in
/-- The first picture is prepared first in the second frame. -/
theorem staysValid_first :
    StaysValid skia (.of (picture 1).uniqueId 1) ([[call 1]].foldl (afterFrame skia) (init 1 1))
      [[call 1, call 2]] := by
  refine (staysValid_iff skia 1 1 [[call 1]] [[call 1, call 2]] (picture 1) 1
    (by decide +kernel)).mpr ⟨⟨[], call 1, [call 2], rfl, rfl, ⟨?_, rfl⟩, ?_⟩, trivial⟩
  · decide +kernel
  · decide +kernel

open RasterCache Retention in
/-- The first picture is prepared in the second frame, but after another one. -/
theorem not_staysValid_second :
    (([[call 1]].foldl (afterFrame skia) (init 1 1)).getPicture (picture 1) 1).isSome ∧
      (([[call 1], [call 2, call 1]].foldl (afterFrame skia) (init 1 1)).getPicture (picture 1)
        1).isNone ∧
      ¬StaysValid skia (.of (picture 1).uniqueId 1)
        ([[call 1]].foldl (afterFrame skia) (init 1 1)) [[call 2, call 1]] := by
  have hnone : (([[call 1], [call 2, call 1]].foldl (afterFrame skia) (init 1 1)).getPicture
      (picture 1) 1).isNone := by decide +kernel
  refine ⟨by decide +kernel, hnone, fun h => ?_⟩
  have hvalid : (([[call 1], [call 2, call 1]].foldl (afterFrame skia) (init 1 1)).getPicture
      (picture 1) 1).isSome := h.2
  rw [Option.isNone_iff_eq_none] at hnone
  rw [hnone] at hvalid
  cases hvalid

end Flow
