import Mathlib.Data.List.Induction

/-!
# Frames of an animated image

`MultiFrameCodec` decodes the frames of an image one after the other, again from the first after the
last. A frame may be drawn over an earlier one, its required frame. The codec keeps one decoded
frame for that: the last one that was decoded and whose disposal method is `kKeep`. It only logs
when another frame is required, and the index that it keeps for the log is left out.

A frame is decoded from the right base if the frame it requires is the last one before it that is to
be kept (`RequiresKept`) and was decoded in this round (`RequiredDecoded`): `getNextFrame_eq`. What
can fail in a call is decided by its `Outcome`.
-/

namespace Ui

open Nat

/-- `SkCodecAnimation::DisposalMethod` -/
inductive DisposalMethod where
  | keep
  | restoreBGColor
  | restorePrevious
deriving DecidableEq, Repr

/-- `SkCodec::FrameInfo`; no required frame for `kNoFrame` -/
structure SkFrameInfo where
  requiredFrame : Option ℕ
  disposalMethod : DisposalMethod
deriving DecidableEq, Repr

variable {P : Type}

/-- A call of `SkCodec::getPixels`: the frame, the prior frame of the options, and what the
destination holds, nothing when it is only allocated. -/
structure PixelsRequest (P : Type) where
  frameIndex : ℕ
  priorFrame : Option ℕ
  destination : Option P
deriving DecidableEq, Repr

/-- An animated image as `SkCodec` presents it. -/
structure SkCodec (P : Type) where
  frameCount : ℕ
  frameCount_pos : 0 < frameCount
  getFrameInfo : ℕ → SkFrameInfo
  /-- The pixels, if the call succeeds. -/
  getPixels : PixelsRequest P → P

/-- What succeeds in a call of `getNextFrame`. -/
structure Outcome where
  /-- `CopyToBitmap` -/
  copies : Bool
  /-- `SkCodec::getPixels` -/
  decodes : Bool
  /-- `MakeCrossContextFromPixmap` or `MakeFromBitmap` -/
  makesImage : Bool
deriving DecidableEq, Repr

/-- `MultiFrameCodec` -/
structure MultiFrameCodec (P : Type) where
  nextFrameIndex : ℕ := 0
  lastRequiredFrame : Option P := none
deriving DecidableEq, Repr

namespace MultiFrameCodec

variable (codec : SkCodec P) (outcome : Outcome) (self : MultiFrameCodec P)

/-- The first part of `GetNextFrameImage`, up to the call of `getPixels`. -/
def request : Option (PixelsRequest P) :=
  match (codec.getFrameInfo self.nextFrameIndex).requiredFrame with
  | none => some ⟨self.nextFrameIndex, none, none⟩
  | some requiredFrameIndex =>
    match self.lastRequiredFrame with
    | none => none
    | some bitmap =>
      if outcome.copies then
        some ⟨self.nextFrameIndex, some requiredFrameIndex, some bitmap⟩
      else
        some ⟨self.nextFrameIndex, none, none⟩

/-- `GetNextFrameImage` -/
def getNextFrameImage : Option P × MultiFrameCodec P :=
  match self.request codec outcome with
  | none => (none, self)
  | some request =>
    if outcome.decodes then
      let bitmap := codec.getPixels request
      let image := if outcome.makesImage then some bitmap else none
      if (codec.getFrameInfo self.nextFrameIndex).disposalMethod = .keep then
        (image, { self with lastRequiredFrame := some bitmap })
      else
        (image, self)
    else
      (none, self)

/-- `GetNextFrameAndInvokeCallback`: the image for the callback -/
def getNextFrame : Option P × MultiFrameCodec P :=
  let (image, self) := self.getNextFrameImage codec outcome
  (image, { self with nextFrameIndex := (self.nextFrameIndex + 1) % codec.frameCount })

/-- The codec after some calls. -/
def after (calls : List Outcome) : MultiFrameCodec P :=
  calls.foldl (fun self outcome => (self.getNextFrame codec outcome).2) {}

/-! ## The frame that is kept -/

/-- `SkCodec` decodes the frame `i` to `pixels i` when it succeeds: from scratch, and over the frame
it requires. -/
structure Decodes (pixels : ℕ → P) : Prop where
  scratch : ∀ i destination, codec.getPixels ⟨i, none, destination⟩ = pixels i
  required : ∀ i p, (codec.getFrameInfo i).requiredFrame = some p →
    codec.getPixels ⟨i, some p, some (pixels p)⟩ = pixels i

/-- The frame `j` is the last one before `i` that the codec is to keep. -/
def KeptAt (i j : ℕ) : Prop :=
  j < i ∧ (codec.getFrameInfo j).disposalMethod = .keep ∧
    ∀ k, j < k → k < i → (codec.getFrameInfo k).disposalMethod ≠ .keep

/-- Every frame that requires another one requires the one that is to be kept at its turn. -/
def RequiresKept : Prop :=
  ∀ i < codec.frameCount, ∀ p ∈ (codec.getFrameInfo i).requiredFrame, KeptAt codec i p

/-- The frame `p` was decoded in the round of the call `n`, in which it is before the frame of that
call. -/
def DecodedBefore (calls : List Outcome) (n p : ℕ) : Prop :=
  ∀ outcome ∈ calls[n - (n % codec.frameCount - p)]?, outcome.decodes = true

/-- In all calls, and in the one after them, the frame that is required was decoded in the same
round. -/
def RequiredDecoded (calls : List Outcome) : Prop :=
  ∀ n ≤ calls.length, ∀ p ∈ (codec.getFrameInfo (n % codec.frameCount)).requiredFrame,
    DecodedBefore codec calls n p

instance (calls : List Outcome) : Decidable (RequiredDecoded codec calls) :=
  inferInstanceAs (Decidable (∀ n ≤ calls.length,
    ∀ p ∈ (codec.getFrameInfo (n % codec.frameCount)).requiredFrame,
      ∀ outcome ∈ calls[n - (n % codec.frameCount - p)]?, outcome.decodes = true))

/-- At the turn of a frame, the codec holds the last frame before it that is to be kept, if that was
decoded. -/
structure Holds (pixels : ℕ → P) (calls : List Outcome) (s : MultiFrameCodec P) : Prop where
  next_eq : s.nextFrameIndex = calls.length % codec.frameCount
  last_eq : ∀ j, KeptAt codec s.nextFrameIndex j → DecodedBefore codec calls calls.length j →
    s.lastRequiredFrame = some (pixels j)

variable {codec} {pixels : ℕ → P} {i j : ℕ} {s : MultiFrameCodec P} {calls : List Outcome}

/-- The frame kept at the next turn is the one of this turn, or still the one kept before it. -/
theorem KeptAt.of_succ (h : KeptAt codec (i + 1) j) :
    j = i ∧ (codec.getFrameInfo i).disposalMethod = .keep ∨
      KeptAt codec i j ∧ (codec.getFrameInfo i).disposalMethod ≠ .keep := by
  obtain ⟨hlt, hkeep, hlast⟩ := h
  rcases Nat.lt_succ_iff_lt_or_eq.mp hlt with hlt | rfl
  · exact .inr ⟨⟨hlt, hkeep, fun k hjk hki => hlast k hjk (lt_succ_of_lt hki)⟩,
      hlast i hlt (lt_succ_self i)⟩
  · exact .inl ⟨rfl, hkeep⟩

/-- A frame is kept at the next turn only if that is not the first turn of a round. -/
lemma succ_mod_of_keptAt {n : ℕ}
    (h : KeptAt codec ((n % codec.frameCount + 1) % codec.frameCount) j) :
    (n + 1) % codec.frameCount = n % codec.frameCount + 1 := by
  rcases Nat.lt_or_eq_of_le (mod_lt n codec.frameCount_pos) with hlt | heq
  · rw [← mod_add_mod, mod_eq_of_lt hlt]
  · rw [← succ_eq_add_one, heq, mod_self] at h
    exact absurd h.1 (not_lt_zero j)

lemma DecodedBefore.of_append {n p : ℕ} {outcome : Outcome}
    (h : DecodedBefore codec (calls ++ [outcome]) n p) : DecodedBefore codec calls n p := by
  intro outcome' houtcome
  have hlt := (List.getElem?_eq_some_iff.mp houtcome).1
  exact h outcome' ((List.getElem?_append_left hlt).trans houtcome)

section Turn

variable (h : Holds codec pixels calls s) (hkept : RequiresKept codec)
  (hdecodes : Decodes codec pixels) (hrequired : RequiredDecoded codec calls) (outcome : Outcome)

include h

lemma Holds.lt_frameCount : s.nextFrameIndex < codec.frameCount :=
  h.next_eq ▸ mod_lt _ codec.frameCount_pos

include hkept hdecodes hrequired

/-- The base of the next frame is right. -/
theorem Holds.exists_request : ∃ request, s.request codec outcome = some request ∧
      (∀ p ∈ request.priorFrame, request.destination = some (pixels p)) ∧
      codec.getPixels request = pixels s.nextFrameIndex := by
  unfold request
  cases hrequiredFrame : (codec.getFrameInfo s.nextFrameIndex).requiredFrame with
  | none => exact ⟨_, rfl, nofun, hdecodes.scratch _ _⟩
  | some p =>
    have hdecoded : DecodedBefore codec calls calls.length p :=
      hrequired _ (Nat.le_refl _) p (h.next_eq ▸ hrequiredFrame)
    rw [h.last_eq p (hkept _ h.lt_frameCount p hrequiredFrame) hdecoded]
    cases outcome.copies with
    | false => exact ⟨_, rfl, nofun, hdecodes.scratch _ _⟩
    | true =>
      refine ⟨_, rfl, fun p' hp' => ?_, hdecodes.required _ p hrequiredFrame⟩
      rw [Option.some.inj hp']

/-- The image is the frame if decoding it and making the image succeed, and the frame is kept if it
was decoded and is to be kept. -/
lemma Holds.getNextFrameImage_eq : s.getNextFrameImage codec outcome =
    (if outcome.decodes ∧ outcome.makesImage then some (pixels s.nextFrameIndex) else none,
      if outcome.decodes ∧ (codec.getFrameInfo s.nextFrameIndex).disposalMethod = .keep then
        { s with lastRequiredFrame := some (pixels s.nextFrameIndex) }
      else s) := by
  obtain ⟨request, hrequest, -, hpixels⟩ := h.exists_request hkept hdecodes hrequired outcome
  rw [getNextFrameImage, hrequest]
  cases outcome.decodes with
  | false => rfl
  | true =>
    simp only [if_true, true_and, hpixels]
    split <;> rfl

/-- One more call. -/
lemma Holds.getNextFrame :
    Holds codec pixels (calls ++ [outcome]) (s.getNextFrame codec outcome).2 := by
  have hafter := h.getNextFrameImage_eq hkept hdecodes hrequired outcome
  have hlength : (calls ++ [outcome]).length = calls.length + 1 := List.length_append
  simp only [MultiFrameCodec.getNextFrame, hafter]
  refine ⟨?_, fun j hj hdecoded => ?_⟩
  · rw [hlength]
    split <;> simp [h.next_eq]
  · have hj : KeptAt codec ((s.nextFrameIndex + 1) % codec.frameCount) j := by
      split at hj <;> exact hj
    have hnext : (calls.length + 1) % codec.frameCount = s.nextFrameIndex + 1 := by
      rw [h.next_eq] at hj ⊢
      exact succ_mod_of_keptAt hj
    rw [mod_eq_of_lt (hnext ▸ mod_lt _ codec.frameCount_pos)] at hj
    rw [DecodedBefore, hlength, hnext] at hdecoded
    rcases hj.of_succ with ⟨rfl, hkeep⟩ | ⟨hj', hne⟩
    · -- This frame is the one that is to be kept, so that it was decoded.
      rw [Nat.add_sub_cancel_left, Nat.add_sub_cancel, List.getElem?_concat_length] at hdecoded
      rw [if_pos ⟨hdecoded outcome rfl, hkeep⟩]
    · have hle : s.nextFrameIndex ≤ calls.length := h.next_eq ▸ mod_le _ _
      have hlt := hj'.1
      have hindex : calls.length + 1 - (s.nextFrameIndex + 1 - j) =
          calls.length - (s.nextFrameIndex - j) := by
        omega
      rw [hindex, h.next_eq] at hdecoded
      rw [if_neg fun hkeep => hne hkeep.2]
      exact h.last_eq j hj' (DecodedBefore.of_append hdecoded)

end Turn

/-- In any number of calls, whatever fails in them, as long as no frame is asked for whose required
frame was not decoded: the call after `calls` decodes a frame over the frame it requires or from
scratch, and its image is that frame, unless decoding it or making the image fails. -/
theorem getNextFrame_eq (hkept : RequiresKept codec) (hdecodes : Decodes codec pixels)
    (calls : List Outcome) (hrequired : RequiredDecoded codec calls) (outcome : Outcome) :
    (∃ request, (after codec calls).request codec outcome = some request ∧
      ∀ p ∈ request.priorFrame, request.destination = some (pixels p)) ∧
    ((after codec calls).getNextFrame codec outcome).1 =
      if outcome.decodes ∧ outcome.makesImage then
        some (pixels (calls.length % codec.frameCount))
      else none := by
  have hholds : Holds codec pixels calls (after codec calls) := by
    induction calls using List.reverseRecOn with
    | nil => exact ⟨(zero_mod _).symm, fun j hj => absurd hj.1 (not_lt_zero j)⟩
    | append_singleton calls outcome ih =>
      rw [after, List.foldl_append]
      have hbefore : RequiredDecoded codec calls := fun n hn p hp =>
        (hrequired n (Nat.le_trans hn (List.length_append ▸ Nat.le_add_right _ _)) p hp).of_append
      exact (ih hbefore).getNextFrame hkept hdecodes hbefore outcome
  obtain ⟨request, hrequest, hbase, -⟩ := hholds.exists_request hkept hdecodes hrequired outcome
  refine ⟨⟨request, hrequest, hbase⟩, ?_⟩
  simp only [getNextFrame, hholds.getNextFrameImage_eq hkept hdecodes hrequired, hholds.next_eq]

/-- Frames that stand for themselves, where a frame drawn over another than the required one is
spoilt. -/
def frames (infos : List SkFrameInfo) (h : 0 < infos.length) : SkCodec ℕ where
  frameCount := infos.length
  frameCount_pos := h
  getFrameInfo i := infos.getD i ⟨none, .keep⟩
  getPixels request :=
    if request.priorFrame = none ∨ request.destination = request.priorFrame then
      request.frameIndex
    else
      request.frameIndex + 100

lemma decodes_frames (infos : List SkFrameInfo) (h : 0 < infos.length) :
    Decodes (frames infos h) id :=
  ⟨by simp [frames], by simp [frames]⟩

/-- A call in which everything succeeds. -/
def succeeds : Outcome := ⟨true, true, true⟩

/-- Two frames, the second over the first, which is kept. The second frame of the first round is not
decoded, that of the second round is. -/
theorem getNextFrame_eq_second :
    let codec := frames [⟨none, .keep⟩, ⟨some 0, .keep⟩] (by decide)
    ((after codec [succeeds, ⟨true, false, true⟩, succeeds]).getNextFrame codec succeeds).1 =
      some 1 := by
  intro codec
  have hkept : RequiresKept codec := by
    intro i hi p hp
    obtain ⟨rfl, rfl⟩ : i = 1 ∧ p = 0 := by
      match i, hi with
      | 1, _ => exact ⟨rfl, (Option.some.inj hp).symm⟩
    exact ⟨Nat.one_pos, rfl, by omega⟩
  have hrequired : RequiredDecoded codec [succeeds, ⟨true, false, true⟩, succeeds] := by decide
  exact (getNextFrame_eq hkept (decodes_frames _ _) _ hrequired succeeds).2.trans (by decide)

/-- The third frame requires the second, which is not kept: it is drawn over the first. -/
theorem getNextFrame_third_frame :
    let codec := frames [⟨none, .keep⟩, ⟨some 0, .restoreBGColor⟩, ⟨some 1, .keep⟩] (by decide)
    (after codec [succeeds, succeeds]).request codec succeeds = some ⟨2, some 1, some 0⟩ ∧
      ((after codec [succeeds, succeeds]).getNextFrame codec succeeds).1 = some 102 := by
  decide

end MultiFrameCodec

end Ui
