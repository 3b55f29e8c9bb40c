import FlutterEngine.WebUi.Text.LinesCalculator.Width
import Mathlib.Data.Nat.Find

/-!
# Intrinsic widths

`MinIntrinsicCalculator` and `MaxIntrinsicCalculator` consume the same breaks as the lines
calculator. Their results are the width of the widest chunk and of the widest hard line, that is the
text between two hard breaks.

`lines_of_intrinsic_le` says what they mean for the lines: in the minimum intrinsic width no chunk
is broken, and in the maximum intrinsic width only hard breaks end a line.
-/

namespace WebUi.LinesCalculator

open Lib List EngineLineMetrics LineBreakResult

variable {W : Type} [LinearOrder W] [Zero W] {c : LinesCalculator W} {h i j H : ℕ}
variable {text : List UInt16} {b : LineBreakResult}

/-! ## The calculators -/

/-- `MinIntrinsicCalculator` -/
structure MinIntrinsicCalculator (W : Type) where
  value : W
  lastChunkEnd : ℕ

/-- `MaxIntrinsicCalculator` -/
structure MaxIntrinsicCalculator (W : Type) where
  value : W
  lastHardLineEnd : ℕ

/-- `MinIntrinsicCalculator.update` -/
def updateMinIntrinsic (c : LinesCalculator W) (s : MinIntrinsicCalculator W)
    (brk : LineBreakResult) : MinIntrinsicCalculator W :=
  let chunkEnd := brk.index
  let chunkEndWithoutSpace := excludeTrailing c.text s.lastChunkEnd chunkEnd whitespacePredicate
  let width := c.measureSubstring s.lastChunkEnd chunkEndWithoutSpace
  { value := if s.value < width then width else s.value, lastChunkEnd := chunkEnd }

/-- `MaxIntrinsicCalculator.update` -/
def updateMaxIntrinsic (c : LinesCalculator W) (s : MaxIntrinsicCalculator W)
    (brk : LineBreakResult) : MaxIntrinsicCalculator W :=
  if brk.type = .opportunity then
    s
  else
    let hardLineEnd := brk.index
    let hardLineEndWithoutNewlines :=
      excludeTrailing c.text s.lastHardLineEnd hardLineEnd newlinePredicate
    let lineWidth := c.measureSubstring s.lastHardLineEnd hardLineEndWithoutNewlines
    { value := if s.value < lineWidth then lineWidth else s.value, lastHardLineEnd := hardLineEnd }

/-- The minimum intrinsic width that `_doMeasure` computes. -/
def minIntrinsicWidth (c : LinesCalculator W) : W :=
  ((lineBreaks c.text).foldl c.updateMinIntrinsic ⟨0, 0⟩).value

/-- The maximum intrinsic width that `_doMeasure` computes. -/
def maxIntrinsicWidth (c : LinesCalculator W) : W :=
  ((lineBreaks c.text).foldl c.updateMaxIntrinsic ⟨0, 0⟩).value

omit [Zero W] in
lemma if_lt_eq_max (v w : W) : (if v < w then w else v) = max v w := by rw [max_def_lt]

/-! ## The minimum intrinsic width -/

/-- No chunk is wider than the minimum intrinsic width. -/
theorem minIntrinsicWidth_spec (c : LinesCalculator W) : 0 ≤ c.minIntrinsicWidth ∧
    ∀ i j, Chunk c.text i j → i < j →
      c.measureSubstring i (c.trimmedEnd i j) ≤ c.minIntrinsicWidth := by
  refine foldl_lineBreaks
    (fun i (s : MinIntrinsicCalculator W) => s.lastChunkEnd = i ∧ 0 ≤ s.value ∧
      ∀ i' j', Chunk c.text i' j' → i' < i → c.measureSubstring i' (c.trimmedEnd i' j') ≤ s.value)
    (fun s => 0 ≤ s.value ∧
      ∀ i j, Chunk c.text i j → i < j → c.measureSubstring i (c.trimmedEnd i j) ≤ s.value)
    ?_ ⟨rfl, le_refl 0, fun _ _ _ hlt => absurd hlt (Nat.not_lt_zero _)⟩
  rintro i s b hb hchunk ⟨hlast, hpos, hbound⟩
  obtain ⟨s', hs'⟩ : ∃ s', s' = c.updateMinIntrinsic s b := ⟨_, rfl⟩
  have hvalue : s'.value = max s.value (c.measureSubstring i (c.trimmedEnd i b.index)) := by
    rw [hs', updateMinIntrinsic, hlast, if_lt_eq_max, trimmedEnd]
  have hpos' : 0 ≤ s'.value := by
    rw [hvalue]
    exact le_trans hpos (le_max_left _ _)
  have hbound' : ∀ i' j', Chunk c.text i' j' → i' < b.index →
      c.measureSubstring i' (c.trimmedEnd i' j') ≤ s'.value := by
    intro i' j' hchunk' hlt
    rw [hvalue]
    rcases Nat.lt_trichotomy i' i with hi | rfl | hi
    · exact le_trans (hbound i' j' hchunk' hi) (le_max_left _ _)
    · rw [← hchunk.index_eq, hchunk'.index_eq]
      exact le_max_right _ _
    · rcases hchunk'.start with rfl | ⟨b', hb', -, hindex⟩
      · exact absurd hi (Nat.not_lt_zero i)
      · exact (hchunk.not_between hb' hindex hi hlt).elim
  rw [← hs']
  split
  · next htype =>
    refine ⟨hpos', fun i' j' hchunk' hlt => hbound' i' j' hchunk' ?_⟩
    have hend := hchunk.nextBreak.index_eq (hb ▸ htype)
    rw [hb, hend]
    exact lt_of_lt_of_le hlt hchunk'.le_length
  · exact ⟨by rw [hs']; rfl, hpos', hbound'⟩

/-! ## The maximum intrinsic width -/

/-- The hard line at `i` starts at `h`. -/
structure HardStart (text : List UInt16) (h i : ℕ) : Prop where
  start : h = 0 ∨ MandatoryAt text h
  le : h ≤ i
  not_mandatory : ∀ k, h < k → k ≤ i → ¬MandatoryAt text k

/-- The hard line from `h` to `H`. -/
structure HardLine (text : List UInt16) (h H : ℕ) : Prop where
  start : h = 0 ∨ MandatoryAt text h
  lt : h < H
  stop : H = text.length ∨ MandatoryAt text H
  not_mandatory : ∀ k, h < k → k < H → ¬MandatoryAt text k

/-- There is no hard break within a chunk. -/
theorem Chunk.not_mandatory {k : ℕ} (hchunk : Chunk text i j) (hi : i < k) (hj : k < j) :
    ¬MandatoryAt text k := by
  have hlt : k < (nextLineBreak text i).index := by rwa [hchunk.index_eq]
  rw [← breakAt_eq_mandatory_iff (Nat.zero_lt_of_lt hi)
    (le_of_lt (lt_of_lt_of_le hj hchunk.le_length)), hchunk.nextBreak.nothing hi hlt]
  exact nofun

/-- The next break is a hard one if its type says so. -/
theorem mandatoryAt_nextLineBreak_iff (hb : b = nextLineBreak text i)
    (hchunk : Chunk text i b.index) (hlt : i < b.index) :
    MandatoryAt text b.index ↔ b.type = .mandatory := by
  have hscanned : breakAt text b.index = some b := by
    rw [hb] at hlt ⊢
    exact hchunk.nextBreak.scanned hlt
  rw [← breakAt_eq_mandatory_iff (Nat.zero_lt_of_lt hlt) hchunk.le_length, hscanned]
  constructor
  · intro heq
    rw [Option.some.inj heq]
  · intro htype
    rw [← htype]

/-- The hard line goes on after an opportunity. -/
theorem HardStart.opportunity (hstart : HardStart text h i) (hb : b = nextLineBreak text i)
    (hchunk : Chunk text i b.index) (htype : b.type = .opportunity) : HardStart text h b.index := by
  have hlt : i < b.index := by
    rw [hb] at htype ⊢
    exact hchunk.nextBreak.lt_index (by rw [htype]; nofun)
  refine ⟨hstart.start, le_trans hstart.le hchunk.le, fun k hk hkb => ?_⟩
  rcases lt_or_ge i k with hik | hik
  · rcases Nat.lt_or_eq_of_le hkb with hkb | rfl
    · exact Chunk.not_mandatory hchunk hik hkb
    · rw [mandatoryAt_nextLineBreak_iff hb hchunk hlt, htype]
      nofun
  · exact hstart.not_mandatory k hk hik

lemma type_ne_opportunity_iff :
    b.type ≠ .opportunity ↔ b.type = .mandatory ∨ b.type = .endOfText := by
  cases b.type with
  | opportunity => exact iff_of_false (fun h => h rfl) nofun
  | mandatory => exact iff_of_true nofun (.inl rfl)
  | endOfText => exact iff_of_true nofun (.inr rfl)

/-- A hard break starts the next hard line. -/
theorem HardStart.hard (hb : b = nextLineBreak text i) (hchunk : Chunk text i b.index)
    (hopportunity : b.type ≠ .opportunity) (hend : b.type ≠ .endOfText) :
    HardStart text b.index b.index := by
  have hlt : i < b.index := by
    rw [hb] at hend ⊢
    exact hchunk.nextBreak.lt_index hend
  have hmandatory := (mandatoryAt_nextLineBreak_iff hb hchunk hlt).mpr
    ((type_ne_opportunity_iff.mp hopportunity).resolve_right hend)
  exact ⟨.inr hmandatory, le_refl _, fun _ hlt hle => absurd hlt (not_lt.mpr hle)⟩

lemma HardLine.le_length (hline : HardLine text h H) : H ≤ text.length := by
  rcases hline.stop with rfl | hmandatory
  · exact le_refl _
  · exact hmandatory.le_length.2

/-- The hard line that ends with the next chunk. -/
theorem HardLine.eq_of_hardStart {h' : ℕ} (hline : HardLine text h H) (hstart : HardStart text h' i)
    (hchunk : Chunk text i j) (hlt : h' < H) (hle : H ≤ j) :
    h = h' ∧ H = j := by
  -- there is no hard break after the start of the line and in front of the end of the chunk
  have hnone : ∀ k, h' < k → k < j → ¬MandatoryAt text k := by
    intro k hk hkj
    rcases lt_or_ge i k with hik | hik
    · exact Chunk.not_mandatory hchunk hik hkj
    · exact hstart.not_mandatory k hk hik
  have hH : H = j := by
    refine (Nat.lt_or_eq_of_le hle).resolve_left fun hlt' => ?_
    rcases hline.stop with rfl | hmandatory
    · exact absurd hlt' (not_lt.mpr hchunk.le_length)
    · exact hnone H hlt hlt' hmandatory
  refine ⟨?_, hH⟩
  rcases Nat.lt_trichotomy h h' with hlt' | heq | hlt'
  · rcases hstart.start with rfl | hmandatory
    · exact absurd hlt' (Nat.not_lt_zero h)
    · exact absurd hmandatory (hline.not_mandatory h' hlt' hlt)
  · exact heq
  · rcases hline.start with rfl | hmandatory
    · exact absurd hlt' (Nat.not_lt_zero h')
    · exact absurd hmandatory (hnone h hlt' (hH ▸ hline.lt))

/-- No hard line is wider than the maximum intrinsic width. -/
theorem maxIntrinsicWidth_spec (c : LinesCalculator W) : 0 ≤ c.maxIntrinsicWidth ∧
    ∀ h H, HardLine c.text h H →
      c.measureSubstring h (excludeTrailing c.text h H newlinePredicate) ≤ c.maxIntrinsicWidth := by
  refine foldl_lineBreaks
    (fun i (s : MaxIntrinsicCalculator W) => HardStart c.text s.lastHardLineEnd i ∧ 0 ≤ s.value ∧
      ∀ h H, HardLine c.text h H → H ≤ s.lastHardLineEnd →
        c.measureSubstring h (excludeTrailing c.text h H newlinePredicate) ≤ s.value)
    (fun s => 0 ≤ s.value ∧ ∀ h H, HardLine c.text h H →
      c.measureSubstring h (excludeTrailing c.text h H newlinePredicate) ≤ s.value)
    ?_ ⟨⟨.inl rfl, le_refl 0, fun _ hlt hle => absurd hlt (not_lt.mpr hle)⟩, le_refl 0,
      fun h H hline hle => absurd (lt_of_lt_of_le hline.lt hle) (Nat.not_lt_zero h)⟩
  rintro i s b hb hchunk ⟨hstart, hpos, hbound⟩
  by_cases hopportunity : b.type = .opportunity
  · rw [updateMaxIntrinsic, if_pos hopportunity, if_neg (by rw [hopportunity]; nofun)]
    exact ⟨hstart.opportunity hb hchunk hopportunity, hpos, hbound⟩
  · obtain ⟨s', hs'⟩ : ∃ s', s' = c.updateMaxIntrinsic s b := ⟨_, rfl⟩
    have hlast : s'.lastHardLineEnd = b.index := by
      rw [hs', updateMaxIntrinsic, if_neg hopportunity]
    have hvalue : s'.value = max s.value (c.measureSubstring s.lastHardLineEnd
        (excludeTrailing c.text s.lastHardLineEnd b.index newlinePredicate)) := by
      rw [hs', updateMaxIntrinsic, if_neg hopportunity]
      exact if_lt_eq_max _ _
    have hpos' : 0 ≤ s'.value := by
      rw [hvalue]
      exact le_trans hpos (le_max_left _ _)
    have hbound' : ∀ h H, HardLine c.text h H → H ≤ b.index →
        c.measureSubstring h (excludeTrailing c.text h H newlinePredicate) ≤ s'.value := by
      intro h H hline hle
      rw [hvalue]
      rcases lt_or_ge s.lastHardLineEnd H with hlt | hge
      · obtain ⟨rfl, rfl⟩ := hline.eq_of_hardStart hstart hchunk hlt hle
        exact le_max_right _ _
      · exact le_trans (hbound h H hline hge) (le_max_left _ _)
    rw [← hs']
    split
    · next htype =>
      refine ⟨hpos', fun h H hline => hbound' h H hline ?_⟩
      rw [hb, hchunk.nextBreak.index_eq (hb ▸ htype)]
      exact hline.le_length
    · next htype =>
      rw [hlast]
      exact ⟨.hard hb hchunk hopportunity htype, hpos', hbound'⟩

/-- The code unit after an opportunity is neither whitespace nor a newline. -/
theorem OpportunityAt.whitespacePredicate_eq_false (h : OpportunityAt text i) :
    ∃ u, text[i]? = some u ∧ whitespacePredicate u = false := by
  obtain ⟨u, v, -, -, hv, -, hspace, htab, -, -, hcr, hlf, hnl, -⟩ := h
  refine ⟨v, hv, ?_⟩
  rw [whitespacePredicate, newlinePredicate]
  simp only [hspace, htab, hcr, hlf, hnl, decide_false, Bool.or_self]

/-- The hard line that contains a chunk. -/
theorem HardStart.exists_hardLine (hstart : HardStart text h i) (hchunk : Chunk text i j)
    (hlt : h < j) :
    ∃ H, HardLine text h H ∧ j ≤ H ∧ (j < H → ¬MandatoryAt text j) := by
  classical
  have hexists : ∃ k, j ≤ k ∧ (k = text.length ∨ MandatoryAt text k) :=
    ⟨text.length, hchunk.le_length, .inl rfl⟩
  obtain ⟨hle, hstop⟩ := Nat.find_spec hexists
  have hmin : ∀ k, j ≤ k → k < Nat.find hexists → ¬MandatoryAt text k :=
    fun k hk hlt hmandatory => Nat.find_min hexists hlt ⟨hk, .inr hmandatory⟩
  refine ⟨Nat.find hexists, ⟨hstart.start, lt_of_lt_of_le hlt hle, hstop, fun k hk hkH => ?_⟩,
    hle, hmin j (le_refl j)⟩
  rcases lt_or_ge i k with hik | hik
  · rcases lt_or_ge k j with hkj | hkj
    · exact Chunk.not_mandatory hchunk hik hkj
    · exact hmin k hkj hkH
  · exact hstart.not_mandatory k hk hik

/-- A chunk that does not start a hard line starts at an opportunity. -/
theorem HardStart.opportunityAt (hstart : HardStart text h i) (hchunk : ChunkStart text i)
    (hlt : h < i) : OpportunityAt text i := by
  rcases hchunk with rfl | ⟨b, hb, htype, rfl⟩
  · exact absurd hlt (Nat.not_lt_zero h)
  · exact (mandatoryAt_or_opportunityAt hb htype).resolve_left
      (hstart.not_mandatory b.index hlt (le_refl _))

omit [LinearOrder W] [Zero W] in
/-- The part of a hard line up to the end of a chunk is no longer than the hard line. -/
theorem trimmedEnd_le_of_hardLine (hstart : HardStart c.text h i) (hchunk : Chunk c.text i j)
    (hlt : i < j) (hle : j ≤ H) (hnot : j < H → ¬MandatoryAt c.text j)
    (hH : H ≤ c.text.length) :
    c.trimmedEnd i j ≤ excludeTrailing c.text h H newlinePredicate := by
  have hnewline : ∀ u, whitespacePredicate u = false → newlinePredicate u = false := by
    intro u hu
    rw [whitespacePredicate, Bool.or_eq_false_iff] at hu
    exact hu.2
  rcases Nat.lt_or_eq_of_le hle with hjH | rfl
  · -- the hard line goes on after the chunk
    have htype : (nextLineBreak c.text i).type ≠ .endOfText := by
      intro htype
      have hend := hchunk.nextBreak.index_eq htype
      rw [hchunk.index_eq] at hend
      omega
    have hcases := mandatoryAt_or_opportunityAt (nextLineBreak_mem hchunk.start.le_length) htype
    rw [hchunk.index_eq] at hcases
    obtain ⟨u, hu, hwhite⟩ :=
      OpportunityAt.whitespacePredicate_eq_false (hcases.resolve_left (hnot hjH))
    exact le_trans excludeTrailing_le (le_of_lt (lt_excludeTrailing hjH hu (hnewline u hwhite)))
  · refine le_trans ?_ (excludeTrailing_mono fun _ => whitespacePredicate_of_newlinePredicate)
    rcases Nat.lt_or_eq_of_le hstart.le with hhi | rfl
    · -- the chunk starts at an opportunity, and is not only whitespace
      refine excludeTrailing_le_excludeTrailing ?_
      obtain ⟨u, hu, hwhite⟩ := OpportunityAt.whitespacePredicate_eq_false
        (hstart.opportunityAt hchunk.start hhi)
      exact le_of_lt (lt_excludeTrailing hlt hu hwhite)
    · exact le_refl _

/-- Up to the end of each chunk, a hard line is not wider than the maximum intrinsic width. -/
theorem HardStart.measureSubstring_le (hmono : c.MonotoneEnd) (hstart : HardStart c.text h i)
    (hchunk : Chunk c.text i j) :
    c.measureSubstring h (c.trimmedEnd i j) ≤ c.maxIntrinsicWidth := by
  obtain ⟨hpos, hbound⟩ := c.maxIntrinsicWidth_spec
  rcases Nat.lt_or_eq_of_le hchunk.le with hlt | rfl
  · obtain ⟨H, hline, hle, hnot⟩ := hstart.exists_hardLine hchunk (lt_of_le_of_lt hstart.le hlt)
    have hH := hline.le_length
    refine le_trans (hmono (le_trans hstart.le (le_excludeTrailing hchunk.le))
      (trimmedEnd_le_of_hardLine hstart hchunk hlt hle hnot hH)
      (le_trans excludeTrailing_le hH)) (hbound h H hline)
  · -- only the end of the text is an empty chunk, and it starts a hard line
    obtain rfl : h = i := by
      refine (Nat.lt_or_eq_of_le hstart.le).resolve_left fun hlt => ?_
      have hend : (nextLineBreak c.text i).type = .endOfText := by
        by_contra htype
        have hlt' := hchunk.nextBreak.lt_index htype
        rw [hchunk.index_eq] at hlt'
        exact lt_irrefl i hlt'
      have hlength := hchunk.nextBreak.index_eq hend
      rw [hchunk.index_eq] at hlength
      exact ne_of_lt (hstart.opportunityAt hchunk.start hlt).lt_length.2 hlength
    rwa [measureSubstring_trimmedEnd_self]

/-! ## Lines -/

variable [Add W] [Sub W]

/-- The lines end at the hard breaks. -/
theorem ensures_map_endIndex (hmono : c.MonotoneEnd) (hmax : c.maxLines = none)
    (hwidth : c.maxIntrinsicWidth ≤ c.maxWidth) :
    Ensures c.Fails (fun lines => lines.map endIndex =
      ((lineBreaks c.text).filter (·.type ≠ .opportunity)).map index) c.lines := by
  have hrun : Ensures c.Fails (fun s => s.lines.map endIndex =
      ((lineBreaks c.text).filter (·.type ≠ .opportunity)).map index)
      ((lineBreaks c.text).foldlM c.update init) := by
    refine ensures_foldlM_lineBreaks_history
      (fun done i s => AtBreak c i s ∧ s.reachedMaxLines = false ∧
        HardStart c.text s.lineStart i ∧ s.lines.map endIndex =
          (done.filter (·.type ≠ .opportunity)).map index)
      (fun done s => s.lines.map endIndex = (done.filter (·.type ≠ .opportunity)).map index) ?_
      ⟨AtBreak.init, rfl,
        ⟨.inl rfl, le_refl 0, fun _ hlt hle => absurd hlt (not_lt.mpr hle)⟩,
        rfl⟩
    rintro done rest i s b - - hb hchunk ⟨hat, hreached, hstart, hlines⟩
    have hfits := le_trans (hstart.measureSubstring_le hmono hchunk) hwidth
    refine (ensures_update (· = s) (· = s) (· = c.consumed b s) hat hchunk.le rfl rfl ?_ ?_
      ?_).mono ?_
    · rintro s₀ again s' - - rfl - hround
      cases hround with
      | fits => rfl
      | truncated _ wide | stuck _ wide | forced _ wide | moved _ wide =>
        exact absurd hfits (not_le.mpr wide)
    · rintro s₀ htrue (rfl | rfl) <;>
      · rw [hreached] at htrue
        cases htrue
    · rintro s₀ - - rfl
      rfl
    · rintro s' ⟨hat', rfl⟩
      by_cases hopportunity : b.type = .opportunity
      · have hnot : ¬(b.type = .mandatory ∨ b.type = .endOfText) := by
          rw [hopportunity]
          nofun
        rw [if_neg fun h => hnot (.inr h)]
        rw [consumed, if_neg hnot] at hat' ⊢
        refine ⟨hat', hreached, hstart.opportunity hb hchunk hopportunity, ?_⟩
        rw [filter_append, filter_cons_of_neg (by simpa using hopportunity), filter_nil, append_nil]
        exact hlines
      · have hhard := type_ne_opportunity_iff.mp hopportunity
        have hmap : (c.consumed b s).lines.map endIndex =
            ((done ++ [b]).filter (·.type ≠ .opportunity)).map index := by
          rw [consumed, if_pos hhard, filter_append, map_append, ← hlines,
            filter_cons_of_pos (by simpa using hopportunity), addLineBreak, map_append]
          rfl
        split
        · exact hmap
        · next htype =>
          rw [consumed, if_pos hhard] at hat' hmap ⊢
          refine ⟨hat', ?_, .hard hb hchunk hopportunity htype, hmap⟩
          change (s.reachedMaxLines || _) = false
          rw [hreached, hmax]
          rfl
  exact hrun.bind fun s hs => hs

/-- In the minimum intrinsic width no chunk is broken, and in the maximum intrinsic width there is
one line for each hard break. -/
theorem lines_of_intrinsic_le (c : LinesCalculator W) (hmono : c.MonotoneEnd)
    (hellipsis : c.ellipsis = none) (hmax : c.maxLines = none) :
    (c.minIntrinsicWidth ≤ c.maxWidth → ∃ lines, c.lines = .ok lines ∧
      ∀ line ∈ lines, ∃ b ∈ lineBreaks c.text, b.index = line.endIndex) ∧
    (c.maxIntrinsicWidth ≤ c.maxWidth → ∃ lines, c.lines = .ok lines ∧
      lines.map endIndex = ((lineBreaks c.text).filter (·.type ≠ .opportunity)).map index) := by
  refine ⟨fun hwidth => ?_, fun hwidth => ?_⟩
  · obtain ⟨hmin, hbound⟩ := c.minIntrinsicWidth_spec
    have hpos := le_trans hmin hwidth
    obtain ⟨lines, hlines, hgood⟩ := Terminates.exists_lines hpos (.inl hellipsis)
      (ensures_goodLine hpos hmono hellipsis hmax)
    refine ⟨lines, hlines, fun line hline => (hgood line hline).endsAt.resolve_right ?_⟩
    rintro ⟨i, j, hchunk, hi, hj, hwide⟩
    exact absurd (le_trans (hbound i j hchunk (lt_trans hi hj)) hwidth) (not_le.mpr hwide)
  · exact Terminates.exists_lines (le_trans c.maxIntrinsicWidth_spec.1 hwidth) (.inl hellipsis)
      (ensures_map_endIndex hmono hmax hwidth)

theorem lines_of_intrinsic_le_words :
    (∃ lines, (monospaced words 2 none none).lines = .ok lines ∧
      ∀ line ∈ lines, ∃ b ∈ lineBreaks words, b.index = line.endIndex) ∧
    ∃ lines, (monospaced words 5 none none).lines = .ok lines ∧
      lines.map endIndex = ((lineBreaks words).filter (·.type ≠ .opportunity)).map index :=
  ⟨(lines_of_intrinsic_le (monospaced words 2 none none) (monotoneEnd_monospaced _ _ _ _) rfl
      rfl).1 (by decide),
    (lines_of_intrinsic_le (monospaced words 5 none none) (monotoneEnd_monospaced _ _ _ _) rfl
      rfl).2 (by decide)⟩

end WebUi.LinesCalculator
