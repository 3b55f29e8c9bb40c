import FlutterEngine.WebUi.Text.LinesCalculator.Width

/-!
# Lines cover the text

The lines of a text follow each other without gaps from its start to its end, or to the end of the
last line that `maxLines` allows (`Covers`). The proof runs the calculator twice, with its maximum
and without (`unlimited`), and `Limited` relates the two runs.

The flag that the maximum is reached is set before the last line is added. If nothing is added in
this round, the last line is lost. `lines_covers_iff` says when this happens.
-/

namespace WebUi.LinesCalculator

open Lib List

variable {W : Type} {c : LinesCalculator W} {i j stop rounds : ℕ} {s s' t t' : LinesState W}
  {lines lines' : List (EngineLineMetrics W)}

/-! ## Lines without gaps -/

/-- The lines cover a text of some length, or the part of it for which there are enough lines. -/
structure Covers (length : ℕ) (maxLines : Option ℕ) (lines : List (EngineLineMetrics W)) :
    Prop where
  nonempty : lines ≠ []
  head : ∀ line ∈ lines.head?, line.startIndex = 0
  chain : lines.IsChain fun line next => line.endIndex = next.startIndex
  length_le : ∀ m ∈ maxLines, lines.length ≤ m
  last : (∀ m ∈ maxLines, lines.length < m) → ∀ line ∈ lines.getLast?, line.endIndex = length

/-- The lines follow each other up to `stop`. -/
structure Chained (lines : List (EngineLineMetrics W)) (stop : ℕ) : Prop where
  head : ∀ line ∈ lines.head?, line.startIndex = 0
  chain : lines.IsChain fun line next => line.endIndex = next.startIndex
  last : ∀ line ∈ lines.getLast?, line.endIndex = stop
  zero : lines = [] → stop = 0

/-- A line is added where the last one ended. -/
lemma Chained.append {line : EngineLineMetrics W} (h : Chained lines stop)
    (hline : line.startIndex = stop) : Chained (lines ++ [line]) line.endIndex := by
  refine ⟨?_, ?_, ?_, fun hnil => absurd hnil (by simp)⟩
  · cases lines with
    | nil =>
      intro line' hline'
      obtain rfl : line = line' := by simpa using hline'
      exact hline.trans (h.zero rfl)
    | cons first rest =>
      intro line' hline'
      exact h.head line' hline'
  · refine List.IsChain.append h.chain (List.IsChain.singleton line) fun last hlast next hnext => ?_
    obtain rfl : line = next := by simpa using hnext
    exact (h.last last hlast).trans hline.symm
  · intro line' hline'
    obtain rfl : line = line' := by simpa using hline'
    rfl

/-! ## Without a maximum -/

/-- The calculator without a maximum number of lines. -/
def unlimited (c : LinesCalculator W) : LinesCalculator W := { c with maxLines := none }

lemma maxWidth_unlimited : c.unlimited.maxWidth = c.maxWidth := rfl

/-- Which line is the last one without an ellipsis. -/
lemma isLastLine_iff (hellipsis : c.ellipsis = none) :
    c.isLastLine s = true ↔ some (s.lines.length + 1) = c.maxLines := by
  rw [isLastLine, hellipsis, Option.isSome_none, Bool.false_and, Bool.false_or, decide_eq_true_eq]

/-- Without a limit no flag is set. -/
lemma flagged_unlimited (hellipsis : c.ellipsis = none) (hreached : s.reachedMaxLines = false) :
    c.unlimited.flagged s = s := by
  have hlast : c.unlimited.isLastLine s = false := by
    rw [isLastLine, show c.unlimited.ellipsis = none from hellipsis]
    rfl
  rw [flagged, hlast, ← hreached]

/-- A line that is not the last leaves room for another one. -/
lemma lt_of_isLastLine_eq_false (hellipsis : c.ellipsis = none)
    (hlt : ∀ m ∈ c.maxLines, s.lines.length < m) (hlast : c.isLastLine s = false) :
    ∀ m ∈ c.maxLines, s.lines.length + 1 < m := by
  intro m hm
  have hne : s.lines.length + 1 ≠ m := by
    rintro rfl
    rw [(isLastLine_iff hellipsis).mpr hm.symm] at hlast
    cases hlast
  exact lt_of_le_of_ne (hlt m hm) hne

section

variable [Zero W]

/-- A break adds a line where the last one ended. -/
lemma Chained.addLineBreak {lineEnd : ℕ} {isHardBreak : Bool} (h : Chained s.lines s.lineStart) :
    Chained (c.addLineBreak lineEnd isHardBreak s).lines lineEnd := by
  obtain ⟨line, heq, hline⟩ := c.exists_lines_addLineBreak s lineEnd isHardBreak
  rw [heq, ← hline.endIndex_eq]
  exact h.append hline.startIndex_eq

lemma measureSubstring_unlimited (start stop : ℕ) :
    c.unlimited.measureSubstring start stop = c.measureSubstring start stop := rfl

/-- The flag is not changed again by the line that is added after it has been set. -/
theorem addLineBreak_flagged (hellipsis : c.ellipsis = none) (lineEnd : ℕ) (isHardBreak : Bool) :
    c.addLineBreak lineEnd isHardBreak (c.flagged s) =
      { c.unlimited.addLineBreak lineEnd isHardBreak s with
        reachedMaxLines := c.isLastLine s } := by
  have hflag : (c.isLastLine s || decide (some (s.lines.length + 1) = c.maxLines)) =
      c.isLastLine s := by
    rw [Bool.or_eq_left_iff_imp, decide_eq_true_eq]
    exact (isLastLine_iff hellipsis).mpr
  rw [addLineBreak, flagged]
  rw [List.length_append, length_singleton, hflag]
  rfl

/-- Without a limit it is never reached. -/
lemma reachedMaxLines_addLineBreak_unlimited (hreached : s.reachedMaxLines = false)
    (lineEnd : ℕ) (isHardBreak : Bool) :
    (c.unlimited.addLineBreak lineEnd isHardBreak s).reachedMaxLines = false := by
  change (s.reachedMaxLines || _) = false
  rw [hreached]
  rfl

/-- Before the last line the limit makes no difference. -/
lemma addLineBreak_of_isLastLine_eq_false (hellipsis : c.ellipsis = none)
    (hreached : s.reachedMaxLines = false) (hlast : c.isLastLine s = false) (lineEnd : ℕ)
    (isHardBreak : Bool) :
    c.addLineBreak lineEnd isHardBreak s = c.unlimited.addLineBreak lineEnd isHardBreak s := by
  have hflagged : c.flagged s = s := by rw [flagged, hlast, ← hreached]
  have hadd := c.addLineBreak_flagged (s := s) hellipsis lineEnd isHardBreak
  rwa [hflagged, hlast,
    ← reachedMaxLines_addLineBreak_unlimited hreached lineEnd isHardBreak] at hadd

/-- What a hard break does. -/
lemma consumed_of_hard {b : LineBreakResult} (hhard : b.type = .mandatory ∨ b.type = .endOfText) :
    c.consumed b s = { c.addLineBreak b.index true s with chunkStart := b.index } := by
  rw [consumed, if_pos hhard]

/-- Lines that were added stay. -/
lemma initial_consumed {b : LineBreakResult} : s.lines <+: (c.consumed b s).lines := by
  rw [consumed]
  split
  · exact prefix_append _ _
  · exact prefix_refl _

end

/-! ## Runs with and without a maximum -/

def EndsAtBreak (c : LinesCalculator W) (line : EngineLineMetrics W) : Prop :=
  ∃ b ∈ lineBreaks c.text, b.index = line.endIndex

variable [LinearOrder W]

/-- The line with the number `n` does not fit and ends at a break. -/
def Lost (c : LinesCalculator W) (n : ℕ) (lines : List (EngineLineMetrics W)) : Prop :=
  ∃ line ∈ lines[n]?, c.EndsAtBreak line ∧ c.maxWidth < line.width

/-- A text that is lost stays lost. -/
lemma Lost.of_initial {n : ℕ} (h : c.Lost n lines) (hinitial : lines <+: lines') :
    c.Lost n lines' := by
  obtain ⟨line, hline, hlost⟩ := h
  obtain ⟨rest, rfl⟩ := hinitial
  have hlt := (List.getElem?_eq_some_iff.mp hline).1
  exact ⟨line, (getElem?_append_left hlt).trans hline, hlost⟩

variable [Zero W]

/-- How a state of the calculator is related to one of the calculator without a maximum when the
breaks up to `i` have been consumed. -/
inductive Limited (c : LinesCalculator W) (i : ℕ) : LinesState W → LinesState W → Prop
  /-- The maximum has not been reached. -/
  | same {t : LinesState W} (lt : ∀ m ∈ c.maxLines, t.lines.length < m)
      (chained : Chained t.lines t.lineStart)
      (fits : c.isLastLine t = true →
        c.measureSubstring t.lineStart (c.trimmedEnd t.lineStart i) ≤ c.maxWidth) :
      Limited c i t t
  /-- All lines have been added. -/
  | full {s t : LinesState W} (reached : s.reachedMaxLines = true)
      (length_eq : some s.lines.length = c.maxLines) (initial : s.lines <+: t.lines)
      (chained : Chained s.lines s.lineStart)
      (fits : ∀ line ∈ s.lines.getLast?, c.EndsAtBreak line → line.width ≤ c.maxWidth) :
      Limited c i s t
  /-- The last line will not be added, because it does not fit. -/
  | pending {s t : LinesState W} (reached : s.reachedMaxLines = true)
      (length_eq : some (s.lines.length + 1) = c.maxLines) (lines_eq : t.lines = s.lines)
      (lt : t.lineStart < i)
      (last_lt : ∀ line ∈ s.lines.getLast?, line.endIndex < c.text.length)
      (wide : c.maxWidth < c.measureSubstring t.lineStart (c.trimmedEnd t.lineStart i)) :
      Limited c i s t
  /-- The last line has not been added. -/
  | lost {s t : LinesState W} (reached : s.reachedMaxLines = true)
      (length_eq : some (s.lines.length + 1) = c.maxLines) (initial : s.lines <+: t.lines)
      (last_lt : ∀ line ∈ s.lines.getLast?, line.endIndex < c.text.length)
      (lost : c.Lost s.lines.length t.lines) : Limited c i s t

/-- What holds in the loop for the chunk that starts at `i` until the maximum is reached. -/
structure Within (c : LinesCalculator W) (i : ℕ) (s : LinesState W) : Prop where
  start : s.chunkStart = i ∨ i < s.chunkStart ∧ s.chunkStart = s.lineStart
  lt : ∀ m ∈ c.maxLines, s.lines.length < m
  chained : Chained s.lines s.lineStart
  fits : c.isLastLine s = true →
    c.measureSubstring s.lineStart (c.trimmedEnd s.lineStart s.chunkStart) ≤ c.maxWidth

lemma Within.le_chunkStart (h : Within c i s) : i ≤ s.chunkStart := by
  rcases h.start with heq | ⟨hlt, -⟩
  · exact le_of_eq heq.symm
  · exact le_of_lt hlt

/-- The end of the chunk is consumed by both calculators, unless the maximum has been reached. -/
theorem Limited.consumed {b : LineBreakResult} (hpos : 0 ≤ c.maxWidth)
    (hellipsis : c.ellipsis = none) (hb : b ∈ lineBreaks c.text)
    (h : Limited c b.index s t) (hreached : t.reachedMaxLines = false) :
    Limited c b.index (if s.reachedMaxLines then s else c.consumed b s)
      (c.unlimited.consumed b t) := by
  obtain ⟨line, heq, hline⟩ := c.unlimited.exists_lines_addLineBreak t b.index true
  have hinitial := c.unlimited.initial_consumed (s := t) (b := b)
  cases h with
  | same lt chained fits =>
    rw [hreached, if_neg Bool.false_ne_true]
    by_cases hhard : b.type = .mandatory ∨ b.type = .endOfText
    · rw [consumed_of_hard hhard, consumed_of_hard hhard]
      cases hlast : c.isLastLine s with
      | true =>
        have hlength := (isLastLine_iff hellipsis).mp hlast
        refine .full ((reachedMaxLines_addLineBreak _ _).mpr (.inr hlength)) ?_
          (prefix_refl _) chained.addLineBreak fun line' hline' _ => ?_
        · rwa [length_addLineBreak]
        · obtain rfl : line = line' := by
            rw [show (c.addLineBreak b.index true s).lines = _ from heq] at hline'
            simpa using hline'
          rw [hline.width_eq]
          exact fits hlast
      | false =>
        rw [addLineBreak_of_isLastLine_eq_false hellipsis hreached hlast]
        refine .same ?_ chained.addLineBreak fun _ => ?_
        · rw [length_addLineBreak]
          exact lt_of_isLastLine_eq_false hellipsis lt hlast
        · change c.measureSubstring b.index (c.trimmedEnd b.index b.index) ≤ c.maxWidth
          rwa [measureSubstring_trimmedEnd_self]
    · rw [consumed, consumed, if_neg hhard, if_neg hhard]
      exact .same lt chained fits
  | full reached length_eq initial chained fits =>
    rw [if_pos reached]
    exact .full reached length_eq (initial.trans hinitial) chained fits
  | pending reached length_eq lines_eq lt last_lt wide =>
    rw [if_pos reached]
    by_cases hhard : b.type = .mandatory ∨ b.type = .endOfText
    · rw [consumed_of_hard hhard] at hinitial ⊢
      refine .lost reached length_eq (lines_eq ▸ hinitial) last_lt ⟨line, ?_, ⟨b, hb, ?_⟩, ?_⟩
      · rw [← lines_eq, show (c.unlimited.addLineBreak b.index true t).lines = _ from heq]
        exact getElem?_concat_length
      · exact hline.endIndex_eq.symm
      · rw [hline.width_eq]
        exact wide
    · rw [LinesCalculator.consumed, if_neg hhard]
      exact .pending reached length_eq lines_eq lt last_lt wide
  | lost reached length_eq initial last_lt lost =>
    rw [if_pos reached]
    exact .lost reached length_eq (initial.trans hinitial) last_lt (lost.of_initial hinitial)

/-- What the relation means at the end of the text. -/
theorem Limited.covers_iff (hmax : c.maxLines ≠ some 0) (h : Limited c c.text.length s t)
    (hne : t.lines ≠ []) (hend : t.lineStart = c.text.length) :
    Covers c.text.length c.maxLines s.lines ↔
      ∀ m ∈ c.maxLines, ∀ line ∈ t.lines[m - 1]?, c.EndsAtBreak line → line.width ≤ c.maxWidth := by
  cases h with
  | same lt chained =>
    refine iff_of_true ⟨hne, chained.head, chained.chain, fun m hm => le_of_lt (lt m hm),
      fun _ line hline => (chained.last line hline).trans hend⟩ fun m hm line hline => ?_
    have hlt := (List.getElem?_eq_some_iff.mp hline).1
    have hlt' := lt m hm
    omega
  | full reached length_eq initial chained fits =>
    have hlength : s.lines.length ≠ 0 := by
      intro hzero
      rw [← length_eq, hzero] at hmax
      exact hmax rfl
    rw [← length_eq]
    refine iff_of_true ⟨ne_nil_of_length_pos (Nat.pos_of_ne_zero hlength), chained.head,
      chained.chain, ?_, fun hlt => absurd (hlt _ rfl) (lt_irrefl _)⟩ ?_
    · rintro m ⟨⟩
      exact le_refl _
    · rintro m ⟨⟩ line hline
      obtain ⟨rest, hrest⟩ := initial
      rw [← hrest, getElem?_append_left (by omega), ← getLast?_eq_getElem?] at hline
      exact fits line hline
  | pending reached length_eq lines_eq lt => exact absurd hend (ne_of_lt lt)
  | lost reached length_eq initial last_lt lost =>
    obtain ⟨line, hline, hbreak, hwide⟩ := lost
    refine iff_of_false (fun hcovers => ?_) fun hfits => ?_
    · have hlast := hcovers.last fun m hm => by
        rw [← length_eq, Option.mem_some_iff] at hm
        omega
      have hmem := getLast?_eq_some_getLast hcovers.nonempty
      exact absurd (hlast _ hmem) (ne_of_lt (last_lt _ hmem))
    · exact absurd (hfits _ length_eq.symm line hline hbreak) (not_le.mpr hwide)

/-! ## Rounds with and without a maximum -/

/-- The bisection does not depend on the limit. -/
lemma bisect_unlimited {maxWidth : W} {start low high : ℕ} :
    c.unlimited.bisect maxWidth start rounds low high =
      c.bisect maxWidth start rounds low high := by
  induction rounds generalizing low high with
  | zero => rfl
  | succ rounds ih =>
    rw [bisect, bisect]
    simp only [ih]
    rfl

/-- Forced breaks do not depend on the limit. -/
lemma forceBreakSubstring_unlimited (maxWidth : W) (start stop : ℕ) :
    c.unlimited.forceBreakSubstring maxWidth start stop =
      c.forceBreakSubstring maxWidth start stop := by
  rw [forceBreakSubstring, forceBreakSubstring]
  simp only [bisect_unlimited]
  rfl

variable [Add W] [Sub W]

/-- A round without an ellipsis. -/
lemma breakLine_of_none (hellipsis : c.ellipsis = none) : c.breakLine j stop s =
      if c.measureSubstring s.lineStart stop ≤ c.maxWidth then
        .ok (false, s)
      else if s.chunkStart = s.lineStart then
        (c.forceBreakSubstring c.maxWidth s.lineStart stop).map fun point =>
          if point = stop then
            (false, c.flagged s)
          else
            (true, { c.addLineBreak point false (c.flagged s) with chunkStart := point })
      else
        .ok (true, c.addLineBreak s.chunkStart false (c.flagged s)) := by
  rw [breakLine, hellipsis, flagged]
  split
  · rfl
  · cases c.isLastLine s <;> dsimp only <;> split
    all_goals first | rfl |
      cases c.forceBreakSubstring c.maxWidth s.lineStart stop with
      | error => rfl
      | ok point =>
        rw [ok_bind, Except.map]
        split <;> rfl

/-- Without an ellipsis, the maximum only matters for the flag. -/
theorem breakLine_of_unlimited {again : Bool} (hellipsis : c.ellipsis = none)
    (hreached : s.reachedMaxLines = false)
    (h : c.unlimited.breakLine j stop s = .ok (again, t)) :
    t.reachedMaxLines = false ∧ c.breakLine j stop s = .ok (again, { t with
      reachedMaxLines :=
        decide (c.maxWidth < c.measureSubstring s.lineStart stop) && c.isLastLine s }) := by
  have hunlimited : c.unlimited.ellipsis = none := hellipsis
  have hadd := fun lineEnd => c.reachedMaxLines_addLineBreak_unlimited hreached lineEnd false
  rw [breakLine_of_none hunlimited, flagged_unlimited hellipsis hreached,
    forceBreakSubstring_unlimited, measureSubstring_unlimited, maxWidth_unlimited] at h
  rw [breakLine_of_none hellipsis]
  by_cases hfits : c.measureSubstring s.lineStart stop ≤ c.maxWidth
  · rw [if_pos hfits] at h ⊢
    cases h
    rw [decide_eq_false (not_lt.mpr hfits), Bool.false_and, ← hreached]
    exact ⟨rfl, rfl⟩
  · rw [if_neg hfits] at h ⊢
    rw [decide_eq_true (not_le.mp hfits), Bool.true_and]
    split
    · next hstart =>
      rw [if_pos hstart] at h
      cases hforce : c.forceBreakSubstring c.maxWidth s.lineStart stop with
      | error =>
        rw [hforce] at h
        cases h
      | ok point =>
        rw [hforce, Except.map] at h
        rw [Except.map]
        split
        · next heq =>
          rw [if_pos heq] at h
          cases h
          exact ⟨hreached, rfl⟩
        · next hne =>
          rw [if_neg hne] at h
          cases h
          rw [addLineBreak_flagged hellipsis]
          exact ⟨hadd point, rfl⟩
    · next hstart =>
      rw [if_neg hstart] at h
      cases h
      rw [addLineBreak_flagged hellipsis]
      exact ⟨hadd s.chunkStart, rfl⟩

/-- A round that goes on starts with a line that is too wide. -/
lemma Round.wide (h : Round c j stop s true t) :
    c.maxWidth < c.measureSubstring s.lineStart stop := by
  cases h with
  | truncated _ wide | forced _ wide | moved _ wide => exact wide

section Loop

variable (hpos : 0 ≤ c.maxWidth) (hmono : c.MonotoneEnd) (hellipsis : c.ellipsis = none)
  (hchunk : Chunk c.text i j)

include hpos hellipsis in
/-- The loop goes on until the last line. -/
theorem Within.round (h : Within c i s) (hlast : c.isLastLine s = false)
    (hround : Round c.unlimited j stop s true t) : Within c i t := by
  have hlt := lt_of_isLastLine_eq_false hellipsis h.lt hlast
  have hunlimited : c.unlimited.ellipsis = none := hellipsis
  have hfits : ∀ start, c.measureSubstring start (c.trimmedEnd start start) ≤ c.maxWidth := by
    intro start
    rwa [measureSubstring_trimmedEnd_self]
  cases hround with
  | truncated ellipsis_eq =>
    rw [hunlimited] at ellipsis_eq
    cases ellipsis_eq
  | @forced point _ _ start_eq _ _ _ fits =>
    refine ⟨.inr ⟨?_, rfl⟩, ?_, h.chained.addLineBreak, fun _ => hfits point⟩
    · change i < point
      have hle := h.le_chunkStart
      rcases fits hunlimited with hpoint | hpoint <;> omega
    · rwa [length_addLineBreak]
  | moved _ _ start_ne =>
    refine ⟨.inl (h.start.resolve_right fun h => start_ne h.2), ?_, h.chained.addLineBreak,
      fun _ => hfits s.chunkStart⟩
    rwa [length_addLineBreak]

include hellipsis hchunk in
/-- The last line is added. -/
theorem Within.full (h : Within c i s) (hlast : c.isLastLine s = true) (hstop : stop ≤ j)
    (hround : Round c.unlimited j stop s true t) (hinitial : t.lines <+: t'.lines) :
    Limited c j { t with reachedMaxLines := true } t' := by
  have hunlimited : c.unlimited.ellipsis = none := hellipsis
  have hlength := (isLastLine_iff hellipsis).mp hlast
  cases hround with
  | truncated ellipsis_eq =>
    rw [hunlimited] at ellipsis_eq
    cases ellipsis_eq
  | @forced point _ _ start_eq _ _ lt fits =>
    obtain ⟨line, heq, hline⟩ :=
      c.unlimited.exists_lines_addLineBreak (c.unlimited.flagged s) point false
    refine .full rfl ?_ hinitial h.chained.addLineBreak ?_
    · rwa [length_addLineBreak]
    · rintro line' hline' ⟨b, hb, hindex⟩
      rw [heq] at hline'
      obtain rfl : line = line' := by simpa using hline'
      -- the line ends within the chunk
      have hle := h.le_chunkStart
      rw [hline.endIndex_eq] at hindex
      refine (hchunk.not_between hb hindex ?_ (lt_of_lt_of_le lt hstop)).elim
      rcases fits hunlimited with hpoint | hpoint <;> omega
  | moved =>
    obtain ⟨line, heq, hline⟩ :=
      c.unlimited.exists_lines_addLineBreak (c.unlimited.flagged s) s.chunkStart false
    refine .full rfl ?_ hinitial h.chained.addLineBreak ?_
    · rwa [length_addLineBreak]
    · rintro line' hline' -
      rw [heq] at hline'
      obtain rfl : line = line' := by simpa using hline'
      rw [hline.width_eq]
      exact h.fits hlast

include hmono hellipsis hchunk in
/-- The loop ends. -/
theorem Within.ends (h : Within c i s) (hin : InChunk c.unlimited (c.trimmedEnd i j) s)
    (hreached : s.reachedMaxLines = false)
    (hround : Round c.unlimited j (c.trimmedEnd i j) s false t) :
    Limited c j
      { t with
        reachedMaxLines :=
          decide (c.maxWidth < c.measureSubstring s.lineStart (c.trimmedEnd i j)) &&
            c.isLastLine s }
      t := by
  have hstart : s.lineStart ≤ c.trimmedEnd i j := le_trans hin.lineStart_le hin.chunkStart_le
  have hstop : c.trimmedEnd i j ≤ j := excludeTrailing_le
  have htrimmed : c.trimmedEnd s.lineStart j ≤ c.trimmedEnd i j :=
    excludeTrailing_le_excludeTrailing hstart
  generalize hflag : decide (c.maxWidth < c.measureSubstring s.lineStart (c.trimmedEnd i j)) = wide
  cases hround with
  | fits fits =>
    obtain rfl : wide = false := by
      rw [← hflag]
      exact decide_eq_false (not_lt.mpr fits)
    rw [Bool.false_and, ← hreached]
    refine .same h.lt h.chained fun _ => le_trans ?_ fits
    exact hmono (le_excludeTrailing (le_trans hstart hstop)) htrimmed
      (le_trans hstop hchunk.le_length)
  | stuck ellipsis_eq wide' start_eq eq =>
    obtain rfl : wide = true := by
      rw [← hflag]
      exact decide_eq_true wide'
    rw [Bool.true_and, flagged_unlimited hellipsis hreached]
    cases hlast : c.isLastLine s with
    | true =>
      refine .pending rfl ((isLastLine_iff hellipsis).mp hlast) rfl (by omega)
        (fun line hline => ?_) ?_
      · rw [h.chained.last line hline]
        have hle := hchunk.le_length
        omega
      have heq : c.trimmedEnd s.lineStart j = c.trimmedEnd i j :=
        le_antisymm htrimmed (excludeTrailing_mono_start (start_eq ▸ h.le_chunkStart))
      rwa [heq]
    | false =>
      rw [← hreached]
      refine .same h.lt h.chained fun htrue => ?_
      rw [hlast] at htrue
      cases htrue

/-- Without a maximum, the flag is not set. -/
theorem reachedMaxLines_breakLines (hellipsis : c.ellipsis = none)
    (hreached : s.reachedMaxLines = false)
    (h : c.unlimited.breakLines j stop rounds s = .ok t) : t.reachedMaxLines = false := by
  induction rounds generalizing s with
  | zero => cases h
  | succ rounds ih =>
    rw [breakLines, hreached, if_neg Bool.false_ne_true] at h
    obtain ⟨⟨again, s₁⟩, hbreak, h⟩ := bind_eq_ok_iff.mp h
    have hreached₁ := (breakLine_of_unlimited hellipsis hreached hbreak).1
    cases again with
    | false =>
      cases h
      exact hreached₁
    | true => exact ih hreached₁ h

include hpos hmono hellipsis hchunk in
/-- The rounds for a chunk, with the limit and without. -/
lemma breakLines_of_unlimited (hwithin : Within c i s)
    (hin : InChunk c.unlimited (c.trimmedEnd i j) s) (hreached : s.reachedMaxLines = false)
    (h : c.unlimited.breakLines j (c.trimmedEnd i j) rounds s = .ok t) :
    ∃ s', c.breakLines j (c.trimmedEnd i j) rounds s = .ok s' ∧ Limited c j s' t := by
  induction rounds generalizing s with
  | zero => cases h
  | succ rounds ih =>
    rw [breakLines, hreached, if_neg Bool.false_ne_true] at h ⊢
    obtain ⟨⟨again, s₁⟩, hbreak, h⟩ := bind_eq_ok_iff.mp h
    have hround : Round c.unlimited j (c.trimmedEnd i j) s again s₁ :=
      (ensures_breakLine (le_trans hin.lineStart_le hin.chunkStart_le)).of_eq_ok hbreak
    obtain ⟨hreached₁, hlimited⟩ := breakLine_of_unlimited hellipsis hreached hbreak
    rw [hlimited, ok_bind]
    cases again with
    | false =>
      cases h
      exact ⟨_, rfl, hwithin.ends hmono hellipsis hchunk hin hreached hround⟩
    | true =>
      have hwide : c.maxWidth < c.measureSubstring s.lineStart (c.trimmedEnd i j) := hround.wide
      rw [decide_eq_true hwide, Bool.true_and]
      cases hlast : c.isLastLine s with
      | true =>
        -- there is a round left, in which the loop ends
        cases rounds with
        | zero => cases h
        | succ rounds =>
          exact ⟨_, rfl, hwithin.full hellipsis hchunk hlast excludeTrailing_le hround
            (initial_breakLines h)⟩
      | false =>
        rw [← hreached₁]
        exact ih (hwithin.round hpos hellipsis hlast hround) (hround.inChunk hin hreached) hreached₁
          h

/-- More rounds than are needed change nothing. -/
lemma breakLines_add (h : c.breakLines j stop rounds s = .ok t) (m : ℕ) :
    c.breakLines j stop (rounds + m) s = .ok t := by
  induction rounds generalizing s with
  | zero => cases h
  | succ rounds ih =>
    rw [Nat.succ_add]
    rw [breakLines] at h ⊢
    split at h
    · next hreached =>
      rw [if_pos hreached]
      exact h
    · next hreached =>
      obtain ⟨⟨again, s₁⟩, hbreak, h⟩ := bind_eq_ok_iff.mp h
      rw [if_neg hreached, hbreak, ok_bind]
      cases again with
      | false => exact h
      | true => exact ih h

end Loop

/-! ## Updates with and without a maximum -/

section Update

variable {b : LineBreakResult}

/-- Behind the last line nothing happens. -/
lemma update_of_reachedMaxLines (h : s.reachedMaxLines = true) : c.update s b = .ok s := by
  rw [update, breakLines, if_pos h, ok_bind, if_pos h]
  rfl

/-- What an update without a maximum does. -/
structure Updated (c : LinesCalculator W) (b : LineBreakResult) (t t' : LinesState W) : Prop where
  atBreak : AtBreak c b.index t'
  initial : t.lines <+: t'.lines
  not_reached : t'.reachedMaxLines = false
  endOfText : b.type = .endOfText → t'.lines ≠ [] ∧ t'.lineStart = b.index

variable (hellipsis : c.ellipsis = none) (hat : AtBreak c.unlimited i t)
  (hreached : t.reachedMaxLines = false)
include hellipsis hat hreached

/-- What the update for a break ensures without the limit. -/
lemma ensures_updated (hle : i ≤ b.index) :
    Ensures c.unlimited.Fails (Updated c.unlimited b t) (c.unlimited.update t b) := by
  refine (ensures_update (fun t' => t.lines <+: t'.lines ∧ t'.reachedMaxLines = false)
    (fun t' => t.lines <+: t'.lines ∧ t'.reachedMaxLines = false)
    (fun t' => t.lines <+: t'.lines ∧ t'.reachedMaxLines = false ∧
      (b.type = .endOfText → t'.lines ≠ [] ∧ t'.lineStart = b.index)) hat hle rfl
    ⟨prefix_refl _, hreached⟩ ?_ ?_ ?_).mono
    fun t' h => ⟨h.1, h.2.1, h.2.2.1, h.2.2.2⟩
  · rintro u again u' - hreached ⟨hinitial, -⟩ hbreak hround
    have hnext := And.intro (hinitial.trans (initial_breakLine hbreak))
      (Round.reachedMaxLines_eq (c := c.unlimited) hellipsis rfl hround hreached)
    cases again <;> exact hnext
  · rintro u htrue (⟨-, hfalse⟩ | ⟨-, hfalse⟩) <;>
    · rw [hfalse] at htrue
      cases htrue
  · rintro u - hreached ⟨hinitial, -⟩
    refine ⟨hinitial.trans initial_consumed, ?_, fun hend => ?_⟩
    · rw [consumed]
      split
      · exact reachedMaxLines_addLineBreak_unlimited hreached _ _
      · exact hreached
    · rw [consumed_of_hard (.inr hend)]
      exact ⟨append_ne_nil_of_right_ne_nil _ (cons_ne_nil _ _), rfl⟩

variable (hmono : c.MonotoneEnd) (hchunk : Chunk c.text i b.index)
include hmono hchunk

/-- The line that does not fit is added without a maximum. -/
theorem ensures_update_lost (hlt : t.lineStart < i)
    (hwide : c.maxWidth < c.measureSubstring t.lineStart (c.trimmedEnd t.lineStart i)) :
    Ensures c.unlimited.Fails (fun t' => c.Lost t.lines.length t'.lines)
      (c.unlimited.update t b) := by
  have hstart := hat.chunkStart_eq hreached
  have hadded : c.Lost t.lines.length (c.unlimited.addLineBreak i false t).lines := by
    obtain ⟨line, heq, hline⟩ := c.unlimited.exists_lines_addLineBreak t i false
    refine ⟨line, ?_, ?_, ?_⟩
    · rw [heq]
      exact getElem?_concat_length
    · rw [EndsAtBreak, hline.endIndex_eq]
      rcases hchunk.start with rfl | ⟨b, hb, -, hindex⟩
      · exact absurd hlt (Nat.not_lt_zero _)
      · exact ⟨b, hb, hindex⟩
    · rw [hline.width_eq]
      exact hwide
  -- the line does not become narrower
  have hwide' : c.maxWidth < c.measureSubstring t.lineStart (c.trimmedEnd i b.index) := by
    refine lt_of_lt_of_le hwide (hmono (le_excludeTrailing (le_of_lt hlt)) ?_ ?_)
    · exact le_trans excludeTrailing_le (le_excludeTrailing hchunk.le)
    · exact le_trans excludeTrailing_le hchunk.le_length
  refine (ensures_update (fun u => u = t ∨ c.Lost t.lines.length u.lines)
    (fun u => c.Lost t.lines.length u.lines) (fun u => c.Lost t.lines.length u.lines) hat hchunk.le
    rfl (.inl rfl) ?_ ?_ ?_).mono fun _ h => h.2
  · rintro u again u' - hreached' hcases hbreak hround
    rcases hcases with rfl | hlost
    · cases hround with
      | fits fits => exact absurd hwide' (not_lt.mpr fits)
      | truncated ellipsis_eq =>
        rw [show c.unlimited.ellipsis = none from hellipsis] at ellipsis_eq
        cases ellipsis_eq
      | stuck _ _ start_eq => omega
      | forced _ _ start_eq => omega
      | moved =>
        right
        rw [flagged_unlimited hellipsis hreached, hstart]
        exact hadded
    · have hnext := hlost.of_initial (initial_breakLine hbreak)
      cases again with
      | false => exact hnext
      | true => exact .inr hnext
  · rintro u htrue ((rfl | hlost) | hlost)
    · rw [hreached] at htrue
      cases htrue
    · exact hlost
    · exact hlost
  · intro u _ _ hlost
    exact hlost.of_initial initial_consumed

variable (hpos : 0 ≤ c.maxWidth) (hb : b ∈ lineBreaks c.text)
  (hupdate : c.unlimited.update t b = .ok t')
include hpos hb hupdate

/-- The two runs are the same until the maximum is reached. -/
theorem Within.update (h : Within c i t) :
    ∃ s', c.update t b = .ok s' ∧ Limited c b.index s' t' := by
  have hstart := hat.chunkStart_eq hreached
  have hin : InChunk c.unlimited (c.trimmedEnd i b.index) t := by
    refine ⟨hat.lineStart_le, ?_, hat.length_lt, hat.length_le⟩
    rw [hstart]
    exact le_excludeTrailing hchunk.le
  rw [LinesCalculator.update, hstart] at hupdate ⊢
  change (c.unlimited.breakLines b.index (c.trimmedEnd i b.index)
    (c.trimmedEnd i b.index - t.lineStart + 1) t >>= _) = _ at hupdate
  change ∃ s', (c.breakLines b.index (c.trimmedEnd i b.index)
    (c.trimmedEnd i b.index - t.lineStart + c.maxLines.getD 0 + 1) t >>= _) = _ ∧ _
  cases hloop : c.unlimited.breakLines b.index (c.trimmedEnd i b.index)
    (c.trimmedEnd i b.index - t.lineStart + 1) t with
  | error f =>
    rw [hloop] at hupdate
    cases hupdate
  | ok u =>
    obtain ⟨s', hs', hlimited⟩ :=
      breakLines_of_unlimited hpos hmono hellipsis hchunk h hin hreached hloop
    have hreached' := reachedMaxLines_breakLines hellipsis hreached hloop
    rw [hloop, ok_bind, hreached', if_neg Bool.false_ne_true] at hupdate
    rw [Nat.add_right_comm, breakLines_add hs', ok_bind]
    have hconsumed := hlimited.consumed hpos hellipsis hb hreached'
    cases hupdate
    refine ⟨_, ?_, hconsumed⟩
    split <;> rfl

/-- An update keeps the relation. -/
theorem Limited.update (h : Limited c i s t) :
    ∃ s', c.update s b = .ok s' ∧ Limited c b.index s' t' := by
  have hinitial := ((ensures_updated hellipsis hat hreached hchunk.le).of_eq_ok hupdate).initial
  cases h with
  | same lt chained fits =>
    have hstart := hat.chunkStart_eq hreached
    refine Within.update hellipsis hat hreached hmono hchunk hpos hb hupdate
      ⟨.inl hstart, lt, chained, ?_⟩
    rwa [hstart]
  | full reached length_eq initial chained fits =>
    exact ⟨s, update_of_reachedMaxLines reached,
      .full reached length_eq (initial.trans hinitial) chained fits⟩
  | pending reached length_eq lines_eq lt last_lt wide =>
    have hlost := (ensures_update_lost hellipsis hat hreached hmono hchunk lt wide).of_eq_ok hupdate
    rw [lines_eq] at hlost hinitial
    exact ⟨s, update_of_reachedMaxLines reached, .lost reached length_eq hinitial last_lt hlost⟩
  | lost reached length_eq initial last_lt lost =>
    exact ⟨s, update_of_reachedMaxLines reached,
      .lost reached length_eq (initial.trans hinitial) last_lt (lost.of_initial hinitial)⟩

end Update

/-- The two runs end in related states. -/
theorem ensures_limited (hpos : 0 ≤ c.maxWidth) (hmono : c.MonotoneEnd)
    (hellipsis : c.ellipsis = none) (hmax : c.maxLines ≠ some 0) :
    Ensures c.unlimited.Fails (fun t => t.lines ≠ [] ∧ t.lineStart = c.text.length ∧
        ∃ s, (lineBreaks c.text).foldlM c.update init = .ok s ∧ Limited c c.text.length s t)
      ((lineBreaks c.text).foldlM c.unlimited.update init) := by
  refine ensures_foldlM_lineBreaks_history
    (fun done i t => AtBreak c.unlimited i t ∧ t.reachedMaxLines = false ∧
      ∃ s, done.foldlM c.update init = .ok s ∧ Limited c i s t)
    (fun done t => t.lines ≠ [] ∧ t.lineStart = c.text.length ∧
      ∃ s, done.foldlM c.update init = .ok s ∧ Limited c c.text.length s t) ?_
    ⟨AtBreak.init, rfl, init, rfl, .same ?_ ?_ ?_⟩
  · rintro done rest i t b - - hb hchunk ⟨hat, hreached, s, hs, hlimited⟩
    have hmem : b ∈ lineBreaks c.text := by
      rw [hb]
      exact nextLineBreak_mem hchunk.start.le_length
    have hupdated := ensures_updated hellipsis hat hreached hchunk.le
    cases hupdate : c.unlimited.update t b with
    | error f =>
      rw [hupdate] at hupdated
      exact hupdated
    | ok t' =>
      have h := hupdated.of_eq_ok hupdate
      obtain ⟨s', hs', hlimited'⟩ :=
        hlimited.update hellipsis hat hreached hmono hchunk hpos hmem hupdate
      have hrun : (done ++ [b]).foldlM c.update init = .ok s' := by
        rw [foldlM_append, hs, ok_bind, foldlM_cons, hs', ok_bind]
        rfl
      split
      · next hend =>
        have hindex : b.index = c.text.length := by
          rw [hb] at hend ⊢
          exact hchunk.nextBreak.index_eq hend
        rw [← hindex]
        exact ⟨(h.endOfText hend).1, (h.endOfText hend).2, s', hrun, hlimited'⟩
      · exact ⟨h.atBreak, h.not_reached, s', hrun, hlimited'⟩
  · intro m hm
    refine Nat.pos_of_ne_zero ?_
    rintro rfl
    exact hmax hm
  · exact ⟨nofun, List.IsChain.nil, nofun, fun _ => rfl⟩
  · intro _
    change c.measureSubstring 0 (c.trimmedEnd 0 0) ≤ c.maxWidth
    rwa [measureSubstring_trimmedEnd_self]

/-- The lines cover the text, unless the last line that `maxLines` allows ends at a break and does
not fit. Then this line is lost. -/
theorem lines_covers_iff (c : LinesCalculator W) (hpos : 0 ≤ c.maxWidth) (hmono : c.MonotoneEnd)
    (hellipsis : c.ellipsis = none) (hmax : c.maxLines ≠ some 0) :
    ∃ lines all, c.lines = .ok lines ∧ { c with maxLines := none }.lines = .ok all ∧
      (Covers c.text.length c.maxLines lines ↔ ∀ m ∈ c.maxLines, ∀ line ∈ all[m - 1]?,
        (∃ b ∈ lineBreaks c.text, b.index = line.endIndex) → line.width ≤ c.maxWidth) := by
  have hrun : Ensures c.unlimited.Fails (fun all => ∃ lines, c.lines = .ok lines ∧
      (Covers c.text.length c.maxLines lines ↔ ∀ m ∈ c.maxLines, ∀ line ∈ all[m - 1]?,
        c.EndsAtBreak line → line.width ≤ c.maxWidth)) c.unlimited.lines := by
    refine (ensures_limited hpos hmono hellipsis hmax).bind ?_
    rintro t ⟨hne, hend, s, hs, hlimited⟩
    refine ⟨s.lines, ?_, hlimited.covers_iff hmax hne hend⟩
    rw [lines, hs]
    rfl
  obtain ⟨all, hall, lines, hlines, hiff⟩ :=
    Terminates.exists_lines (c := c.unlimited) hpos (.inl hellipsis) hrun
  exact ⟨lines, all, hlines, hall, hiff⟩

/-- In a width of one, the second line is `b ` and ends at a break. It fits, since the space does
not count, and so the lines cover the text up to there. -/
theorem lines_covers_iff_words :
    ∃ lines all, (monospaced words 1 (some 2) none).lines = .ok lines ∧
      (monospaced words 1 none none).lines = .ok all ∧
      (∃ line ∈ all[1]?, (∃ b ∈ lineBreaks words, b.index = line.endIndex) ∧ line.width ≤ 1) ∧
      Covers 5 (some 2) lines := by
  obtain ⟨lines, all, hlines, hall, hiff⟩ := lines_covers_iff (monospaced words 1 (some 2) none)
    (by decide) (monotoneEnd_monospaced _ _ _ _) rfl nofun
  obtain ⟨line, hline, hindex, hwidth⟩ : ∃ line, all[1]? = some line ∧ line.endIndex = 3 ∧
      line.width = 1 := by
    injection hall with hall
    subst hall
    exact ⟨_, rfl, rfl, rfl⟩
  refine ⟨lines, all, hlines, hall, ⟨line, hline, ⟨⟨3, .opportunity⟩, by decide, hindex.symm⟩,
    hwidth.le⟩, hiff.mpr fun m hm line' hline' _ => ?_⟩
  obtain rfl := Option.some.inj hm
  obtain rfl := Option.some.inj (hline.symm.trans hline')
  exact hwidth.le

/-- A single line with a single code unit that does not fit is lost. -/
theorem lines_of_single :
    (monospaced [0x61] 0 (some 1) none).MonotoneEnd ∧
    (monospaced [0x61] 0 (some 1) none).lines = .ok [] ∧
    ¬Covers 1 (some 1) ([] : List (EngineLineMetrics ℤ)) :=
  ⟨monotoneEnd_monospaced _ _ _ _, rfl, fun h => h.nonempty rfl⟩

end WebUi.LinesCalculator
