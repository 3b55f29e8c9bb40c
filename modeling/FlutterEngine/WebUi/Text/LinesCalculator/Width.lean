import FlutterEngine.WebUi.Text.LinesCalculator.Rounds

/-!
# The width of lines

Without a maximum number of lines and without an ellipsis, each line fits into the maximum width or
is a single code unit with trailing whitespace, and only chunks that do not fit are broken
(`lines_narrow`).

* `Narrow`, `EndsAt` and `GoodLine` are what is expected of a line.
* `Filling` is the invariant of the rounds for a chunk.
* `monospaced` measures with a fixed width per code unit, for examples.
-/

namespace WebUi.LinesCalculator

open Lib

variable {W : Type} [LinearOrder W] [Zero W] {c : LinesCalculator W} {i j : ℕ}
  {s s' : LinesState W}

/-- The end of a substring without trailing whitespace. -/
def trimmedEnd (c : LinesCalculator W) (start stop : ℕ) : ℕ :=
  excludeTrailing c.text start stop whitespacePredicate

omit [LinearOrder W] in
lemma measureSubstring_trimmedEnd_self (start : ℕ) :
    c.measureSubstring start (c.trimmedEnd start start) = 0 := by
  have hself : c.trimmedEnd start start = start :=
    le_antisymm excludeTrailing_le (le_excludeTrailing (le_refl start))
  rw [hself, measureSubstring, if_pos rfl]

/-- The width of a substring does not decrease with its end. -/
def MonotoneEnd (c : LinesCalculator W) : Prop :=
  ∀ {start stop stop'}, start ≤ stop → stop ≤ stop' → stop' ≤ c.text.length →
    c.measureSubstring start stop ≤ c.measureSubstring start stop'

/-- A chunk without trailing whitespace does not fit into a line. -/
def TooWide (c : LinesCalculator W) (i j : ℕ) : Prop :=
  c.maxWidth < c.measureSubstring i (c.trimmedEnd i j)

/-- The line from `start` to `stop` fits, or is a single code unit. -/
def Narrow (c : LinesCalculator W) (start stop : ℕ) : Prop :=
  c.measureSubstring start (c.trimmedEnd start stop) ≤ c.maxWidth ∨
    c.trimmedEnd start stop = start + 1

/-- A line ends at a break, or within a chunk that does not fit. -/
def EndsAt (c : LinesCalculator W) (stop : ℕ) : Prop :=
  (∃ b ∈ lineBreaks c.text, b.index = stop) ∨
    ∃ i j, Chunk c.text i j ∧ i < stop ∧ stop < j ∧ c.TooWide i j

/-- What holds of a line. -/
structure GoodLine (c : LinesCalculator W) (line : EngineLineMetrics W) : Prop where
  width_eq : line.width =
    c.measureSubstring line.startIndex (c.trimmedEnd line.startIndex line.endIndex)
  narrow : c.Narrow line.startIndex line.endIndex
  endsAt : c.EndsAt line.endIndex

/-- The line that is added. -/
structure NewLine (c : LinesCalculator W) (s : LinesState W) (lineEnd : ℕ)
    (line : EngineLineMetrics W) : Prop where
  startIndex_eq : line.startIndex = s.lineStart
  endIndex_eq : line.endIndex = lineEnd
  width_eq : line.width = c.measureSubstring s.lineStart (c.trimmedEnd s.lineStart lineEnd)

omit [LinearOrder W] in
/-- A break adds one line. -/
lemma exists_lines_addLineBreak (c : LinesCalculator W) (s : LinesState W) (lineEnd : ℕ)
    (isHardBreak : Bool) :
    ∃ line, (c.addLineBreak lineEnd isHardBreak s).lines = s.lines ++ [line] ∧
      c.NewLine s lineEnd line :=
  ⟨_, rfl, rfl, rfl, congrArg (c.measureSubstring s.lineStart)
    (excludeTrailing_excludeTrailing fun _ => whitespacePredicate_of_newlinePredicate)⟩

/-- A narrow line up to a break is good. -/
lemma goodLine_addLineBreak {lineEnd : ℕ} {isHardBreak : Bool}
    (hlines : ∀ line ∈ s.lines, c.GoodLine line) (hnarrow : c.Narrow s.lineStart lineEnd)
    (hend : c.EndsAt lineEnd) :
    ∀ line ∈ (c.addLineBreak lineEnd isHardBreak s).lines, c.GoodLine line := by
  obtain ⟨new, heq, hnew⟩ := c.exists_lines_addLineBreak s lineEnd isHardBreak
  intro line hline
  rw [heq, List.mem_append, List.mem_singleton] at hline
  rcases hline with hline | rfl
  · exact hlines line hline
  · refine ⟨?_, ?_, ?_⟩ <;> rw [hnew.endIndex_eq]
    · rw [hnew.startIndex_eq, hnew.width_eq]
    · rwa [hnew.startIndex_eq]
    · exact hend

section Rounds

variable (hpos : 0 ≤ c.maxWidth) (hmono : c.MonotoneEnd)

include hpos in
lemma narrow_self (start : ℕ) : c.Narrow start start := by
  left
  rwa [measureSubstring_trimmedEnd_self]

include hpos hmono

/-- A line fits if a longer one fits or is a single code unit. -/
theorem narrow_of_le {start stop point : ℕ} (hstart : start ≤ stop)
    (hstop : c.trimmedEnd start stop ≤ point) (hpoint : point ≤ c.text.length)
    (hfits : point = start + 1 ∨ c.measureSubstring start point ≤ c.maxWidth) :
    c.Narrow start stop := by
  have hle : start ≤ c.trimmedEnd start stop := le_excludeTrailing hstart
  rcases hfits with rfl | hfits
  · rcases Nat.lt_or_eq_of_le hle with hlt | heq
    · exact .inr (le_antisymm hstop hlt)
    · refine .inl ?_
      rwa [← heq, measureSubstring, if_pos rfl]
  · exact .inl (le_trans (hmono hle hstop hpoint) hfits)

end Rounds

/-- What holds within the loop for the chunk from `i` to `j`. -/
structure Filling (c : LinesCalculator W) (i j : ℕ) (s : LinesState W) : Prop where
  good : ∀ line ∈ s.lines, c.GoodLine line
  narrow : c.Narrow s.lineStart s.chunkStart
  start : s.chunkStart = i ∨ i < s.chunkStart ∧ s.chunkStart = s.lineStart ∧ c.TooWide i j

/-- What holds of the line that is not finished at the end of a chunk. -/
structure Filled (c : LinesCalculator W) (j : ℕ) (s : LinesState W) : Prop where
  good : ∀ line ∈ s.lines, c.GoodLine line
  narrow : c.Narrow s.lineStart j

variable [Add W] [Sub W] {again : Bool}

/-- A round fills a line. -/
lemma Filling.round (hpos : 0 ≤ c.maxWidth) (hmono : c.MonotoneEnd)
    (hellipsis : c.ellipsis = none) (hchunk : Chunk c.text i j) (hj : j ≤ c.text.length)
    (h : Filling c i j s) (hin : InChunk c (c.trimmedEnd i j) s)
    (hround : Round c j (c.trimmedEnd i j) s again s') :
    if again then Filling c i j s' else Filled c j s' := by
  have hstop : c.trimmedEnd i j ≤ j := excludeTrailing_le
  have hstart : s.lineStart ≤ c.trimmedEnd i j := le_trans hin.lineStart_le hin.chunkStart_le
  -- what is left of the chunk is trimmed as the chunk
  have htrimmed : c.trimmedEnd s.lineStart j ≤ c.trimmedEnd i j :=
    excludeTrailing_le_excludeTrailing hstart
  have hfilled (hfits : c.trimmedEnd i j = s.lineStart + 1 ∨
      c.measureSubstring s.lineStart (c.trimmedEnd i j) ≤ c.maxWidth) : c.Narrow s.lineStart j :=
    narrow_of_le hpos hmono (le_trans hstart hstop) htrimmed (le_trans hstop hj) hfits
  cases hround with
  | fits fits => exact ⟨h.good, hfilled (.inr fits)⟩
  | truncated ellipsis_eq =>
    rw [hellipsis] at ellipsis_eq
    cases ellipsis_eq
  | stuck _ _ _ eq => exact ⟨h.good, hfilled (.inl eq)⟩
  | @forced point _ wide start_eq _ le lt fits =>
    have hpoint : point ≤ c.text.length := by omega
    have hgt : s.lineStart < point := by
      rcases fits hellipsis with h | h <;> omega
    -- the chunk has not been broken yet, or it has been found to be too wide
    have hwide : c.TooWide i j := by
      rcases h.start with hi | ⟨-, -, hwide⟩
      · rw [TooWide, ← hi, start_eq]
        rw [start_eq] at hi
        rwa [← hi] at wide
      · exact hwide
    have hle : i ≤ s.lineStart := by
      rcases h.start with hi | ⟨hi, heq, -⟩ <;> omega
    have hlt : i < point := lt_of_le_of_lt hle hgt
    refine ⟨?_, narrow_self hpos point, .inr ⟨hlt, rfl, hwide⟩⟩
    refine goodLine_addLineBreak h.good ?_ (.inr ⟨i, j, hchunk, hlt, by omega, hwide⟩)
    exact narrow_of_le hpos hmono le excludeTrailing_le hpoint
      ((fits hellipsis).imp_right And.right)
  | moved _ _ start_ne =>
    have hi : s.chunkStart = i := h.start.resolve_right fun h => start_ne h.2.1
    refine ⟨goodLine_addLineBreak h.good h.narrow ?_, narrow_self hpos _, .inl hi⟩
    left
    rcases hchunk.start with hzero | ⟨b, hb, -, hbi⟩
    · have hle := hin.lineStart_le
      exact absurd (show s.chunkStart = s.lineStart by omega) start_ne
    · exact ⟨b, hb, hbi.trans hi.symm⟩

/-- Without a maximum, it is never reached. -/
theorem Round.reachedMaxLines_eq {chunkEnd stop : ℕ} (hellipsis : c.ellipsis = none)
    (hmax : c.maxLines = none) (hround : Round c chunkEnd stop s again s')
    (hreached : s.reachedMaxLines = false) : s'.reachedMaxLines = false := by
  have hlast : c.isLastLine s = false := by
    rw [isLastLine, hellipsis, hmax]
    rfl
  have hadd : ∀ lineEnd, (c.addLineBreak lineEnd false (c.flagged s)).reachedMaxLines = false := by
    intro lineEnd
    rw [addLineBreak, flagged, hlast, hmax]
    rfl
  cases hround with
  | fits => exact hreached
  | truncated ellipsis_eq =>
    rw [hellipsis] at ellipsis_eq
    cases ellipsis_eq
  | stuck => exact hlast
  | forced | moved => exact hadd _

/-- The text is laid out, and all lines are good. -/
theorem ensures_goodLine (hpos : 0 ≤ c.maxWidth) (hmono : c.MonotoneEnd)
    (hellipsis : c.ellipsis = none) (hmax : c.maxLines = none) :
    Ensures c.Fails (fun lines => ∀ line ∈ lines, c.GoodLine line) c.lines := by
  have hrun : Ensures c.Fails (fun s => ∀ line ∈ s.lines, c.GoodLine line)
      ((lineBreaks c.text).foldlM c.update init) := by
    refine ensures_foldlM_lineBreaks
      (fun i s => AtBreak c i s ∧ Filled c i s ∧ s.reachedMaxLines = false) ?_
      ⟨AtBreak.init, ⟨nofun, narrow_self hpos 0⟩, rfl⟩
    rintro i s b hb hchunk ⟨hat, hfilled, hreached⟩
    have hfilling : Filling c i b.index s := by
      refine ⟨hfilled.good, ?_, .inl (hat.chunkStart_eq hreached)⟩
      rw [hat.chunkStart_eq hreached]
      exact hfilled.narrow
    refine (ensures_update (fun s => Filling c i b.index s ∧ s.reachedMaxLines = false)
      (fun s => Filled c b.index s ∧ s.reachedMaxLines = false)
      (fun s => Filled c b.index s ∧ s.reachedMaxLines = false) hat hchunk.le rfl
      ⟨hfilling, hreached⟩ ?_ ?_ ?_).mono ?_
    · intro s again s' hin _ hinv _ hround
      have hnext := hinv.1.round hpos hmono hellipsis hchunk hchunk.le_length hin hround
      have hnot := hround.reachedMaxLines_eq hellipsis hmax hinv.2
      cases again with
      | false | true => exact ⟨hnext, hnot⟩
    · rintro s htrue (hinv | hmid)
      · rw [hinv.2] at htrue
        cases htrue
      · exact hmid
    · intro s _ _ hmid
      rw [consumed]
      split
      · refine ⟨⟨goodLine_addLineBreak hmid.1.good hmid.1.narrow (.inl ⟨b, ?_, rfl⟩),
          narrow_self hpos _⟩, ?_⟩
        · rw [hb]
          exact nextLineBreak_mem hchunk.start.le_length
        · change (s.reachedMaxLines || _) = false
          rw [hmid.2, hmax]
          rfl
      · exact ⟨⟨hmid.1.good, hmid.1.narrow⟩, hmid.2⟩
    · rintro s' ⟨hat', hfilled', hreached'⟩
      split
      · exact hfilled'.good
      · exact ⟨hat', hfilled', hreached'⟩
  exact hrun.bind fun s hs => hs

/-- A layout that terminates has lines. -/
lemma Terminates.exists_lines {post : List (EngineLineMetrics W) → Prop} (hpos : 0 ≤ c.maxWidth)
    (hterminates : c.Terminates) (h : Ensures c.Fails post c.lines) :
    ∃ lines, c.lines = .ok lines ∧ post lines := by
  cases hlines : c.lines with
  | ok lines =>
    rw [hlines] at h
    exact ⟨lines, rfl, h⟩
  | error f =>
    rw [hlines] at h
    cases h with
    | assertion neg => exact absurd neg (not_lt.mpr hpos)
    | divergence ellipsis maxLines =>
      rcases hterminates with h | h
      · exact absurd h ellipsis
      · exact absurd maxLines h

/-- Each line fits or is a single code unit with trailing whitespace, and a line that ends within a
chunk breaks a chunk that does not fit. -/
theorem lines_narrow (c : LinesCalculator W) (hpos : 0 ≤ c.maxWidth) (hmono : c.MonotoneEnd)
    (hellipsis : c.ellipsis = none) (hmax : c.maxLines = none) :
    ∃ lines, c.lines = .ok lines ∧ ∀ line ∈ lines,
      (line.width ≤ c.maxWidth ∨
        excludeTrailing c.text line.startIndex line.endIndex whitespacePredicate =
          line.startIndex + 1) ∧
      ∀ i j, Chunk c.text i j → i < line.endIndex → line.endIndex < j →
        c.maxWidth < c.measureSubstring i (excludeTrailing c.text i j whitespacePredicate) := by
  obtain ⟨lines, hlines, hgood⟩ := Terminates.exists_lines hpos (.inl hellipsis)
    (ensures_goodLine hpos hmono hellipsis hmax)
  refine ⟨lines, hlines, fun line hline => ⟨?_, fun i j hchunk hi hj => ?_⟩⟩
  · rw [(hgood line hline).width_eq]
    exact (hgood line hline).narrow
  · rcases (hgood line hline).endsAt with ⟨b, hb, hindex⟩ | ⟨i', j', hchunk', hi', hj', hwide⟩
    · exact (hchunk.not_between hb hindex hi hj).elim
    · obtain rfl := hchunk.start_eq hchunk' hi hj hi' hj'
      rw [← hchunk.index_eq, hchunk'.index_eq]
      exact hwide

/-- A font whose code units all have the width one. -/
def monospaced (text : List UInt16) (maxWidth : ℤ) (maxLines : Option ℕ)
    (ellipsis : Option (List UInt16)) : LinesCalculator ℤ :=
  { text, maxWidth, maxLines, ellipsis
    width := fun start stop => stop - start
    ellipsisWidth := (ellipsis.getD []).length }

lemma measureSubstring_monospaced (text : List UInt16) (maxWidth : ℤ) (maxLines : Option ℕ)
    (ellipsis : Option (List UInt16)) (start stop : ℕ) :
    (monospaced text maxWidth maxLines ellipsis).measureSubstring start stop = stop - start := by
  rw [measureSubstring]
  split
  · next heq => rw [heq, Int.sub_self]
  · rfl

/-- With a fixed width per unit, later ends are not narrower. -/
lemma monotoneEnd_monospaced (text : List UInt16) (maxWidth : ℤ) (maxLines : Option ℕ)
    (ellipsis : Option (List UInt16)) :
    (monospaced text maxWidth maxLines ellipsis).MonotoneEnd := by
  intro start stop stop' hle hle' _
  rw [measureSubstring_monospaced, measureSubstring_monospaced]
  omega

/-- The text `ab cd`. -/
def words : List UInt16 := [0x61, 0x62, 0x20, 0x63, 0x64]

/-- Neither of the words fits into a line of width one. -/
theorem lines_narrow_words :
    ∃ lines, (monospaced words 1 none none).lines = .ok lines ∧ ∀ line ∈ lines,
      (line.width ≤ 1 ∨
        excludeTrailing words line.startIndex line.endIndex whitespacePredicate =
          line.startIndex + 1) ∧
      ∀ i j, Chunk words i j → i < line.endIndex → line.endIndex < j →
        1 < (monospaced words 1 none none).measureSubstring i
          (excludeTrailing words i j whitespacePredicate) :=
  lines_narrow (monospaced words 1 none none) (by decide) (monotoneEnd_monospaced _ _ _ _) rfl rfl

/-- In a negative width, the empty line is too wide. -/
theorem lines_of_neg :
    (monospaced [0x20, 0x0B, 0x62] (-1) none none).MonotoneEnd ∧
    ∃ lines, (monospaced [0x20, 0x0B, 0x62] (-1) none none).lines = .ok lines ∧
      ∃ line ∈ lines, -1 < line.width ∧
        excludeTrailing [0x20, 0x0B, 0x62] line.startIndex line.endIndex whitespacePredicate =
          line.startIndex :=
  ⟨monotoneEnd_monospaced _ _ _ _, _, rfl, _, List.mem_cons_self, by decide, by decide⟩

end WebUi.LinesCalculator
