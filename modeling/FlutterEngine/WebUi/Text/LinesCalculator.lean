import FlutterEngine.WebUi.Text.LineBreaker
import Mathlib.Algebra.Ring.Int.Defs
import Mathlib.Order.Lattice

/-!
# Splitting a text into lines

`LinesCalculator` consumes the breaks of a text one by one and splits the text into lines that fit
into `maxWidth`. A chunk is the text between two breaks. Where a chunk does not fit into a line of
its own, it is broken at a point that bisection finds.

Widths are the values of a function on substrings, in any linear order. The calculator measures with
`measureSubstring`, whose cache is left out. The assertions that substrings lie in the text hold
whenever the calculator is used with the breaks of its text (`InChunk`) and are left out, too; the
one in `forceBreakSubstring` may fail.

* `bisect_eq_or` says what the bisection finds.
-/

namespace WebUi

open Lib CharCode Nat Bool

/-! ## Substrings -/

/-- `_newlinePredicate` -/
def newlinePredicate (char : UInt16) : Bool := char = cr || char = lf || char = nl

/-- `_whitespacePredicate` -/
def whitespacePredicate (char : UInt16) : Bool :=
  char = space || char = tab || newlinePredicate char

/-- `_excludeTrailing` -/
def excludeTrailing (text : List UInt16) (start : ℕ) : ℕ → (UInt16 → Bool) → ℕ
  | 0, _ => 0
  | last + 1, predicate =>
    if start < last + 1 && text[last]?.any predicate then
      excludeTrailing text start last predicate
    else
      last + 1

section ExcludeTrailing

variable {text : List UInt16} {start start' stop i : ℕ} {p q : UInt16 → Bool}

lemma excludeTrailing_le : excludeTrailing text start stop p ≤ stop := by
  induction stop with
  | zero => exact le_refl 0
  | succ last ih =>
    rw [excludeTrailing]
    split
    · exact le_succ_of_le ih
    · exact le_refl _

lemma le_excludeTrailing (h : start ≤ stop) : start ≤ excludeTrailing text start stop p := by
  induction stop with
  | zero => exact h
  | succ last ih =>
    rw [excludeTrailing]
    split
    · next hlt =>
      rw [and_eq_true, decide_eq_true_eq] at hlt
      exact ih (le_of_lt_succ hlt.1)
    · exact h

/-- What is excluded after a later start is also excluded after an earlier one. -/
theorem excludeTrailing_mono_start (h : start ≤ start') :
    excludeTrailing text start stop p ≤ excludeTrailing text start' stop p := by
  induction stop with
  | zero => exact le_refl 0
  | succ last ih =>
    rw [excludeTrailing, excludeTrailing]
    split
    · split
      · exact ih
      · exact le_succ_of_le excludeTrailing_le
    · next hnot =>
      rw [if_neg]
      intro hyes
      rw [and_eq_true, decide_eq_true_eq] at hyes hnot
      exact hnot ⟨lt_of_le_of_lt h hyes.1, hyes.2⟩

/-- A start that is not reached makes no difference. -/
theorem excludeTrailing_le_excludeTrailing (h : start' ≤ excludeTrailing text start stop p) :
    excludeTrailing text start' stop p ≤ excludeTrailing text start stop p := by
  induction stop with
  | zero => exact le_refl 0
  | succ last ih =>
    rw [excludeTrailing] at h ⊢
    conv_rhs => rw [excludeTrailing]
    split at h
    · next hp =>
      rw [if_pos hp]
      rw [and_eq_true] at hp
      have hle : start' < last + 1 := lt_succ_of_le (le_trans h excludeTrailing_le)
      rw [if_pos (by rw [hp.2, decide_eq_true hle]; rfl)]
      exact ih h
    · next hp =>
      rw [if_neg hp]
      split
      · exact le_succ_of_le excludeTrailing_le
      · exact le_refl _

/-- Excluding twice is excluding once, if the second predicate is the weaker one. -/
theorem excludeTrailing_excludeTrailing (h : ∀ u, p u = true → q u = true) :
    excludeTrailing text start (excludeTrailing text start stop p) q =
      excludeTrailing text start stop q := by
  induction stop with
  | zero => rfl
  | succ last ih =>
    conv_lhs => rw [excludeTrailing]
    split
    · next hp =>
      rw [ih, eq_comm, excludeTrailing, if_pos]
      rw [and_eq_true] at hp ⊢
      refine ⟨hp.1, ?_⟩
      cases hu : text[last]? with
      | none =>
        rw [hu] at hp
        exact hp.2
      | some u =>
        rw [hu] at hp
        exact h u hp.2
    · rfl

lemma excludeTrailing_mono (h : ∀ u, p u = true → q u = true) :
    excludeTrailing text start stop q ≤ excludeTrailing text start stop p := by
  rw [← excludeTrailing_excludeTrailing h]
  exact excludeTrailing_le

/-- A code unit that does not satisfy the predicate is not excluded. -/
theorem lt_excludeTrailing {u : UInt16} (hi : i < stop) (hu : text[i]? = some u)
    (hp : p u = false) : i < excludeTrailing text start stop p := by
  induction stop with
  | zero => exact absurd hi (not_lt_zero i)
  | succ last ih =>
    rw [excludeTrailing]
    split
    · next hlt =>
      rcases lt_or_eq_of_le (le_of_lt_succ hi) with hi | rfl
      · exact ih hi
      · rw [hu, Option.any_some, hp, Bool.and_false] at hlt
        cases hlt
    · exact hi

end ExcludeTrailing

lemma whitespacePredicate_of_newlinePredicate {char : UInt16} (h : newlinePredicate char = true) :
    whitespacePredicate char = true := by
  rw [whitespacePredicate, h, Bool.or_true]

/-- `substring` -/
def substring (text : List UInt16) (start stop : ℕ) : List UInt16 := (text.take stop).drop start

/-! ## The calculator -/

/-- What a `LinesCalculator` is created with. -/
structure LinesCalculator (W : Type) where
  text : List UInt16
  maxWidth : W
  maxLines : Option ℕ
  ellipsis : Option (List UInt16)
  /-- The width of a substring that is not empty. -/
  width : ℕ → ℕ → W
  /-- `_ellipsisWidth` -/
  ellipsisWidth : W

/-- `EngineLineMetrics` -/
structure EngineLineMetrics (W : Type) where
  displayText : List UInt16
  startIndex : ℕ
  endIndex : ℕ
  hardBreak : Bool
  width : W
  lineNumber : ℕ
deriving DecidableEq, Repr

/-- The fields of a `LinesCalculator` that change. -/
structure LinesState (W : Type) where
  lines : List (EngineLineMetrics W)
  lineStart : ℕ
  chunkStart : ℕ
  reachedMaxLines : Bool

/-- Why a text cannot be laid out. -/
inductive LayoutFailure where
  | assertion
  | divergence
deriving DecidableEq, Repr

namespace LinesCalculator

variable {W : Type} [LinearOrder W] [Zero W]

/-- A new calculator. -/
def init : LinesState W := ⟨[], 0, 0, false⟩

variable (c : LinesCalculator W)

/-- `measureSubstring` -/
def measureSubstring (start stop : ℕ) : W := if start = stop then 0 else c.width start stop

/-- The loop of `forceBreakSubstring`, with a bound for the number of its rounds. -/
def bisect (maxWidth : W) (start : ℕ) : ℕ → ℕ → ℕ → ℕ
  | 0, low, _ => low
  | rounds + 1, low, high =>
    let mid := (low + high) / 2
    let width := c.measureSubstring start mid
    let (low, high) :=
      if width < maxWidth then (mid, high)
      else if maxWidth < width then (low, mid)
      else (mid, mid)
    if 1 < high - low then bisect maxWidth start rounds low high else low

/-- `forceBreakSubstring` -/
def forceBreakSubstring (maxWidth : W) (start stop : ℕ) : Except LayoutFailure ℕ := do
  assertThat .assertion (start < stop)
  let low := if c.ellipsis.isSome then start else start + 1
  return c.bisect maxWidth start (stop - low + 1) low stop

section Bisection

variable {c} {maxWidth : W} {start stop low high rounds : ℕ}

/-- The result of the bisection is the lower bound, or fits between the bounds. -/
theorem bisect_eq_or (h : low ≤ high) : c.bisect maxWidth start rounds low high = low ∨
    low < c.bisect maxWidth start rounds low high ∧
      c.bisect maxWidth start rounds low high < high ∧
      c.measureSubstring start (c.bisect maxWidth start rounds low high) ≤ maxWidth := by
  induction rounds generalizing low high with
  | zero => exact .inl rfl
  | succ rounds ih =>
    rw [bisect]
    obtain ⟨mid, hmid⟩ : ∃ mid, mid = (low + high) / 2 := ⟨_, rfl⟩
    have hlow : low ≤ mid := by omega
    have hhigh : mid ≤ high := by omega
    have hmid' : mid = low ∨ low < mid ∧ mid < high := by omega
    rw [← hmid]
    dsimp only
    split
    · next hlt =>
      -- the middle becomes the lower bound
      have hself := hmid'.imp_right fun h => (⟨h.1, h.2, le_of_lt hlt⟩ : _ ∧ _ ∧ _)
      split
      · rcases ih hhigh with heq | ⟨hgt, hlt', hfits⟩
        · rw [heq]
          exact hself
        · exact .inr ⟨lt_of_le_of_lt hlow hgt, hlt', hfits⟩
      · exact hself
    · next hge =>
      split
      · -- the middle becomes the upper bound
        split
        · exact (ih hlow).imp_right fun ⟨hgt, hlt', hfits⟩ =>
            ⟨hgt, lt_of_lt_of_le hlt' hhigh, hfits⟩
        · exact .inl rfl
      · next hle =>
        rw [Nat.sub_self, if_neg (by decide)]
        exact hmid'.imp_right fun h => ⟨h.1, h.2, not_lt.mp hle⟩

/-- Without an ellipsis, at least one code unit stays in the line. -/
theorem ensures_forceBreakSubstring (c : LinesCalculator W) (maxWidth : W) (start stop : ℕ) :
    Ensures (fun f => f = .assertion ∧ stop ≤ start)
    (fun point => start < stop ∧ start ≤ point ∧ point ≤ stop ∧
      (c.ellipsis ≠ none → point < stop) ∧
      (c.ellipsis = none → point = start + 1 ∨
        start + 1 < point ∧ point < stop ∧ c.measureSubstring start point ≤ maxWidth))
    (c.forceBreakSubstring maxWidth start stop) := by
  rw [forceBreakSubstring]
  refine Ensures.assertion (fun h => ⟨rfl, not_lt.mp h⟩) fun hlt => ?_
  obtain ⟨low, hlow⟩ : ∃ low, low = if c.ellipsis.isSome then start else start + 1 := ⟨_, rfl⟩
  have hle : low ≤ stop := by
    rw [hlow]
    split <;> omega
  obtain ⟨point, hpoint⟩ : ∃ point, point = c.bisect maxWidth start (stop - low + 1) low stop :=
    ⟨_, rfl⟩
  have hcases : point = low ∨ low < point ∧ point < stop ∧
      c.measureSubstring start point ≤ maxWidth := hpoint ▸ bisect_eq_or hle
  dsimp only
  rw [← hlow, ← hpoint]
  cases hellipsis : c.ellipsis with
  | some ellipsis =>
    obtain rfl : low = start := by rw [hlow, hellipsis]; rfl
    refine ⟨hlt, ?_, ?_, fun _ => ?_, nofun⟩ <;> omega
  | none =>
    obtain rfl : low = start + 1 := by rw [hlow, hellipsis]; rfl
    exact ⟨hlt, by omega, by omega, fun hne => absurd rfl hne, fun _ => hcases⟩

end Bisection

/-- `_addLineBreak` -/
def addLineBreak (lineEnd : ℕ) (isHardBreak : Bool) (s : LinesState W) : LinesState W :=
  let endWithoutNewlines := excludeTrailing c.text s.lineStart lineEnd newlinePredicate
  let endWithoutSpace := excludeTrailing c.text s.lineStart endWithoutNewlines whitespacePredicate
  let metrics :=
    { displayText := substring c.text s.lineStart endWithoutNewlines
      startIndex := s.lineStart
      endIndex := lineEnd
      hardBreak := isHardBreak
      width := c.measureSubstring s.lineStart endWithoutSpace
      lineNumber := s.lines.length }
  let lines := s.lines ++ [metrics]
  { s with
    lines
    lineStart := lineEnd
    reachedMaxLines := s.reachedMaxLines || some lines.length = c.maxLines }

/-- Whether the next line is the last one. -/
def isLastLine (s : LinesState W) : Bool :=
  (c.ellipsis.isSome && c.maxLines.isNone) || some (s.lines.length + 1) = c.maxLines

variable [Add W] [Sub W]

/-- Add a line that is truncated to leave enough space for the ellipsis. -/
def addEllipsis (ellipsis : List UInt16) (breakingPoint chunkEnd : ℕ) (s : LinesState W) :
    LinesState W :=
  let metrics :=
    { displayText := substring c.text s.lineStart breakingPoint ++ ellipsis
      startIndex := s.lineStart
      endIndex := chunkEnd
      hardBreak := false
      width := c.measureSubstring s.lineStart breakingPoint + c.ellipsisWidth
      lineNumber := s.lines.length }
  { s with lines := s.lines ++ [metrics] }

/-- A round of the loop in `update`, which also returns whether the loop goes on. -/
def breakLine (chunkEnd chunkEndWithoutSpace : ℕ) (s : LinesState W) :
    Except LayoutFailure (Bool × LinesState W) :=
  if c.measureSubstring s.lineStart chunkEndWithoutSpace ≤ c.maxWidth then
    return (false, s)
  else
    let isChunkTooLong := s.chunkStart = s.lineStart
    let isLastLine := c.isLastLine s
    let s := { s with reachedMaxLines := isLastLine }
    match isLastLine, c.ellipsis with
    | true, some ellipsis => do
      let breakingPoint ←
        c.forceBreakSubstring (c.maxWidth - c.ellipsisWidth) s.lineStart chunkEndWithoutSpace
      return (true, c.addEllipsis ellipsis breakingPoint chunkEnd s)
    | _, _ =>
      if isChunkTooLong then do
        let breakingPoint ← c.forceBreakSubstring c.maxWidth s.lineStart chunkEndWithoutSpace
        if breakingPoint = chunkEndWithoutSpace then
          return (false, s)
        else
          return (true, { c.addLineBreak breakingPoint false s with chunkStart := breakingPoint })
      else
        return (true, c.addLineBreak s.chunkStart false s)

/-- The loop in `update`, with a bound for the number of its rounds. -/
def breakLines (chunkEnd chunkEndWithoutSpace : ℕ) :
    ℕ → LinesState W → Except LayoutFailure (LinesState W)
  | 0, _ => .error .divergence
  | rounds + 1, s =>
    if s.reachedMaxLines then
      .ok s
    else do
      let (again, s) ← c.breakLine chunkEnd chunkEndWithoutSpace s
      if again then breakLines chunkEnd chunkEndWithoutSpace rounds s else return s

/-- `update` -/
def update (s : LinesState W) (brk : LineBreakResult) : Except LayoutFailure (LinesState W) := do
  let isHardBreak := brk.type = .mandatory ∨ brk.type = .endOfText
  let chunkEnd := brk.index
  let chunkEndWithoutSpace := excludeTrailing c.text s.chunkStart chunkEnd whitespacePredicate
  let rounds := chunkEndWithoutSpace - s.lineStart + c.maxLines.getD 0 + 1
  let s ← c.breakLines chunkEnd chunkEndWithoutSpace rounds s
  if s.reachedMaxLines then
    return s
  else
    let s := if isHardBreak then c.addLineBreak chunkEnd true s else s
    return { s with chunkStart := chunkEnd }

/-- The lines that the loop of `_doMeasure` produces. -/
def lines : Except LayoutFailure (List (EngineLineMetrics W)) := do
  let s ← (lineBreaks c.text).foldlM c.update init
  return s.lines

end LinesCalculator

end WebUi
