import FlutterEngine.WebUi.Text.LinesCalculator

/-!
# The loop of the lines calculator

* `Round` lists what a round of the loop in `update` can do.
* `ensures_breakLines` is the rule for this loop, and `ensures_update` for a whole update. An update
  fails only if the maximum width is negative, and its loop ends unless there is an ellipsis and the
  maximum number of lines is zero (`Fails`).
-/

namespace WebUi.LinesCalculator

open Lib Nat List

variable {W : Type} [LinearOrder W] [Zero W] [Add W] [Sub W] {c : LinesCalculator W}
  {chunkEnd chunkEndWithoutSpace rounds : ℕ} {s s' : LinesState W} {again : Bool}

/-! ## Rounds -/

/-- The flag is set before the line is added. -/
def flagged (c : LinesCalculator W) (s : LinesState W) : LinesState W :=
  { s with reachedMaxLines := c.isLastLine s }

omit [LinearOrder W] [Add W] [Sub W] in
@[simp] lemma length_addLineBreak (lineEnd : ℕ) (isHardBreak : Bool) :
    (c.addLineBreak lineEnd isHardBreak s).lines.length = s.lines.length + 1 :=
  length_append

omit [LinearOrder W] [Sub W] in
@[simp] lemma length_addEllipsis (ellipsis : List UInt16) (breakingPoint : ℕ) :
    (c.addEllipsis ellipsis breakingPoint chunkEnd s).lines.length = s.lines.length + 1 :=
  length_append

omit [Zero W] [LinearOrder W] [Add W] [Sub W] in
@[simp] lemma lines_flagged : (c.flagged s).lines = s.lines := rfl

omit [LinearOrder W] [Add W] [Sub W] in
/-- When a break reaches the limit. -/
lemma reachedMaxLines_addLineBreak (lineEnd : ℕ) (isHardBreak : Bool) :
    (c.addLineBreak lineEnd isHardBreak s).reachedMaxLines = true ↔
      s.reachedMaxLines = true ∨ some (s.lines.length + 1) = c.maxLines := by
  rw [addLineBreak, length_append, length_singleton, Bool.or_eq_true, decide_eq_true_eq]

/-- What a round of the loop in `update` can do, if the text up to `chunkEndWithoutSpace` fits into
the line or not. -/
inductive Round (c : LinesCalculator W) (chunkEnd chunkEndWithoutSpace : ℕ) (s : LinesState W) :
    Bool → LinesState W → Prop
  /-- There is still space. -/
  | fits (fits : c.measureSubstring s.lineStart chunkEndWithoutSpace ≤ c.maxWidth) :
      Round c chunkEnd chunkEndWithoutSpace s false s
  /-- The line is truncated for an ellipsis. -/
  | truncated {ellipsis : List UInt16} {point : ℕ} (ellipsis_eq : c.ellipsis = some ellipsis)
      (wide : c.maxWidth < c.measureSubstring s.lineStart chunkEndWithoutSpace)
      (last : c.isLastLine s) (force : c.forceBreakSubstring (c.maxWidth - c.ellipsisWidth)
        s.lineStart chunkEndWithoutSpace = .ok point)
      (le : s.lineStart ≤ point) (lt : point < chunkEndWithoutSpace) :
      Round c chunkEnd chunkEndWithoutSpace s true
        (c.addEllipsis ellipsis point chunkEnd (c.flagged s))
  /-- A single code unit cannot be broken. -/
  | stuck (ellipsis_eq : c.ellipsis = none)
      (wide : c.maxWidth < c.measureSubstring s.lineStart chunkEndWithoutSpace)
      (start_eq : s.chunkStart = s.lineStart) (eq : chunkEndWithoutSpace = s.lineStart + 1) :
      Round c chunkEnd chunkEndWithoutSpace s false (c.flagged s)
  /-- A chunk that is too long is broken. -/
  | forced {point : ℕ} (not_truncated : c.ellipsis = none ∨ c.isLastLine s = false)
      (wide : c.maxWidth < c.measureSubstring s.lineStart chunkEndWithoutSpace)
      (start_eq : s.chunkStart = s.lineStart)
      (force : c.forceBreakSubstring c.maxWidth s.lineStart chunkEndWithoutSpace = .ok point)
      (le : s.lineStart ≤ point) (lt : point < chunkEndWithoutSpace)
      (fits : c.ellipsis = none → point = s.lineStart + 1 ∨
        s.lineStart + 1 < point ∧ c.measureSubstring s.lineStart point ≤ c.maxWidth) :
      Round c chunkEnd chunkEndWithoutSpace s true
        { c.addLineBreak point false (c.flagged s) with chunkStart := point }
  /-- The chunk moves to the next line. -/
  | moved (not_truncated : c.ellipsis = none ∨ c.isLastLine s = false)
      (wide : c.maxWidth < c.measureSubstring s.lineStart chunkEndWithoutSpace)
      (start_ne : s.chunkStart ≠ s.lineStart) :
      Round c chunkEnd chunkEndWithoutSpace s true (c.addLineBreak s.chunkStart false (c.flagged s))

/-- Why a text cannot be laid out. -/
inductive Fails (c : LinesCalculator W) : LayoutFailure → Prop
  | assertion (neg : c.maxWidth < 0) : Fails c .assertion
  | divergence (ellipsis : c.ellipsis ≠ none) (maxLines : c.maxLines = some 0) : Fails c .divergence

omit [Add W] [Sub W] in
/-- How a line that is too wide fails. -/
lemma fails_of_wide {f : LayoutFailure} (hle : s.lineStart ≤ chunkEndWithoutSpace)
    (hwide : c.maxWidth < c.measureSubstring s.lineStart chunkEndWithoutSpace)
    (hf : f = .assertion ∧ chunkEndWithoutSpace ≤ s.lineStart) : c.Fails f := by
  obtain ⟨rfl, hge⟩ := hf
  rw [measureSubstring, if_pos (le_antisymm hle hge)] at hwide
  exact .assertion hwide

/-- The part of `breakLine` without an ellipsis. -/
theorem ensures_forced (hle : s.lineStart ≤ chunkEndWithoutSpace)
    (hwide : c.maxWidth < c.measureSubstring s.lineStart chunkEndWithoutSpace)
    (hnot : c.ellipsis = none ∨ c.isLastLine s = false) (hstart : s.chunkStart = s.lineStart) :
    Ensures c.Fails (fun r => Round c chunkEnd chunkEndWithoutSpace s r.1 r.2)
      (do
        let breakingPoint ← c.forceBreakSubstring c.maxWidth s.lineStart chunkEndWithoutSpace
        if breakingPoint = chunkEndWithoutSpace then
          return (false, c.flagged s)
        else
          return (true,
            { c.addLineBreak breakingPoint false (c.flagged s) with
              chunkStart := breakingPoint })) := by
  have hforce := ensures_forceBreakSubstring c c.maxWidth s.lineStart chunkEndWithoutSpace
  cases hresult : c.forceBreakSubstring c.maxWidth s.lineStart chunkEndWithoutSpace with
  | error f =>
    rw [hresult] at hforce
    exact fails_of_wide hle hwide hforce
  | ok point =>
    rw [hresult] at hforce
    obtain ⟨hlt, hge, hle', hsome, hnone⟩ := hforce
    rw [ok_bind]
    split
    · next heq =>
      cases hellipsis : c.ellipsis with
      | some ellipsis => exact absurd heq (Nat.ne_of_lt (hsome (by rw [hellipsis]; nofun)))
      | none =>
        have heq' : chunkEndWithoutSpace = s.lineStart + 1 := by
          rcases hnone hellipsis with h | h
          · exact heq.symm.trans h
          · exact absurd heq (Nat.ne_of_lt h.2.1)
        exact .stuck hellipsis hwide hstart heq'
    · next hne =>
      refine .forced hnot hwide hstart hresult hge (lt_of_le_of_ne hle' hne) fun hellipsis => ?_
      exact (hnone hellipsis).imp_right fun h => ⟨h.1, h.2.2⟩

/-- A round does one of the things it can do. -/
theorem ensures_breakLine (hle : s.lineStart ≤ chunkEndWithoutSpace) :
    Ensures c.Fails (fun r => Round c chunkEnd chunkEndWithoutSpace s r.1 r.2)
      (c.breakLine chunkEnd chunkEndWithoutSpace s) := by
  rw [breakLine]
  split
  · next hfits => exact .fits hfits
  · next hnot =>
    have hwide := not_le.mp hnot
    dsimp only
    split
    · next ellipsis hlast hellipsis =>
      have hforce := ensures_forceBreakSubstring c (c.maxWidth - c.ellipsisWidth) s.lineStart
        chunkEndWithoutSpace
      cases hresult : c.forceBreakSubstring (c.maxWidth - c.ellipsisWidth) s.lineStart
        chunkEndWithoutSpace with
      | error f =>
        rw [hresult] at hforce
        exact fails_of_wide hle hwide hforce
      | ok point =>
        rw [hresult] at hforce
        obtain ⟨-, hge, -, hlt, -⟩ := hforce
        exact .truncated hellipsis hwide hlast hresult hge (hlt (by rw [hellipsis]; nofun))
    · next hcases =>
      have htruncated : c.ellipsis = none ∨ c.isLastLine s = false := by
        cases hlast : c.isLastLine s with
        | false => exact .inr rfl
        | true =>
          cases hellipsis : c.ellipsis with
          | none => exact .inl rfl
          | some ellipsis => exact absurd hellipsis (hcases ellipsis hlast)
      split
      · next hstart => exact ensures_forced hle hwide htruncated hstart
      · next hstart => exact .moved htruncated hwide hstart

/-- What holds within the loop in `update`. -/
structure InChunk (c : LinesCalculator W) (chunkEndWithoutSpace : ℕ) (s : LinesState W) :
    Prop where
  lineStart_le : s.lineStart ≤ s.chunkStart
  chunkStart_le : s.chunkStart ≤ chunkEndWithoutSpace
  length_lt : s.reachedMaxLines = false → ∀ {m}, c.maxLines = some m → 0 < m → s.lines.length < m
  length_le : ∀ {m}, c.maxLines = some m → 0 < m → s.lines.length ≤ m

omit [LinearOrder W] [Add W] [Sub W] in
/-- A line is added before the maximum is reached. -/
theorem InChunk.of_addLineBreak {lineEnd stop : ℕ} {isHardBreak : Bool} {s₀ : LinesState W}
    (h : InChunk c chunkEndWithoutSpace s) (hreached : s.reachedMaxLines = false)
    (hlines : s₀.lines = s.lines) (hle : lineEnd ≤ stop) :
    InChunk c stop { c.addLineBreak lineEnd isHardBreak s₀ with chunkStart := lineEnd } := by
  refine ⟨le_refl lineEnd, hle, fun hnot m hm hpos => ?_, fun {m} hm hpos => ?_⟩
  · have hlt := h.length_lt hreached hm hpos
    have hne : ¬some (s₀.lines.length + 1) = c.maxLines := by
      intro heq
      have htrue := (reachedMaxLines_addLineBreak lineEnd isHardBreak).mpr (.inr heq)
      rw [show (c.addLineBreak lineEnd isHardBreak s₀).reachedMaxLines = false from hnot] at htrue
      cases htrue
    rw [hm, Option.some.injEq] at hne
    rw [length_addLineBreak, hlines] at *
    omega
  · have hlt := h.length_lt hreached hm hpos
    rw [length_addLineBreak, hlines]
    omega

/-- A round stays within its chunk. -/
lemma Round.inChunk (hround : Round c chunkEnd chunkEndWithoutSpace s again s')
    (h : InChunk c chunkEndWithoutSpace s) (hreached : s.reachedMaxLines = false) :
    InChunk c chunkEndWithoutSpace s' := by
  cases hround with
  | fits => exact h
  | truncated _ _ last =>
    refine ⟨h.lineStart_le, h.chunkStart_le, fun hnot => ?_, fun {m} hm hpos => ?_⟩
    · rw [show c.isLastLine s = false from hnot] at last
      cases last
    · have hlt := h.length_lt hreached hm hpos
      rw [length_addEllipsis, lines_flagged]
      omega
  | stuck => exact ⟨h.lineStart_le, h.chunkStart_le, fun _ => h.length_lt hreached, h.length_le⟩
  | forced _ _ _ _ _ lt => exact h.of_addLineBreak hreached rfl (le_of_lt lt)
  | moved => exact h.of_addLineBreak hreached rfl h.chunkStart_le

/-- How many rounds may be left. -/
def roundsLeft (c : LinesCalculator W) (chunkEndWithoutSpace : ℕ) (s : LinesState W) : ℕ :=
  chunkEndWithoutSpace - s.lineStart + (c.maxLines.getD 0 - s.lines.length)

/-- The loop ends, unless there is an ellipsis but no last line. -/
def Terminates (c : LinesCalculator W) : Prop := c.ellipsis = none ∨ c.maxLines ≠ some 0

section

variable (hround : Round c chunkEnd chunkEndWithoutSpace s true s')
  (h : InChunk c chunkEndWithoutSpace s)
include hround h

/-- A round starts in front of the end of its chunk. -/
lemma Round.lineStart_lt : s.lineStart < chunkEndWithoutSpace := by
  cases hround with
  | truncated _ _ _ _ le lt | forced _ _ _ _ le lt => exact lt_of_le_of_lt le lt
  | moved _ _ start_ne =>
    exact lt_of_lt_of_le (lt_of_le_of_ne h.lineStart_le start_ne.symm) h.chunkStart_le

/-- The last line has been added, or the line or the number of lines that are left is shorter. -/
theorem Round.roundsLeft_lt (hreached : s.reachedMaxLines = false) (hterminates : c.Terminates) :
    s'.reachedMaxLines = true ∨
      c.roundsLeft chunkEndWithoutSpace s' < c.roundsLeft chunkEndWithoutSpace s := by
  have hstart := hround.lineStart_lt h
  cases hround with
  | truncated _ _ last => exact .inl last
  | @forced point not_truncated _ _ _ le lt fits =>
    right
    rw [roundsLeft, roundsLeft, length_addLineBreak, lines_flagged]
    change chunkEndWithoutSpace - point + _ < _
    cases hellipsis : c.ellipsis with
    | none =>
      have hpoint := fits hellipsis
      omega
    | some ellipsis =>
      -- not all lines have been used up
      cases hm : c.maxLines with
      | none =>
        rw [isLastLine, hellipsis, hm] at not_truncated
        rcases not_truncated with h | h <;> cases h
      | some m =>
        rcases Nat.eq_zero_or_pos m with rfl | hpos
        · rw [Terminates, hellipsis, hm] at hterminates
          simp at hterminates
        · have hlt := h.length_lt hreached hm hpos
          rw [Option.getD_some]
          omega
  | moved _ _ start_ne =>
    right
    rw [roundsLeft, roundsLeft, length_addLineBreak, lines_flagged]
    change chunkEndWithoutSpace - s.chunkStart + _ < _
    have hle := h.lineStart_le
    omega

end

/-- The loop in `update` keeps what each of its rounds keeps. -/
theorem ensures_breakLines {inv mid : LinesState W → Prop}
    (hround : ∀ {s again s'}, InChunk c chunkEndWithoutSpace s → s.reachedMaxLines = false →
      inv s → c.breakLine chunkEnd chunkEndWithoutSpace s = .ok (again, s') →
      Round c chunkEnd chunkEndWithoutSpace s again s' → if again then inv s' else mid s')
    (h : InChunk c chunkEndWithoutSpace s) (hinv : inv s)
    (hrounds : c.Terminates → 0 < rounds ∧ (s.reachedMaxLines = false →
      c.roundsLeft chunkEndWithoutSpace s < rounds)) :
    Ensures c.Fails (fun s' => InChunk c chunkEndWithoutSpace s' ∧
        (s'.reachedMaxLines = true ∧ inv s' ∨ mid s'))
      (c.breakLines chunkEnd chunkEndWithoutSpace rounds s) := by
  induction rounds generalizing s with
  | zero =>
    by_cases hterminates : c.Terminates
    · exact absurd (hrounds hterminates).1 (lt_irrefl 0)
    · rw [Terminates, not_or, not_not] at hterminates
      exact .divergence hterminates.1 hterminates.2
  | succ rounds ih =>
    rw [breakLines]
    cases hreached : s.reachedMaxLines with
    | true => exact ⟨h, .inl ⟨hreached, hinv⟩⟩
    | false =>
      refine (ensures_breakLine (le_trans h.lineStart_le h.chunkStart_le)).with_eq.bind ?_
      rintro ⟨again, s'⟩ ⟨hr, hbreak⟩
      have hchunk := Round.inChunk hr h hreached
      have hnext := hround h hreached hinv hbreak hr
      cases again with
      | false => exact ⟨hchunk, .inr hnext⟩
      | true =>
        refine ih hchunk hnext fun hterminates => ?_
        have hleft := (hrounds hterminates).2 hreached
        have hstart := Round.lineStart_lt hr h
        have hpos : 0 < c.roundsLeft chunkEndWithoutSpace s := by
          rw [roundsLeft]
          omega
        refine ⟨by omega, fun hnot => ?_⟩
        rcases Round.roundsLeft_lt hr h hreached hterminates with htrue | hlt
        · rw [htrue] at hnot
          cases hnot
        · exact lt_of_lt_of_le hlt (le_of_lt_succ hleft)

/-! ## Lines are only added -/

/-- A round keeps the lines. -/
lemma initial_breakLine (h : c.breakLine chunkEnd chunkEndWithoutSpace s = .ok (again, s')) :
    s.lines <+: s'.lines := by
  rw [breakLine] at h
  split at h
  · cases h
    exact prefix_refl _
  · dsimp only at h
    split at h
    · obtain ⟨point, -, h⟩ := bind_eq_ok_iff.mp h
      cases h
      exact prefix_append _ _
    · split at h
      · obtain ⟨point, -, h⟩ := bind_eq_ok_iff.mp h
        split at h
        · cases h
          exact prefix_refl _
        · cases h
          exact prefix_append _ _
      · cases h
        exact prefix_append _ _

/-- All rounds keep the lines. -/
lemma initial_breakLines
    (h : c.breakLines chunkEnd chunkEndWithoutSpace rounds s = .ok s') : s.lines <+: s'.lines := by
  induction rounds generalizing s with
  | zero => cases h
  | succ rounds ih =>
    rw [breakLines] at h
    split at h
    · cases h
      exact prefix_refl _
    · obtain ⟨⟨again, s₁⟩, hbreak, h⟩ := bind_eq_ok_iff.mp h
      refine (initial_breakLine hbreak).trans ?_
      cases again with
      | false =>
        cases h
        exact prefix_refl _
      | true => exact ih h

/-! ## Updates -/

/-- What holds when all breaks up to `i` have been consumed. -/
structure AtBreak (c : LinesCalculator W) (i : ℕ) (s : LinesState W) : Prop
    extends InChunk c i s where
  chunkStart_eq : s.reachedMaxLines = false → s.chunkStart = i

omit [LinearOrder W] [Zero W] [Add W] [Sub W] in
lemma AtBreak.init : AtBreak c 0 init :=
  ⟨⟨le_refl 0, le_refl 0, fun _ _ _ hpos => hpos, fun _ _ => zero_le _⟩, fun _ => rfl⟩

/-- The state after a break that is not lost in the loop. -/
def consumed (c : LinesCalculator W) (b : LineBreakResult) (s : LinesState W) : LinesState W :=
  { (if b.type = .mandatory ∨ b.type = .endOfText then c.addLineBreak b.index true s else s) with
    chunkStart := b.index }

/-- An update keeps what the rounds of its loop and the end of the chunk keep. -/
theorem ensures_update {b : LineBreakResult} {i stop : ℕ} (inv mid post : LinesState W → Prop)
    (h : AtBreak c i s) (hle : i ≤ b.index)
    (hstop : stop = excludeTrailing c.text i b.index whitespacePredicate) (hinv : inv s)
    (hround : ∀ {s again s'}, InChunk c stop s → s.reachedMaxLines = false → inv s →
      c.breakLine b.index stop s = .ok (again, s') → Round c b.index stop s again s' →
      if again then inv s' else mid s')
    (hdone : ∀ {s}, s.reachedMaxLines = true → inv s ∨ mid s → post s)
    (hend : ∀ {s}, InChunk c stop s → s.reachedMaxLines = false → mid s → post (c.consumed b s)) :
    Ensures c.Fails (fun s' => AtBreak c b.index s' ∧ post s') (c.update s b) := by
  rw [update]
  cases hreached : s.reachedMaxLines with
  | true =>
    rw [breakLines, if_pos hreached, ok_bind, if_pos hreached]
    refine ⟨⟨⟨h.lineStart_le, le_trans h.chunkStart_le hle, h.length_lt, h.length_le⟩, ?_⟩,
      hdone hreached (.inl hinv)⟩
    rw [hreached]
    exact Bool.noConfusion
  | false =>
    rw [h.chunkStart_eq hreached, ← hstop]
    have hstop' : stop ≤ b.index := hstop ▸ excludeTrailing_le
    have hchunk : InChunk c stop s := by
      refine ⟨h.lineStart_le, ?_, h.length_lt, h.length_le⟩
      rw [h.chunkStart_eq hreached, hstop]
      exact le_excludeTrailing hle
    refine (ensures_breakLines hround hchunk hinv fun _ => ⟨?_, fun _ => ?_⟩).bind ?_
    · omega
    · rw [roundsLeft]
      omega
    · rintro s' ⟨hchunk', hcases⟩
      cases hreached' : s'.reachedMaxLines with
      | true =>
        refine ⟨⟨⟨hchunk'.lineStart_le, le_trans hchunk'.chunkStart_le hstop',
          hchunk'.length_lt, hchunk'.length_le⟩, ?_⟩, hdone hreached' (hcases.imp_left And.right)⟩
        rw [hreached']
        exact Bool.noConfusion
      | false =>
        have hmid : mid s' := hcases.resolve_left fun hdone' => by
          rw [hreached'] at hdone'
          cases hdone'.1
        refine ⟨?_, hend hchunk' hreached' hmid⟩
        by_cases hhard : b.type = .mandatory ∨ b.type = .endOfText
        · rw [if_pos hhard]
          exact ⟨hchunk'.of_addLineBreak hreached' rfl (le_refl _), fun _ => rfl⟩
        · rw [if_neg hhard]
          exact ⟨⟨le_trans hchunk'.lineStart_le (le_trans hchunk'.chunkStart_le hstop'),
            le_refl _, hchunk'.length_lt, hchunk'.length_le⟩, fun _ => rfl⟩

end WebUi.LinesCalculator
