import FlutterEngine.Lib.Outcome
import Mathlib.Data.List.Range

/-!
# Line breaks

`nextLineBreak` scans a text for the next line break, and `lineBreaks` are the breaks that the loop
of `CanvasTextMeasurementService._doMeasure` visits. A text is a list of UTF-16 code units.

* `NextBreak` is what a caller knows about the next break.
* `lineBreaks_spec` says which breaks there are, position by position (`MandatoryAt`,
  `OpportunityAt`).
* `ensures_foldlM_lineBreaks` is the rule for a loop over all breaks.
-/

namespace WebUi

open Lib List Option Nat

/-! ## The scanner -/

/-- `LineBreakType` -/
inductive LineBreakType where
  | opportunity
  | mandatory
  | endOfText
deriving DecidableEq, Repr

namespace CharCode

def lf : UInt16 := 0x0A

def bk1 : UInt16 := 0x0B

def bk2 : UInt16 := 0x0C

def cr : UInt16 := 0x0D

def nl : UInt16 := 0x85

def tab : UInt16 := 0x09

def space : UInt16 := 0x20

def hyphen : UInt16 := 0x2D

end CharCode

open CharCode

/-- `LineBreakResult` -/
structure LineBreakResult where
  index : ℕ
  type : LineBreakType
deriving DecidableEq, Repr

variable {text : List UInt16} {i j : ℕ} {b : LineBreakResult}

/-- A round of the loop of `nextLineBreak`, which returns something or continues. -/
def breakAt (text : List UInt16) (index : ℕ) : Option LineBreakResult :=
  let curr := text[index]?
  let prev := text[index - 1]?
  if prev = some bk1 ∨ prev = some bk2 then
    some ⟨index, .mandatory⟩
  else if prev = some cr ∧ curr = some lf then
    none
  else if prev = some cr ∨ prev = some lf ∨ prev = some nl then
    some ⟨index, .mandatory⟩
  else if curr = some bk1 ∨ curr = some bk2 ∨ curr = some cr ∨ curr = some lf ∨ curr = some nl then
    none
  else if text.length ≤ index then
    some ⟨text.length, .endOfText⟩
  else if curr = some space ∨ curr = some tab then
    none
  else if prev = some space ∨ prev = some tab ∨ prev = some hyphen then
    some ⟨index, .opportunity⟩
  else
    none

/-- The loop of `nextLineBreak`, with the number of rounds that are left. -/
def nextLineBreakLoop (text : List UInt16) : ℕ → ℕ → LineBreakResult
  | 0, _ => ⟨text.length, .endOfText⟩
  | rounds + 1, index => (breakAt text (index + 1)).getD (nextLineBreakLoop text rounds (index + 1))

/-- `nextLineBreak` -/
def nextLineBreak (text : List UInt16) (index : ℕ) : LineBreakResult :=
  nextLineBreakLoop text (text.length - index) index

/-- The breaks that the loop of `_doMeasure` visits from `i` on. -/
def lineBreaksFrom (text : List UInt16) : ℕ → ℕ → List LineBreakResult
  | 0, _ => []
  | rounds + 1, i =>
    let brk := nextLineBreak text i
    brk :: if brk.type = .endOfText then [] else lineBreaksFrom text rounds brk.index

/-- The breaks that the loop of `_doMeasure` visits. It makes at most `text.length + 1` rounds. -/
def lineBreaks (text : List UInt16) : List LineBreakResult :=
  lineBreaksFrom text (text.length + 1) 0

/-! ## Positions -/

/-- A hard break is after each `BK`, `LF` and `NL`, and after each `CR` that no `LF` follows. -/
def MandatoryAt (text : List UInt16) (i : ℕ) : Prop :=
  ∃ u, 0 < i ∧ text[i - 1]? = some u ∧
    (u = bk1 ∨ u = bk2 ∨ u = lf ∨ u = nl ∨ u = cr ∧ text[i]? ≠ some lf)

/-- A line may be broken between a space, tab or hyphen and something that is neither a space nor a
tab nor the end of a line. -/
def OpportunityAt (text : List UInt16) (i : ℕ) : Prop :=
  ∃ u v, 0 < i ∧ text[i - 1]? = some u ∧ text[i]? = some v ∧ (u = space ∨ u = tab ∨ u = hyphen) ∧
    v ≠ space ∧ v ≠ tab ∧ v ≠ bk1 ∧ v ≠ bk2 ∧ v ≠ cr ∧ v ≠ lf ∧ v ≠ nl ∧ ¬MandatoryAt text i

/-- Where a break is mandatory, by the units around it. -/
lemma mandatoryAt_iff {u : UInt16} (hi : 0 < i) (hu : text[i - 1]? = some u) :
    MandatoryAt text i ↔ u = bk1 ∨ u = bk2 ∨ u = lf ∨ u = nl ∨ u = cr ∧ text[i]? ≠ some lf := by
  constructor
  · rintro ⟨u', -, hu', hcases⟩
    obtain rfl := some.inj (hu.symm.trans hu')
    exact hcases
  · intro hcases
    exact ⟨u, hi, hu, hcases⟩

lemma exists_prev (hi : 0 < i) (hle : i ≤ text.length) : ∃ u, text[i - 1]? = some u :=
  ⟨text[i - 1], getElem?_eq_getElem (by omega)⟩

/-- What a round of the scanner finds. -/
inductive Scanned (text : List UInt16) (i : ℕ) : Option LineBreakResult → Prop
  | mandatory (mandatory : MandatoryAt text i) : Scanned text i (some ⟨i, .mandatory⟩)
  | endOfText (not_mandatory : ¬MandatoryAt text i) (eq : i = text.length) :
      Scanned text i (some ⟨text.length, .endOfText⟩)
  | opportunity (opportunity : OpportunityAt text i) : Scanned text i (some ⟨i, .opportunity⟩)
  | nothing (not_mandatory : ¬MandatoryAt text i) (not_opportunity : ¬OpportunityAt text i)
      (lt : i < text.length) : Scanned text i none

/-- A position that is scanned. -/
lemma scanned_breakAt (hi : 0 < i) (hle : i ≤ text.length) : Scanned text i (breakAt text i) := by
  obtain ⟨u, hu⟩ := exists_prev hi hle
  have hmandatory := mandatoryAt_iff hi hu
  rw [breakAt, hu]
  simp only [some.injEq]
  split
  · next h => exact .mandatory (hmandatory.mpr (by grind))
  split
  · next h h' =>
    obtain ⟨rfl, hcurr⟩ := h'
    refine .nothing (by rw [hmandatory, hcurr]; decide) ?_ ?_
    · rintro ⟨u', v, -, hu', -, hspace, -⟩
      obtain rfl := some.inj (hu.symm.trans hu')
      revert hspace
      decide
    · exact (List.getElem?_eq_some_iff.mp hcurr).1
  split
  · next h h' h'' => exact .mandatory (hmandatory.mpr (by grind))
  next hbk hcrlf hcr =>
  have hnot : ¬MandatoryAt text i := by
    rw [hmandatory]
    grind
  split
  · next h =>
    refine .nothing hnot ?_ ?_
    · rintro ⟨u', v, -, -, hv, -, -, -, hne⟩
      grind
    · by_contra hlt
      rw [getElem?_eq_none (not_lt.mp hlt)] at h
      simp at h
  split
  · next h => exact .endOfText hnot (le_antisymm hle h)
  next hnewline hlt =>
  obtain ⟨v, hv⟩ : ∃ v, text[i]? = some v := ⟨_, getElem?_eq_getElem (not_le.mp hlt)⟩
  rw [hv] at hnewline ⊢
  simp only [some.injEq, not_or] at hnewline ⊢
  have hopportunity : OpportunityAt text i ↔
      (u = space ∨ u = tab ∨ u = hyphen) ∧ v ≠ space ∧ v ≠ tab := by
    constructor
    · rintro ⟨u', v', -, hu', hv', hspace, hne, hne', -⟩
      obtain rfl := some.inj (hu.symm.trans hu')
      obtain rfl := some.inj (hv.symm.trans hv')
      exact ⟨hspace, hne, hne'⟩
    · rintro ⟨hspace, hne, hne'⟩
      obtain ⟨h₁, h₂, h₃, h₄, h₅⟩ := hnewline
      exact ⟨u, v, hi, hu, hv, hspace, hne, hne', h₁, h₂, h₃, h₄, h₅, hnot⟩
  split
  · next h =>
    refine .nothing hnot (fun hopp => ?_) (not_le.mp hlt)
    obtain ⟨-, hne, hne'⟩ := hopportunity.mp hopp
    exact h.elim hne hne'
  split
  · next h h' => exact .opportunity (hopportunity.mpr ⟨h', not_or.mp h⟩)
  · next h h' => exact .nothing hnot (fun hopp => h' (hopportunity.mp hopp).1) (not_le.mp hlt)

/-! ## The next break -/

/-- What is known about the next break after `i`. -/
structure NextBreak (text : List UInt16) (i : ℕ) (b : LineBreakResult) : Prop where
  index_le : b.index ≤ text.length
  lt_index : b.type ≠ .endOfText → i < b.index
  index_eq : b.type = .endOfText → b.index = text.length
  scanned : i < b.index → breakAt text b.index = some b
  nothing : ∀ {j}, i < j → j < b.index → breakAt text j = none

/-- The loop finds the next break. -/
lemma nextBreak_nextLineBreakLoop {rounds : ℕ} (h : i + rounds = text.length) :
    NextBreak text i (nextLineBreakLoop text rounds i) := by
  induction rounds generalizing i with
  | zero =>
    refine ⟨le_refl _, fun hne => absurd rfl hne, fun _ => rfl, fun hlt => ?_,
      fun hlt hlt' => ?_⟩
    all_goals
      change _ < text.length at *
      omega
  | succ rounds ih =>
    have hscanned := scanned_breakAt (succ_pos i) (show i + 1 ≤ text.length by omega)
    rw [nextLineBreakLoop]
    cases hresult : breakAt text (i + 1) with
    | none =>
      have hnext := ih (show i + 1 + rounds = text.length by omega)
      have hlt : i + 1 < text.length := by
        rw [hresult] at hscanned
        cases hscanned with
        | nothing _ _ lt => exact lt
      rw [getD_none]
      refine ⟨hnext.index_le, fun hne => lt_of_succ_lt (hnext.lt_index hne), hnext.index_eq,
        fun _ => hnext.scanned ?_, fun {j} hj hj' => ?_⟩
      · by_cases htype : (nextLineBreakLoop text rounds (i + 1)).type = .endOfText
        · rwa [hnext.index_eq htype]
        · exact hnext.lt_index htype
      · rcases lt_or_eq_of_le (show i + 1 ≤ j from hj) with hj | rfl
        · exact hnext.nothing hj hj'
        · exact hresult
    | some b =>
      have hindex : b.index = i + 1 ∧ (b.type = .endOfText → b.index = text.length) := by
        rw [hresult] at hscanned
        cases hscanned with
        | mandatory | opportunity => exact ⟨rfl, nofun⟩
        | endOfText _ eq => exact ⟨eq.symm, fun _ => rfl⟩
      rw [getD_some]
      refine ⟨by omega, fun _ => by omega, hindex.2, fun _ => ?_, fun hj hj' => by omega⟩
      rw [hindex.1, hresult]

/-- `nextLineBreak` finds the next break. -/
lemma nextBreak_nextLineBreak (hi : i ≤ text.length) : NextBreak text i (nextLineBreak text i) :=
  nextBreak_nextLineBreakLoop (add_sub_of_le hi)

/-! ## All breaks -/

/-- All breaks but the last are those that the scanner finds in front of the end of the text. -/
theorem exists_lineBreaksFrom_eq {rounds : ℕ} (hi : i ≤ text.length)
    (hrounds : text.length - i < rounds) :
    ∃ init, lineBreaksFrom text rounds i = init ++ [⟨text.length, .endOfText⟩] ∧
      init.Pairwise (fun b b' => b.index < b'.index) ∧
      ∀ b, b ∈ init ↔ b.type ≠ .endOfText ∧ i < b.index ∧ b.index ≤ text.length ∧
        breakAt text b.index = some b := by
  induction rounds generalizing i with
  | zero => omega
  | succ rounds ih =>
    obtain ⟨b, hb⟩ : ∃ b, b = nextLineBreak text i := ⟨_, rfl⟩
    have hnext : NextBreak text i b := hb ▸ nextBreak_nextLineBreak hi
    rw [lineBreaksFrom, ← hb]
    by_cases htype : b.type = .endOfText
    · have heq : b = ⟨text.length, .endOfText⟩ := by rw [← hnext.index_eq htype, ← htype]
      refine ⟨[], by rw [if_pos htype, heq]; rfl, .nil, fun c => ?_⟩
      simp only [not_mem_nil, false_iff]
      rintro ⟨hc, hlt, hle, hscanned⟩
      rcases lt_or_eq_of_le hle with hlt' | hlast
      · rw [hnext.nothing hlt (by rwa [hnext.index_eq htype])] at hscanned
        cases hscanned
      · rw [hlast, ← hnext.index_eq htype, hnext.scanned (by rw [hnext.index_eq htype]; omega)]
          at hscanned
        exact hc (some.inj hscanned ▸ htype)
    · have hlt := hnext.lt_index htype
      have hle := hnext.index_le
      obtain ⟨init, hinit, hpairwise, hmem⟩ := ih hle (by omega)
      refine ⟨b :: init, by rw [if_neg htype, hinit]; rfl, ?_, fun c => ?_⟩
      · exact pairwise_cons.mpr ⟨fun c hc => ((hmem c).mp hc).2.1, hpairwise⟩
      · rw [mem_cons, hmem]
        constructor
        · rintro (rfl | ⟨hc, hlt', hle', hscanned⟩)
          · exact ⟨htype, hlt, hle, hnext.scanned hlt⟩
          · exact ⟨hc, by omega, hle', hscanned⟩
        · rintro ⟨hc, hlt', hle', hscanned⟩
          -- there is no break between `i` and the next one
          rcases lt_trichotomy c.index b.index with h | h | h
          · rw [hnext.nothing hlt' h] at hscanned
            cases hscanned
          · rw [h, hnext.scanned hlt] at hscanned
            exact .inl (some.inj hscanned).symm
          · exact .inr ⟨hc, h, hle', hscanned⟩

lemma MandatoryAt.le_length (h : MandatoryAt text i) : 0 < i ∧ i ≤ text.length := by
  obtain ⟨u, hi, hu, -⟩ := h
  have hlt := (List.getElem?_eq_some_iff.mp hu).1
  exact ⟨hi, by omega⟩

lemma OpportunityAt.lt_length (h : OpportunityAt text i) : 0 < i ∧ i < text.length := by
  obtain ⟨u, v, hi, -, hv, -⟩ := h
  exact ⟨hi, (List.getElem?_eq_some_iff.mp hv).1⟩

/-- When a position is a mandatory break. -/
lemma breakAt_eq_mandatory_iff (hi : 0 < i) (hle : i ≤ text.length) :
    breakAt text i = some ⟨i, .mandatory⟩ ↔ MandatoryAt text i := by
  have hscanned := scanned_breakAt hi hle
  generalize breakAt text i = r at hscanned ⊢
  cases hscanned with
  | mandatory mandatory => exact iff_of_true rfl mandatory
  | endOfText not_mandatory | nothing not_mandatory => exact iff_of_false nofun not_mandatory
  | opportunity opportunity =>
    obtain ⟨_, _, _, _, _, _, _, _, _, _, _, _, _, not_mandatory⟩ := opportunity
    exact iff_of_false nofun not_mandatory

/-- When a position is an opportunity. -/
lemma breakAt_eq_opportunity_iff (hi : 0 < i) (hle : i ≤ text.length) :
    breakAt text i = some ⟨i, .opportunity⟩ ↔ OpportunityAt text i := by
  have hscanned := scanned_breakAt hi hle
  generalize breakAt text i = r at hscanned ⊢
  cases hscanned with
  | mandatory mandatory =>
    refine iff_of_false nofun ?_
    rintro ⟨_, _, _, _, _, _, _, _, _, _, _, _, _, not_mandatory⟩
    exact not_mandatory mandatory
  | endOfText _ eq => exact iff_of_false nofun fun h => absurd h.lt_length.2 (by omega)
  | opportunity opportunity => exact iff_of_true rfl opportunity
  | nothing _ not_opportunity => exact iff_of_false nofun not_opportunity

/-- Which breaks there are. -/
lemma mem_lineBreaks_iff : b ∈ lineBreaks text ↔ b = ⟨text.length, .endOfText⟩ ∨
    b.type ≠ .endOfText ∧ 0 < b.index ∧ b.index ≤ text.length ∧ breakAt text b.index = some b := by
  obtain ⟨init, heq, -, hmem⟩ :=
    exists_lineBreaksFrom_eq (zero_le text.length) (show text.length - 0 < text.length + 1 by omega)
  rw [lineBreaks, heq, mem_append, hmem, mem_singleton, or_comm]

/-- A break in front of the end of the text is a hard one or an opportunity. -/
theorem mandatoryAt_or_opportunityAt (hb : b ∈ lineBreaks text) (htype : b.type ≠ .endOfText) :
    MandatoryAt text b.index ∨ OpportunityAt text b.index := by
  rcases mem_lineBreaks_iff.mp hb with rfl | ⟨-, hpos, hle, hbreak⟩
  · exact absurd rfl htype
  · have hscanned := scanned_breakAt hpos hle
    generalize hr : breakAt text b.index = r at hscanned
    cases hscanned with
    | mandatory mandatory => exact .inl mandatory
    | endOfText =>
      rw [hbreak] at hr
      exact absurd (congrArg LineBreakResult.type (some.inj hr)) htype
    | opportunity opportunity => exact .inr opportunity
    | nothing =>
      rw [hbreak] at hr
      cases hr

/-- The loop ends at the end of the text, its breaks are in order, and they are those that the
positions of the text determine. Only the last break may be at the same index as the one before, if
the text ends with the end of a line. -/
theorem lineBreaks_spec (text : List UInt16) :
    (∃ init, lineBreaks text = init ++ [⟨text.length, .endOfText⟩] ∧
      init.Pairwise (fun b b' => b.index < b'.index) ∧
      ∀ b ∈ init, b.type ≠ .endOfText ∧
        (b.index < text.length ∨ b.index = text.length ∧ MandatoryAt text text.length)) ∧
    (∀ i, ⟨i, .mandatory⟩ ∈ lineBreaks text ↔ MandatoryAt text i) ∧
    ∀ i, ⟨i, .opportunity⟩ ∈ lineBreaks text ↔ OpportunityAt text i := by
  obtain ⟨init, heq, hpairwise, hmem⟩ :=
    exists_lineBreaksFrom_eq (zero_le text.length) (show text.length - 0 < text.length + 1 by omega)
  have hiff : ∀ {i type} {P : Prop}, type ≠ .endOfText →
      (0 < i → i ≤ text.length → (breakAt text i = some ⟨i, type⟩ ↔ P)) →
      (P → 0 < i ∧ i ≤ text.length) → (⟨i, type⟩ ∈ lineBreaks text ↔ P) := by
    intro i type P htype hbreak hbounds
    rw [mem_lineBreaks_iff]
    constructor
    · rintro (hend | ⟨-, hpos, hle, hscanned⟩)
      · cases hend
        exact absurd rfl htype
      · exact (hbreak hpos hle).mp hscanned
    · intro h
      obtain ⟨hpos, hle⟩ := hbounds h
      exact .inr ⟨htype, hpos, hle, (hbreak hpos hle).mpr h⟩
  refine ⟨⟨init, heq, hpairwise, fun b hb => ?_⟩,
    fun i => hiff nofun breakAt_eq_mandatory_iff MandatoryAt.le_length,
    fun i => hiff nofun breakAt_eq_opportunity_iff fun h => h.lt_length.imp_right le_of_lt⟩
  obtain ⟨htype, -, hle, -⟩ := (hmem b).mp hb
  refine ⟨htype, (lt_or_eq_of_le hle).imp_right fun hlast => ⟨hlast, ?_⟩⟩
  have hbreak : b ∈ lineBreaks text := by
    rw [lineBreaks, heq]
    exact mem_append_left _ hb
  rcases mandatoryAt_or_opportunityAt hbreak htype with h | h
  · exact hlast ▸ h
  · exact absurd h.lt_length.2 (not_lt.mpr hlast.ge)

/-! ## Chunks -/

/-- The text between two breaks that follow each other is a chunk. This is where one starts. -/
def ChunkStart (text : List UInt16) (i : ℕ) : Prop :=
  i = 0 ∨ ∃ b ∈ lineBreaks text, b.type ≠ .endOfText ∧ b.index = i

/-- The chunk from `i` to `j`. -/
structure Chunk (text : List UInt16) (i j : ℕ) : Prop where
  start : ChunkStart text i
  index_eq : (nextLineBreak text i).index = j

/-- The next break is one of the breaks. -/
lemma nextLineBreak_mem (hi : i ≤ text.length) : nextLineBreak text i ∈ lineBreaks text := by
  have hnext := nextBreak_nextLineBreak hi
  rw [mem_lineBreaks_iff]
  by_cases htype : (nextLineBreak text i).type = .endOfText
  · left
    rw [← hnext.index_eq htype, ← htype]
  · have hlt := hnext.lt_index htype
    exact .inr ⟨htype, zero_lt_of_lt hlt, hnext.index_le, hnext.scanned hlt⟩

/-- Chunks start within the text. -/
lemma ChunkStart.le_length (h : ChunkStart text i) : i ≤ text.length := by
  rcases h with rfl | ⟨b, hb, htype, rfl⟩
  · exact zero_le _
  · rcases mem_lineBreaks_iff.mp hb with rfl | ⟨-, -, hle, -⟩
    · exact absurd rfl htype
    · exact hle

section

variable (h : Chunk text i j)
include h

/-- A chunk ends at the next break. -/
lemma Chunk.nextBreak : NextBreak text i (nextLineBreak text i) :=
  nextBreak_nextLineBreak h.start.le_length

/-- Chunks end within the text. -/
lemma Chunk.le_length : j ≤ text.length := by
  rw [← h.index_eq]
  exact h.nextBreak.index_le

/-- Chunks do not end before they start. -/
lemma Chunk.le : i ≤ j := by
  rw [← h.index_eq]
  by_cases htype : (nextLineBreak text i).type = .endOfText
  · rw [h.nextBreak.index_eq htype]
    exact h.start.le_length
  · exact le_of_lt (h.nextBreak.lt_index htype)

/-- There is no break within a chunk. -/
theorem Chunk.not_between {k : ℕ} (hb : b ∈ lineBreaks text) (hk : b.index = k) (hlt : i < k)
    (hlt' : k < j) : False := by
  have hnext := h.nextBreak
  rw [← h.index_eq] at hlt'
  rcases mem_lineBreaks_iff.mp hb with rfl | ⟨-, -, -, hscanned⟩
  · exact absurd (lt_of_lt_of_le hlt' hnext.index_le) (by rw [← hk]; exact lt_irrefl _)
  · rw [hk, hnext.nothing hlt hlt'] at hscanned
    cases hscanned

/-- A position is within one chunk only. -/
theorem Chunk.start_eq {i' j' k : ℕ} (h' : Chunk text i' j') (hik : i < k) (hkj : k < j)
    (hik' : i' < k) (hkj' : k < j') : i = i' := by
  rcases lt_trichotomy i i' with hlt | heq | hlt
  · rcases h'.start with rfl | ⟨b, hb, -, hbi⟩
    · exact absurd hlt (not_lt_zero i)
    · exact (h.not_between hb hbi hlt (lt_trans hik' hkj)).elim
  · exact heq
  · rcases h.start with rfl | ⟨b, hb, -, hbi⟩
    · exact absurd hlt (not_lt_zero i')
    · exact (h'.not_between hb hbi hlt (lt_trans hik hkj')).elim

end

/-- A loop over all breaks keeps what each of its rounds keeps, until the end of the text. -/
theorem ensures_foldlM_lineBreaks_history {ε σ : Type} {allowed : ε → Prop}
    (inv : List LineBreakResult → ℕ → σ → Prop) (post : List LineBreakResult → σ → Prop)
    {f : σ → LineBreakResult → Except ε σ} {s₀ : σ}
    (hstep : ∀ {done rest i s b}, lineBreaks text = done ++ b :: rest →
      done.foldlM f s₀ = .ok s → b = nextLineBreak text i → Chunk text i b.index → inv done i s →
      Ensures allowed (fun s' => if b.type = .endOfText then post (done ++ [b]) s'
        else inv (done ++ [b]) b.index s') (f s b))
    (hinv : inv [] 0 s₀) :
    Ensures allowed (post (lineBreaks text)) ((lineBreaks text).foldlM f s₀) := by
  have hloop : ∀ {rounds done i s}, lineBreaks text = done ++ lineBreaksFrom text rounds i →
      done.foldlM f s₀ = .ok s → ChunkStart text i → text.length - i < rounds → inv done i s →
      Ensures allowed (post (lineBreaks text)) ((lineBreaksFrom text rounds i).foldlM f s) := by
    intro rounds
    induction rounds with
    | zero =>
      intro done i s _ _ _ hrounds
      exact absurd hrounds (not_lt_zero _)
    | succ rounds ih =>
      intro done i s hbreaks hrun hstart hrounds hinv
      have hnext := nextBreak_nextLineBreak hstart.le_length
      rw [lineBreaksFrom] at hbreaks ⊢
      rw [foldlM_cons]
      refine (hstep hbreaks hrun rfl ⟨hstart, rfl⟩ hinv).with_eq.bind fun s' ⟨hs', heq⟩ => ?_
      by_cases htype : (nextLineBreak text i).type = .endOfText
      · rw [if_pos htype] at hs' hbreaks ⊢
        rw [hbreaks]
        exact hs'
      · rw [if_neg htype] at hs' hbreaks ⊢
        have hlt := hnext.lt_index htype
        have hle := hnext.index_le
        refine ih ?_ ?_ (.inr ⟨_, nextLineBreak_mem hstart.le_length, htype, rfl⟩) (by omega) hs'
        · rw [hbreaks, append_cons]
        · rw [foldlM_append, hrun, ok_bind, foldlM_cons, heq]
          rfl
  exact hloop rfl rfl (.inl rfl) (by omega) hinv

/-- An invariant over all chunks. -/
lemma ensures_foldlM_lineBreaks {ε σ : Type} {allowed : ε → Prop} (inv : ℕ → σ → Prop)
    {post : σ → Prop} {f : σ → LineBreakResult → Except ε σ} {s : σ}
    (hstep : ∀ {i s b}, b = nextLineBreak text i → Chunk text i b.index → inv i s →
      Ensures allowed (fun s' => if b.type = .endOfText then post s' else inv b.index s') (f s b))
    (hinv : inv 0 s) : Ensures allowed post ((lineBreaks text).foldlM f s) :=
  ensures_foldlM_lineBreaks_history (fun _ => inv) (fun _ => post)
    (fun _ _ hb hchunk hi => hstep hb hchunk hi) hinv

/-- The rule for a loop that cannot fail. -/
theorem foldl_lineBreaks {σ : Type} (inv : ℕ → σ → Prop) (post : σ → Prop)
    {f : σ → LineBreakResult → σ} {s : σ}
    (hstep : ∀ {i s b}, b = nextLineBreak text i → Chunk text i b.index → inv i s →
      if b.type = .endOfText then post (f s b) else inv b.index (f s b))
    (hinv : inv 0 s) : post ((lineBreaks text).foldl f s) := by
  have hpure : Ensures (fun _ : Empty => False) post
      ((lineBreaks text).foldlM (fun s b => .ok (f s b)) s) :=
    ensures_foldlM_lineBreaks inv (fun hb hchunk hi => hstep hb hchunk hi) hinv
  rwa [show (fun s b => (.ok (f s b) : Except Empty σ)) = fun s b => pure (f s b) from rfl,
    foldlM_pure] at hpure

end WebUi
