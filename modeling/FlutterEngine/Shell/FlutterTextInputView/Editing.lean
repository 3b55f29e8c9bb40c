import FlutterEngine.Lib.Utf
import FlutterEngine.Shell.FlutterTextInputView

/-!
# The editing states that an iOS text input view reports

Calls of `FlutterTextInputView` change the text, the selection and the marked range at different
points, and report the editing state after some of them.

* `wellFormed_iff`: the selection that is reported lies inside the text. The marked range does as
  long as no call makes the text end in front of it (`KeepsMarked`), since `replaceRange` does not
  adjust it.
* `exists_utf16_of_run`: a text stays free of lone surrogates as long as no end of a range that is
  replaced lies within a pair. `deleteBackward` deletes one code unit whatever it is part of, and
  the ends of selections are not aligned with characters.
-/

namespace Flutter

open Lib List

namespace FlutterTextInputView

/-! ## Calls -/

section Calls

variable (composition : Composition) (view : FlutterTextInputView)

/-- The view with a range marked, unless the range is empty. -/
def marking (range : NSRange) : FlutterTextInputView :=
  { view with markedTextRange := if 0 < range.length then some range else none }

/-- `setTextInputState:` -/
def setTextInputState (newText : List UInt16)
    (selectionBase selectionExtent composingBase composingExtent : ℤ) :
    FlutterTextInputView × List EditingState :=
  let clamped (base extent : ℤ) : NSRange :=
    clampSelection ⟨nsUInteger (min base extent), (base - extent).natAbs⟩ newText.length
  let marked := { view with text := newText }.marking (clamped composingBase composingExtent)
  let selectedRange := clamped selectionBase selectionExtent
  let view' :=
    if selectedRange ≠ view.selectedTextRange then
      marked.setSelectedTextRange composition selectedRange
    else marked
  (view', if view.text ≠ newText then [view'.editingState] else [])

/-- `replaceRange:withText:` -/
def replaceRangeAndUpdate (range : NSRange) (text : List UInt16) :
    FlutterTextInputView × List EditingState :=
  let view' := view.replaceRange composition range text
  (view', [view'.editingState])

/-- The selection that `deleteBackward` replaces: the code unit in front of a caret. -/
def backwardSelection : NSRange :=
  if view.selectedTextRange.length = 0 ∧ view.text ≠ [] ∧ 0 < view.selectedTextRange.location then
    ⟨view.selectedTextRange.location - 1, 1⟩
  else view.selectedTextRange

/-- `deleteBackward` -/
def deleteBackward : FlutterTextInputView × List EditingState :=
  let view' := { view with selectedTextRange := view.backwardSelection }
  if view.backwardSelection.length ≠ 0 then
    view'.replaceRangeAndUpdate composition view.backwardSelection []
  else (view', [])

/-- The range that `setMarkedText:selectedRange:` replaces. -/
def markedOrSelected : NSRange :=
  view.markedTextRange.elim view.selectedTextRange fun range =>
    if 0 < range.length then range else view.selectedTextRange

/-- `setMarkedText:selectedRange:` -/
def setMarkedText (markedText : List UInt16) (markedSelectedRange : NSRange) :
    FlutterTextInputView × List EditingState :=
  let location := view.markedOrSelected.location
  let replaced := view.replaceRange composition view.markedOrSelected markedText
  let marked := replaced.marking ⟨location, markedText.length⟩
  let selectedRange : NSRange :=
    ⟨nsUInteger (markedSelectedRange.location + location), markedSelectedRange.length⟩
  let view' := marked.setSelectedTextRange composition
    (clampSelection selectedRange marked.text.length)
  (view', [replaced.editingState, view'.editingState])

end Calls

inductive Call where
  | setTextInputState (newText : List UInt16)
      (selectionBase selectionExtent composingBase composingExtent : ℤ)
  | insertText (text : List UInt16)
  | deleteBackward
  | replaceRange (range : NSRange) (text : List UInt16)
  | setSelectedTextRange (range : NSRange)
  | setMarkedText (markedText : List UInt16) (markedSelectedRange : NSRange)
  | unmarkText

/-- The view after a call, and the states that are passed to `updateEditingClient`. -/
def perform (composition : Composition) (view : FlutterTextInputView) :
    Call → FlutterTextInputView × List EditingState
  | .setTextInputState newText selectionBase selectionExtent composingBase composingExtent =>
    view.setTextInputState composition newText selectionBase selectionExtent composingBase
      composingExtent
  | .insertText text => view.replaceRangeAndUpdate composition view.selectedTextRange text
  | .deleteBackward => view.deleteBackward composition
  | .replaceRange range text => view.replaceRangeAndUpdate composition range text
  | .setSelectedTextRange range =>
    let view' := view.setSelectedTextRange composition range
    (view', [view'.editingState])
  | .setMarkedText markedText markedSelectedRange =>
    view.setMarkedText composition markedText markedSelectedRange
  | .unmarkText =>
    let view' := { view with markedTextRange := none }
    (view', [view'.editingState])

def step (composition : Composition) (view : FlutterTextInputView) (call : Call) :
    Option FlutterTextInputView :=
  some (view.perform composition call).1

/-- The text keeps a length that is an `int`, and ranges that are selected lie inside the text. -/
def Fits (composition : Composition) (view : FlutterTextInputView) (call : Call) : Prop :=
  (view.perform composition call).1.text.length < 2 ^ 31 ∧
    ∀ range, call = .setSelectedTextRange range → range.last ≤ view.text.length

/-! ## The selection lies inside the text -/

/-- The selection lies inside a text whose length is an `int`, and the marked range is not empty. -/
structure Inside (view : FlutterTextInputView) : Prop where
  size : view.text.length < 2 ^ 31
  selected : view.selectedTextRange.last ≤ view.text.length
  marked : ∀ range ∈ view.markedTextRange, 0 < range.length

variable {composition : Composition} {view : FlutterTextInputView} {range : NSRange}
  {text : List UInt16}

lemma text_setSelectedTextRange :
    (view.setSelectedTextRange composition range).text = view.text := rfl

/-- The text after a replacement. -/
lemma text_replaceRange : (view.replaceRange composition range text).text =
    replaceCharacters view.text (clampSelection range view.text.length) text := rfl

variable {selectionBase selectionExtent composingBase composingExtent : ℤ}

lemma text_setTextInputState :
    (view.setTextInputState composition text selectionBase selectionExtent composingBase
      composingExtent).1.text = text := by
  rw [setTextInputState]
  split <;> rfl

/-- The text after marking. -/
lemma text_setMarkedText : (view.setMarkedText composition text range).1.text =
    replaceCharacters view.text (clampSelection view.markedOrSelected view.text.length) text := rfl

/-- A range inside the text is moved to the beginning of a character. -/
theorem Inside.setSelectedTextRange (hmarked : ∀ range ∈ view.markedTextRange, 0 < range.length)
    (hsize : view.text.length < 2 ^ 31) (hlast : range.last ≤ view.text.length) :
    (view.setSelectedTextRange composition range).Inside := by
  refine ⟨hsize, ?_, hmarked⟩
  rw [NSRange.last] at hlast
  rw [FlutterTextInputView.setSelectedTextRange]
  split
  · rw [Composition.rangeForCharactersInRange, ← Int.natCast_add, nsUInteger_natCast (by omega),
      if_neg (by omega)]
    split
    · exact hlast
    · have := location_sequenceAt_le (composition.lengths view.text) (Nat.zero_le range.location)
      rw [NSRange.last]
      dsimp only
      omega
  · exact hlast

/-- After a replacement the selection is inside the text. -/
lemma Inside.replaceRange (hmarked : ∀ range ∈ view.markedTextRange, 0 < range.length) (hsize :
      (replaceCharacters view.text (clampSelection range view.text.length) text).length < 2 ^ 31) :
    (view.replaceRange composition range text).Inside :=
  .setSelectedTextRange hmarked hsize (last_clampSelection_le _ hsize)

/-- A marked range is not empty. -/
lemma length_pos_of_mem_marking (range : NSRange) :
    ∀ range' ∈ (view.marking range).markedTextRange, 0 < range'.length := by
  intro range' hrange'
  rw [marking] at hrange'
  split at hrange'
  · next hpos =>
    cases hrange'
    exact hpos
  · cases hrange'

/-- After marking the selection is inside the text. -/
lemma Inside.marking (hsize : view.text.length < 2 ^ 31) (marked : NSRange) :
    ((view.marking marked).setSelectedTextRange composition
      (clampSelection range view.text.length)).Inside :=
  .setSelectedTextRange (length_pos_of_mem_marking marked) hsize (last_clampSelection_le _ hsize)

/-- The call ends with its selection inside the text, and so are the selections that it reports. -/
def Reports (result : FlutterTextInputView × List EditingState) : Prop :=
  result.1.Inside ∧ ∀ report ∈ result.2, ∃ view : FlutterTextInputView, view.Inside ∧
    view.text = result.1.text ∧ report = view.editingState

/-- A selection inside the text is reported as it is. -/
lemma Inside.reports (hview : view.Inside) : Reports (view, [view.editingState]) :=
  ⟨hview, forall_mem_singleton.mpr ⟨view, hview, rfl, rfl⟩⟩

/-- What is reported of a deletion. -/
lemma Inside.deleteBackward (hview : view.Inside)
    (hsize : (view.deleteBackward composition).1.text.length < 2 ^ 31) :
    Reports (view.deleteBackward composition) := by
  rw [FlutterTextInputView.deleteBackward] at hsize ⊢
  by_cases hlength : view.backwardSelection.length ≠ 0
  · rw [if_pos hlength, replaceRangeAndUpdate, text_replaceRange] at hsize
    rw [if_pos hlength, replaceRangeAndUpdate]
    refine Inside.reports (.replaceRange ?_ hsize)
    exact hview.marked
  · -- An empty selection is left as it is.
    have hkept : view.backwardSelection = view.selectedTextRange := by
      rw [backwardSelection] at hlength ⊢
      split at hlength
      · exact absurd Nat.one_ne_zero hlength
      · next hnot => rw [if_neg hnot]
    rw [if_neg hlength, hkept]
    exact ⟨hview, nofun⟩

/-- What is reported of marking. -/
lemma Inside.setMarkedText (hview : view.Inside)
    (hsize : (view.setMarkedText composition text range).1.text.length < 2 ^ 31) :
    Reports (view.setMarkedText composition text range) := by
  rw [text_setMarkedText] at hsize
  have hreplaced : (view.replaceRange composition view.markedOrSelected text).Inside :=
    .replaceRange hview.marked hsize
  rw [← text_replaceRange] at hsize
  rw [FlutterTextInputView.setMarkedText]
  generalize view.replaceRange composition view.markedOrSelected text = replaced at *
  obtain ⟨hinside, hreports⟩ := Inside.reports (Inside.marking hsize _)
  -- The first report is that of the replacement, with the marked range as it was before.
  exact ⟨hinside, forall_mem_cons.mpr ⟨⟨replaced, hreplaced, rfl, rfl⟩, hreports⟩⟩

/-- What is reported of a state of the framework. -/
lemma reports_setTextInputState (hsize : text.length < 2 ^ 31) :
    Reports (view.setTextInputState composition text selectionBase
      selectionExtent composingBase composingExtent) := by
  have hreports : ∀ view' : FlutterTextInputView, view'.Inside →
      Reports (view', if view.text ≠ text then [view'.editingState] else []) := by
    intro view' hview'
    split
    · exact hview'.reports
    · exact ⟨hview', nofun⟩
  rw [setTextInputState]
  refine hreports _ ?_
  split
  · refine Inside.marking ?_ _
    exact hsize
  · next heq =>
    refine ⟨hsize, ?_, length_pos_of_mem_marking _⟩
    rw [marking, ← not_not.mp heq]
    exact last_clampSelection_le _ hsize

/-- Every call keeps the selection inside the text. -/
theorem Inside.perform (hview : view.Inside) {call : Call} (hfits : view.Fits composition call) :
    Reports (view.perform composition call) := by
  obtain ⟨hsize, hselected⟩ := hfits
  cases call with
  | insertText text | replaceRange range text =>
    rw [FlutterTextInputView.perform, replaceRangeAndUpdate, text_replaceRange] at hsize
    exact Inside.reports (.replaceRange hview.marked hsize)
  | setSelectedTextRange range =>
    rw [FlutterTextInputView.perform, text_setSelectedTextRange] at hsize
    exact Inside.reports (.setSelectedTextRange hview.marked hsize (hselected range rfl))
  | unmarkText => exact Inside.reports ⟨hview.size, hview.selected, nofun⟩
  | deleteBackward => exact hview.deleteBackward hsize
  | setMarkedText markedText markedSelectedRange => exact hview.setMarkedText hsize
  | setTextInputState newText selectionBase selectionExtent composingBase composingExtent =>
    rw [FlutterTextInputView.perform, text_setTextInputState] at hsize
    exact reports_setTextInputState hsize

/-- At first the text is empty. -/
lemma inside_init : init.Inside := ⟨by decide, Nat.le_refl 0, nofun⟩

/-! ## Reported states -/

/-- The selection and the marked range of a reported state lie inside its text. -/
structure WellFormed (state : EditingState) : Prop where
  selectionBase_le : state.selectionBase ≤ state.selectionExtent
  selectionExtent_le : state.selectionExtent ≤ state.text.length
  composing : state.composingBase = -1 ∧ state.composingExtent = -1 ∨
    0 ≤ state.composingBase ∧ state.composingBase < state.composingExtent ∧
      state.composingExtent ≤ state.text.length

/-- The marked range ends inside the text. -/
def MarkedInside (view : FlutterTextInputView) : Prop :=
  ∀ marked ∈ view.markedTextRange, marked.last ≤ view.text.length

/-- The range that a call replaces, and the text that it puts there. -/
def replacement (view : FlutterTextInputView) : Call → Option (NSRange × List UInt16)
  | .insertText text => some (view.selectedTextRange, text)
  | .deleteBackward => some (view.backwardSelection, [])
  | .replaceRange range text => some (range, text)
  | .setMarkedText markedText _ => some (view.markedOrSelected, markedText)
  | .setTextInputState .. | .setSelectedTextRange _ | .unmarkText => none

/-- If the call replaces a range, then the text is still long enough for the range that is marked
before the call. -/
def KeepsMarked (view : FlutterTextInputView) (call : Call) : Prop :=
  ∀ replaced ∈ view.replacement call, ∀ marked ∈ view.markedTextRange,
    marked.last + (clampSelection replaced.1 view.text.length).length ≤
      view.text.length + replaced.2.length

instance (view : FlutterTextInputView) (call : Call) : Decidable (view.KeepsMarked call) :=
  inferInstanceAs (Decidable (∀ replaced ∈ _, _))

/-- When a replacement keeps the marked range inside the text. -/
lemma keepsMarked_iff {call : Call} (h : view.replacement call = some (range, text)) :
    view.KeepsMarked call ↔ ∀ marked ∈ view.markedTextRange,
      marked.last + (clampSelection range view.text.length).length ≤
        view.text.length + text.length := by
  simp only [KeepsMarked, h, Option.mem_def, Option.some.injEq, forall_eq']

/-- With its selection inside the text, a view is reported well formed exactly if its marked range
is inside as well. -/
lemma Inside.wellFormed_iff_markedInside (hview : view.Inside) :
    WellFormed view.editingState ↔ view.MarkedInside := by
  cases hmarked : view.markedTextRange with
  | none =>
    refine iff_of_true ⟨Nat.le_add_right _ _, hview.selected, .inl ?_⟩ ?_
    · rw [editingState, hmarked]
      exact ⟨rfl, rfl⟩
    · rw [MarkedInside, hmarked]
      exact nofun
  | some marked =>
    have hpos := hview.marked marked hmarked
    have hinside : view.MarkedInside ↔ marked.last ≤ view.text.length := by
      simp only [MarkedInside, hmarked, Option.mem_def, Option.some.injEq, forall_eq']
    rw [hinside]
    constructor
    · rintro ⟨-, -, hcomposing⟩
      simp only [editingState, hmarked, Option.elim_some, NSRange.last] at hcomposing ⊢
      omega
    · intro hle
      refine ⟨Nat.le_add_right _ _, hview.selected, .inr ?_⟩
      simp only [editingState, hmarked, Option.elim_some, NSRange.last] at hle ⊢
      omega

/-- After a replacement, the marked range is where it was, in a text that is as long as the
replacement makes it. -/
lemma markedInside_replaceRange_iff (hsize : view.text.length < 2 ^ 31) :
    (view.replaceRange composition range text).MarkedInside ↔ ∀ marked ∈ view.markedTextRange,
      marked.last + (clampSelection range view.text.length).length ≤
        view.text.length + text.length := by
  have hclamp := last_clampSelection_le range hsize
  have hlength := length_replaceCharacters text hclamp
  rw [NSRange.last] at hclamp
  refine forall₂_congr fun marked _ => ?_
  rw [text_replaceRange, hlength]
  omega

/-- `setMarkedText` replaces a range inside the text. -/
lemma Inside.last_markedOrSelected_le (hview : view.Inside) (hmarked : view.MarkedInside) :
    view.markedOrSelected.last ≤ view.text.length := by
  rw [markedOrSelected]
  cases hrange : view.markedTextRange with
  | none => exact hview.selected
  | some marked =>
    rw [Option.elim_some, if_pos (hview.marked marked hrange)]
    exact hmarked marked hrange

/-- A range that is marked with its end inside the text is inside. -/
lemma markedInside_marking (hlast : range.last ≤ view.text.length) :
    (view.marking range).MarkedInside := by
  intro marked hmarked
  rw [marking] at hmarked
  split at hmarked
  · cases hmarked
    exact hlast
  · cases hmarked

lemma markedInside_setSelectedTextRange :
    (view.setSelectedTextRange composition range).MarkedInside ↔ view.MarkedInside := Iff.rfl

/-- The new marked text is inside whatever the old marked range was. -/
lemma markedInside_setMarkedText (hview : view.Inside) (hmarked : view.MarkedInside) :
    (view.setMarkedText composition text range).1.MarkedInside := by
  have hlast := hview.last_markedOrSelected_le hmarked
  have hlength : (view.replaceRange composition view.markedOrSelected text).text.length =
      view.text.length - view.markedOrSelected.length + text.length := by
    rw [text_replaceRange, clampSelection_of_le hview.size hlast,
      length_replaceCharacters text hlast]
  rw [setMarkedText, markedInside_setSelectedTextRange]
  refine markedInside_marking (hlength ▸ ?_)
  rw [NSRange.last] at hlast ⊢
  dsimp only
  omega

/-- The state of the framework has its marked range inside its text. -/
lemma markedInside_setTextInputState (hsize : text.length < 2 ^ 31) :
    (view.setTextInputState composition text selectionBase selectionExtent composingBase
      composingExtent).1.MarkedInside := by
  rw [setTextInputState]
  split <;> exact markedInside_marking (last_clampSelection_le _ hsize)

/-- The marked range stays inside the text if the call keeps it there, and every report of the call
is well formed exactly then. -/
theorem wellFormed_perform_iff (hview : view.Inside) (hmarked : view.MarkedInside)
    {call : Call} (hfits : view.Fits composition call) :
    (view.KeepsMarked call → (view.perform composition call).1.MarkedInside) ∧
      ((∀ report ∈ (view.perform composition call).2, WellFormed report) ↔
        view.KeepsMarked call) := by
  have hreports := hview.perform hfits
  cases call with
  | insertText text | replaceRange range text =>
    rw [perform, replaceRangeAndUpdate] at hreports ⊢
    rw [forall_mem_singleton, hreports.1.wellFormed_iff_markedInside, keepsMarked_iff rfl,
      markedInside_replaceRange_iff hview.size]
    exact ⟨id, Iff.rfl⟩
  | deleteBackward =>
    rw [keepsMarked_iff rfl]
    rw [perform, deleteBackward] at hreports ⊢
    by_cases hlength : view.backwardSelection.length ≠ 0
    · rw [if_pos hlength, replaceRangeAndUpdate] at hreports ⊢
      rw [forall_mem_singleton, hreports.1.wellFormed_iff_markedInside]
      have hiff := @markedInside_replaceRange_iff composition
        { view with selectedTextRange := view.backwardSelection } view.backwardSelection []
        hview.size
      exact ⟨hiff.mpr, hiff⟩
    · -- Nothing is deleted or reported.
      rw [if_neg hlength]
      refine ⟨fun _ => hmarked, iff_of_true nofun fun marked hmem => ?_⟩
      have hle := hmarked marked hmem
      have hzero : (clampSelection view.backwardSelection view.text.length).length = 0 := by
        rw [clampSelection_eq _ hview.size, not_not.mp hlength, Nat.zero_min]
      rw [hzero]
      exact hle
  | setMarkedText markedText markedSelectedRange =>
    have hafter : (view.setMarkedText composition markedText markedSelectedRange).1.MarkedInside :=
      markedInside_setMarkedText hview hmarked
    have hreplaced : (view.replaceRange composition view.markedOrSelected markedText).Inside :=
      .replaceRange hview.marked hfits.1
    refine ⟨fun _ => hafter, ?_⟩
    rw [perform] at hreports ⊢
    rw [setMarkedText] at hreports hafter ⊢
    rw [forall_mem_cons, forall_mem_singleton, hreplaced.wellFormed_iff_markedInside,
      hreports.1.wellFormed_iff_markedInside, and_iff_left hafter, keepsMarked_iff rfl,
      markedInside_replaceRange_iff hview.size]
  | setTextInputState newText selectionBase selectionExtent composingBase composingExtent =>
    have hsize := hfits.1
    rw [perform, text_setTextInputState] at hsize
    have hafter : (view.setTextInputState composition newText selectionBase selectionExtent
        composingBase composingExtent).1.MarkedInside := markedInside_setTextInputState hsize
    refine ⟨fun _ => hafter, iff_of_true (fun report hreport => ?_) nofun⟩
    -- If there is a report, it is that of the view after the call.
    rw [mem_singleton.mp (mem_ite_nil_right.mp hreport).2]
    exact hreports.1.wellFormed_iff_markedInside.mpr hafter
  | setSelectedTextRange range =>
    refine ⟨fun _ => hmarked, iff_of_true ?_ nofun⟩
    exact forall_mem_singleton.mpr (hreports.1.wellFormed_iff_markedInside.mpr hmarked)
  | unmarkText =>
    refine ⟨nofun, iff_of_true ?_ nofun⟩
    exact forall_mem_singleton.mpr (hreports.1.wellFormed_iff_markedInside.mpr nofun)

/-- As long as no call makes the text end in front of the marked range, what is reported is well
formed, and the first call that does reports a range outside of its text. -/
theorem wellFormed_iff {calls : List Call} (hrun : Run (step composition)
      (fun view call => view.Fits composition call ∧ view.KeepsMarked call) init calls view)
    {call : Call} (hfits : view.Fits composition call) :
    (∀ report ∈ (view.perform composition call).2, WellFormed report) ↔ view.KeepsMarked call := by
  have hview : view.Inside ∧ view.MarkedInside := by
    refine Run.invariant (P := fun view => view.Inside ∧ view.MarkedInside) ⟨inside_init, nofun⟩ ?_
      hrun
    rintro view call _ ⟨hinside, hmarked⟩ ⟨hfits, hkeeps⟩ ⟨⟩
    exact ⟨(hinside.perform hfits).1, (wellFormed_perform_iff hinside hmarked hfits).1 hkeeps⟩
  exact (wellFormed_perform_iff hview.1 hview.2 hfits).2

/-- A character outside of the basic plane, and two marked letters with the caret between them. -/
def markedLetters : FlutterTextInputView := ⟨[0xd83d, 0xde00, 97, 98], ⟨3, 0⟩, some ⟨2, 2⟩⟩

/-- A surrogate pair is inserted. -/
lemma perform_insertText_init : (init.perform .units (.insertText (utf16 ['😀']))).1 =
    ⟨[0xd83d, 0xde00], ⟨2, 0⟩, none⟩ := rfl

/-- Two letters are marked behind it. -/
lemma perform_setMarkedText_letters : (perform .units ⟨[0xd83d, 0xde00], ⟨2, 0⟩, none⟩
    (.setMarkedText (utf16 ['a', 'b']) ⟨1, 0⟩)).1 = markedLetters := rfl

/-- The calls that lead to `markedLetters` fit, whatever else is asked of them. -/
lemma run_markedLetters {guard : FlutterTextInputView → Call → Prop}
    (hinsert : guard init (.insertText (utf16 ['😀'])))
    (hmark : guard ⟨[0xd83d, 0xde00], ⟨2, 0⟩, none⟩ (.setMarkedText (utf16 ['a', 'b']) ⟨1, 0⟩)) :
    Run (step .units) (fun view call => view.Fits .units call ∧ guard view call) init
      [.insertText (utf16 ['😀']), .setMarkedText (utf16 ['a', 'b']) ⟨1, 0⟩] markedLetters := by
  refine .snoc (.snoc .nil ⟨⟨?_, nofun⟩, hinsert⟩ (congrArg some perform_insertText_init))
    ⟨⟨?_, nofun⟩, hmark⟩ (congrArg some perform_setMarkedText_letters)
  · rw [perform_setMarkedText_letters]
    decide
  · rw [perform_insertText_init]
    decide

/-- A letter may take the place of the marked ones. -/
lemma fits_insertText_markedLetters : markedLetters.Fits .units (.insertText [99]) :=
  ⟨by decide +kernel, nofun⟩

/-- A third letter inside the marked ones is reported with a marked range inside the text. -/
theorem wellFormed_iff_insertText : markedLetters.KeepsMarked (.insertText [99]) ∧
    ∀ report ∈ (markedLetters.perform .units (.insertText [99])).2, WellFormed report := by
  have hkeeps : markedLetters.KeepsMarked (.insertText [99]) := by decide +kernel
  have hrun : Run (step .units) (fun view call => view.Fits .units call ∧ view.KeepsMarked call)
      init [.insertText (utf16 ['😀']), .setMarkedText (utf16 ['a', 'b']) ⟨1, 0⟩] markedLetters :=
    run_markedLetters (by decide +kernel) (by decide +kernel)
  exact ⟨hkeeps, (wellFormed_iff hrun fits_insertText_markedLetters).mpr hkeeps⟩

/-- When marked text is replaced by a shorter one, the old range is reported with the new text. -/
theorem not_wellFormed_setMarkedText : ∃ view,
    Run (step .units) (fun view call => view.Fits .units call ∧ view.KeepsMarked call) init
      [.setMarkedText [97, 98] ⟨0, 0⟩] view ∧
    view.Fits .units (.setMarkedText [97] ⟨0, 0⟩) ∧
    ∃ report ∈ (view.perform .units (.setMarkedText [97] ⟨0, 0⟩)).2, ¬WellFormed report := by
  refine ⟨_, .snoc .nil ⟨⟨by decide +kernel, nofun⟩, nofun⟩ rfl, ⟨by decide +kernel, nofun⟩,
    ⟨[97], 1, 1, 0, 2⟩, by decide +kernel, fun hreport => ?_⟩
  rcases hreport.composing with ⟨hbase, -⟩ | ⟨-, -, hextent⟩
  · exact absurd hbase (by decide)
  · exact absurd hextent (by decide)

/-! ## Surrogates -/

/-- No end of the range lies within a pair of surrogates. -/
def Unsplit (view : FlutterTextInputView) (range : NSRange) : Prop :=
  ¬SplitsPair view.text (clampSelection range view.text.length).location ∧
    ¬SplitsPair view.text (clampSelection range view.text.length).last

/-- A call puts only texts without lone surrogates into the text, and only in place of ranges that
split no pair. -/
inductive Aligned (view : FlutterTextInputView) : Call → Prop
  | setTextInputState {s : List Char} {a b c d : ℤ} :
      Aligned view (.setTextInputState (utf16 s) a b c d)
  | insertText {s : List Char} (unsplit : view.Unsplit view.selectedTextRange) :
      Aligned view (.insertText (utf16 s))
  | deleteBackward (unsplit : view.backwardSelection.length ≠ 0 →
      view.Unsplit view.backwardSelection) : Aligned view .deleteBackward
  | replaceRange {range : NSRange} {s : List Char} (unsplit : view.Unsplit range) :
      Aligned view (.replaceRange range (utf16 s))
  | setSelectedTextRange {range : NSRange} : Aligned view (.setSelectedTextRange range)
  | setMarkedText {s : List Char} {range : NSRange}
      (unsplit : view.Unsplit view.markedOrSelected) : Aligned view (.setMarkedText (utf16 s) range)
  | unmarkText : Aligned view .unmarkText

/-- A replacement between characters leaves whole characters. -/
lemma exists_utf16_replaceCharacters (htext : ∃ s, view.text = utf16 s)
    (hrange : view.Unsplit range) (t : List Char) :
    ∃ s, replaceCharacters view.text (clampSelection range view.text.length) (utf16 t) =
      utf16 s := by
  obtain ⟨s, hs⟩ := htext
  obtain ⟨hstart, hlast⟩ := hrange
  rw [hs] at hstart hlast ⊢
  obtain ⟨l, -, hl, -⟩ := exists_utf16_take_drop hstart
  obtain ⟨-, r, -, hr⟩ := exists_utf16_take_drop hlast
  exact ⟨l ++ t ++ r, by rw [replaceCharacters, hl, hr, utf16_append, utf16_append]⟩

/-- An aligned call leaves whole characters. -/
lemma exists_utf16_perform (htext : ∃ s, view.text = utf16 s) {call : Call}
    (haligned : view.Aligned call) : ∃ s, (view.perform composition call).1.text = utf16 s := by
  cases haligned with
  | setTextInputState => exact ⟨_, text_setTextInputState⟩
  | insertText unsplit | replaceRange unsplit =>
    exact exists_utf16_replaceCharacters htext unsplit _
  | setSelectedTextRange | unmarkText => exact htext
  | setMarkedText unsplit =>
    rw [perform, text_setMarkedText]
    exact exists_utf16_replaceCharacters htext unsplit _
  | deleteBackward unsplit =>
    rw [perform, deleteBackward]
    split
    · next hlength => exact exists_utf16_replaceCharacters htext (unsplit hlength) []
    · exact htext

/-- The texts that are reported after any calls have no lone surrogates, if no pair is split by a
range that is replaced. -/
theorem exists_utf16_of_run {calls : List Call} (hrun : Run (step composition)
      (fun view call => view.Fits composition call ∧ view.Aligned call) init calls view)
    {call : Call} (hfits : view.Fits composition call) (haligned : view.Aligned call) :
    ∀ report ∈ (view.perform composition call).2, ∃ s, report.text = utf16 s := by
  have hview : view.Inside ∧ ∃ s, view.text = utf16 s := by
    refine Run.invariant (P := fun view => view.Inside ∧ ∃ s, view.text = utf16 s)
      ⟨inside_init, [], rfl⟩ ?_ hrun
    rintro view call _ ⟨hinside, htext⟩ ⟨hfits, haligned⟩ ⟨⟩
    exact ⟨(hinside.perform hfits).1, exists_utf16_perform htext haligned⟩
  intro report hreport
  obtain ⟨view', -, htext, rfl⟩ := (hview.1.perform hfits).2 report hreport
  obtain ⟨s, hs⟩ := exists_utf16_perform hview.2 haligned
  exact ⟨s, htext.trans hs⟩

/-- An insertion into an empty text is aligned. -/
lemma aligned_insertText_init (s : List Char) : init.Aligned (.insertText (utf16 s)) := by
  refine .insertText ⟨?_, ?_⟩ <;> rintro ⟨u, w, -, hu, -⟩ <;> cases hu

/-- A character outside of the basic plane can be replaced as a whole. -/
theorem exists_utf16_replaceRange : markedLetters.Aligned (.replaceRange ⟨0, 2⟩ (utf16 ['é'])) ∧
    ∀ report ∈ (markedLetters.perform .units (.replaceRange ⟨0, 2⟩ (utf16 ['é']))).2,
      ∃ s, report.text = utf16 s := by
  have hmark : Aligned ⟨[0xd83d, 0xde00], ⟨2, 0⟩, none⟩
      (.setMarkedText (utf16 ['a', 'b']) ⟨1, 0⟩) := by
    refine .setMarkedText ⟨?_, ?_⟩ <;> rintro ⟨u, w, -, -, hw, -⟩ <;> cases hw
  have haligned : markedLetters.Aligned (.replaceRange ⟨0, 2⟩ (utf16 ['é'])) := by
    refine .replaceRange ⟨?_, ?_⟩
    · rintro ⟨u, w, hpos, -⟩
      exact absurd hpos (by decide +kernel)
    · rintro ⟨u, w, -, hu, -, hhigh, -⟩
      cases hu
      exact absurd hhigh (by decide)
  exact ⟨haligned, exists_utf16_of_run (run_markedLetters (aligned_insertText_init _) hmark)
    ⟨by decide +kernel, nofun⟩ haligned⟩

/-- When a character outside of the basic plane is deleted, its first surrogate remains. -/
theorem lone_surrogate_deleteBackward : ∃ view,
    Run (step .units) (fun view call => view.Fits .units call ∧ view.Aligned call) init
      [.insertText (utf16 ['😀'])] view ∧
    view.Fits .units .deleteBackward ∧
    ∃ report ∈ (view.perform .units .deleteBackward).2, ∀ s, report.text ≠ utf16 s := by
  have hdelete : (perform .units ⟨[0xd83d, 0xde00], ⟨2, 0⟩, none⟩ .deleteBackward) =
      (⟨[0xd83d], ⟨1, 0⟩, none⟩, [⟨[0xd83d], 1, 1, -1, -1⟩]) := by
    rfl
  refine ⟨⟨[0xd83d, 0xde00], ⟨2, 0⟩, none⟩, .snoc .nil ⟨⟨?_, nofun⟩, aligned_insertText_init _⟩
    (congrArg some perform_insertText_init), ⟨?_, nofun⟩, ⟨[0xd83d], 1, 1, -1, -1⟩, ?_,
    fun s hs => ?_⟩
  · rw [perform_insertText_init]
    decide
  · rw [hdelete]
    decide
  · rw [hdelete]
    exact mem_singleton_self _
  · have hdecode := congrArg utf16Decode hs
    rw [utf16Decode_utf16] at hdecode
    have hnone : none ∈ s.map some := hdecode ▸ mem_singleton_self none
    obtain ⟨c, -, hc⟩ := mem_map.mp hnone
    cases hc

end FlutterTextInputView

end Flutter
