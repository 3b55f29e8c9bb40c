import FlutterEngine.Lib.Run
import Mathlib.Data.Int.Order.Basic
import Mathlib.Data.List.Infix

/-!
# The text input model

`shell/platform/common/cpp/text_input_model.cc`: a text as a sequence of code points, and a
selection of it. Both ends of the selection are iterators, which are integers here that count from
the beginning of the text. An edit outside of the text is undefined behavior and has no result.

`SetEditingState` compares the end of the selection with the number of bytes of the UTF-8 text that
it is given. If the text has code points of several bytes, a selection is accepted that ends behind
the text. `selectionKept_iff` says that nothing else lets the selection leave the text.

What is read from the configuration and the message that `GetState` builds are left out.
-/

namespace Flutter

open Lib List Int Option

/-- `TextInputModel` -/
structure TextInputModel where
  /-- `text_` -/
  text : List UInt32
  /-- `selection_base_` -/
  selectionBase : ℤ
  /-- `selection_extent_` -/
  selectionExtent : ℤ
deriving DecidableEq, Repr

namespace TextInputModel

/-- The constructor. -/
def init : TextInputModel := ⟨[], 0, 0⟩

/-- `erase` of `std::u32string`, with the iterator that it returns -/
def erase (text : List UInt32) (first last : ℤ) : Option (List UInt32 × ℤ) :=
  if 0 ≤ first ∧ first ≤ last ∧ last ≤ text.length then
    some (text.take first.toNat ++ text.drop last.toNat, first)
  else none

/-- `insert` of `std::u32string`, with the iterator that it returns -/
def insert (text : List UInt32) (pos : ℤ) (c : UInt32) : Option (List UInt32 × ℤ) :=
  if 0 ≤ pos ∧ pos ≤ text.length then
    some (text.take pos.toNat ++ c :: text.drop pos.toNat, pos)
  else none

/-- `from_bytes` of a `wstring_convert`, for valid UTF-8 -/
def fromBytes (text : String) : List UInt32 := text.toList.map (·.val)

variable (model : TextInputModel)

/-- `SetEditingState` -/
def setEditingState (selectionBase selectionExtent : ℕ) (text : String) : Bool × TextInputModel :=
  if selectionExtent < selectionBase then (false, model)
  else if text.utf8ByteSize < selectionExtent then (false, model)
  else (true, ⟨fromBytes text, selectionBase, selectionExtent⟩)

/-- `DeleteSelected` -/
def deleteSelected : Option TextInputModel :=
  (erase model.text model.selectionBase model.selectionExtent).map
    fun (text, selectionBase) => ⟨text, selectionBase, selectionBase⟩

/-- `AddCharacter` -/
def addCharacter (c : UInt32) : Option TextInputModel :=
  (if model.selectionBase ≠ model.selectionExtent then model.deleteSelected
    else some model).bind fun model =>
    (insert model.text model.selectionExtent c).map
      fun (text, selectionExtent) => ⟨text, selectionExtent + 1, selectionExtent + 1⟩

/-- `Backspace` -/
def backspace : Option (Bool × TextInputModel) :=
  if model.selectionBase ≠ model.selectionExtent then
    model.deleteSelected.map (true, ·)
  else if model.selectionBase ≠ 0 then
    (erase model.text (model.selectionBase - 1) model.selectionBase).map
      fun (text, selectionBase) => (true, ⟨text, selectionBase, selectionBase⟩)
  else some (false, model)

/-- `Delete` -/
def delete : Option (Bool × TextInputModel) :=
  if model.selectionBase ≠ model.selectionExtent then
    model.deleteSelected.map (true, ·)
  else if model.selectionBase ≠ model.text.length then
    (erase model.text model.selectionBase (model.selectionBase + 1)).map
      fun (text, selectionBase) => (true, ⟨text, selectionBase, selectionBase⟩)
  else some (false, model)

/-- `MoveCursorToBeginning` -/
def moveCursorToBeginning : TextInputModel :=
  { model with selectionBase := 0, selectionExtent := 0 }

/-- `MoveCursorToEnd` -/
def moveCursorToEnd : TextInputModel :=
  { model with selectionBase := model.text.length, selectionExtent := model.text.length }

/-- `MoveCursorForward` -/
def moveCursorForward : Bool × TextInputModel :=
  if model.selectionBase ≠ model.selectionExtent then
    (true, { model with selectionBase := model.selectionExtent })
  else if model.selectionExtent ≠ model.text.length then
    (true, { model with
      selectionExtent := model.selectionExtent + 1
      selectionBase := model.selectionBase + 1 })
  else (false, model)

/-- `MoveCursorBack` -/
def moveCursorBack : Bool × TextInputModel :=
  if model.selectionBase ≠ model.selectionExtent then
    (true, { model with selectionExtent := model.selectionBase })
  else if model.selectionBase ≠ 0 then
    (true, { model with
      selectionBase := model.selectionBase - 1
      selectionExtent := model.selectionExtent - 1 })
  else (false, model)

/-- The operations of the model. -/
inductive Operation where
  | setEditingState (selectionBase selectionExtent : ℕ) (text : String)
  | addCharacter (c : UInt32)
  | backspace
  | delete
  | moveCursorToBeginning
  | moveCursorToEnd
  | moveCursorForward
  | moveCursorBack

/-- What an operation returns, if it does, and the model after it. -/
def perform : Operation → Option (Option Bool × TextInputModel)
  | .setEditingState selectionBase selectionExtent text =>
    some ((model.setEditingState selectionBase selectionExtent text).map some id)
  | .addCharacter c => (model.addCharacter c).map (none, ·)
  | .backspace => model.backspace.map (·.map some id)
  | .delete => model.delete.map (·.map some id)
  | .moveCursorToBeginning => some (none, model.moveCursorToBeginning)
  | .moveCursorToEnd => some (none, model.moveCursorToEnd)
  | .moveCursorForward => some (model.moveCursorForward.map some id)
  | .moveCursorBack => some (model.moveCursorBack.map some id)

def step (model : TextInputModel) (operation : Operation) : Option TextInputModel :=
  (model.perform operation).map (·.2)

/-! ## The selection -/

/-- The selection lies inside the text. -/
structure Valid : Prop where
  base_nonneg : 0 ≤ model.selectionBase
  base_le_extent : model.selectionBase ≤ model.selectionExtent
  extent_le_length : model.selectionExtent ≤ model.text.length

variable {model}

lemma length_fromBytes (text : String) : (fromBytes text).length = text.length := by
  rw [fromBytes, length_map, String.length_toList]

/-- At first the text is empty. -/
lemma valid_init : init.Valid := ⟨le_refl _, le_refl _, le_refl _⟩

/-- The part between two iterators can be erased, and the first of them stays where it was. -/
theorem exists_erase (text : List UInt32) (first last : ℤ) (hfirst : 0 ≤ first)
    (hle : first ≤ last) (hlast : last ≤ text.length) :
    ∃ text', erase text first last = some (text', first) ∧ Valid ⟨text', first, first⟩ := by
  refine ⟨_, if_pos ⟨hfirst, hle, hlast⟩, hfirst, le_refl _, ?_⟩
  simp only [List.length_append, length_take, length_drop]
  omega

/-- An insertion within the text succeeds. -/
lemma exists_insert {text : List UInt32} {pos : ℤ} (c : UInt32) (hpos : 0 ≤ pos)
    (hle : pos ≤ text.length) :
    ∃ text', insert text pos c = some (text', pos) ∧ Valid ⟨text', pos + 1, pos + 1⟩ := by
  refine ⟨_, if_pos ⟨hpos, hle⟩, by simpa using by omega, le_refl _, ?_⟩
  simp only [List.length_append, length_take, length_cons, length_drop]
  omega

/-- The operation leaves the selection outside of the text: the selection is accepted, and it ends
behind the last code point. -/
def Operation.Overruns : Operation → Prop
  | .setEditingState selectionBase selectionExtent text =>
    selectionBase ≤ selectionExtent ∧ selectionExtent ≤ text.utf8ByteSize ∧
      text.length < selectionExtent
  | _ => False

namespace Valid

section Validity

variable (h : model.Valid)

include h

/-- A selection is deleted. -/
lemma deleteSelected : ∃ model', model.deleteSelected = some model' ∧ model'.Valid := by
  obtain ⟨text, herase, hvalid⟩ :=
    exists_erase _ _ _ h.base_nonneg h.base_le_extent h.extent_le_length
  exact ⟨_, by rw [TextInputModel.deleteSelected, herase]; rfl, hvalid⟩

/-- A character is added. -/
lemma addCharacter (c : UInt32) : ∃ model', model.addCharacter c = some model' ∧ model'.Valid := by
  obtain ⟨model', hdelete, hvalid⟩ : ∃ model',
      (if model.selectionBase ≠ model.selectionExtent then model.deleteSelected
        else some model) = some model' ∧ model'.Valid := by
    split
    · exact h.deleteSelected
    · exact ⟨model, rfl, h⟩
  obtain ⟨text, hinsert, hvalid'⟩ :=
    exists_insert c (hvalid.base_nonneg.trans hvalid.base_le_extent) hvalid.extent_le_length
  refine ⟨_, ?_, hvalid'⟩
  rw [TextInputModel.addCharacter, hdelete, bind_some, hinsert]
  rfl

/-- Backspace succeeds. -/
lemma backspace : ∃ result model', model.backspace = some (result, model') ∧ model'.Valid := by
  rw [TextInputModel.backspace]
  split
  · obtain ⟨model', hdelete, hvalid⟩ := h.deleteSelected
    exact ⟨true, model', by rw [hdelete]; rfl, hvalid⟩
  · obtain ⟨hnonneg, hle, hlength⟩ := h
    split
    · obtain ⟨text, herase, hvalid⟩ := exists_erase model.text (model.selectionBase - 1)
        model.selectionBase (by omega) (by omega) (hle.trans hlength)
      exact ⟨true, _, by rw [herase]; rfl, hvalid⟩
    · exact ⟨false, model, rfl, hnonneg, hle, hlength⟩

/-- Delete succeeds. -/
lemma delete : ∃ result model', model.delete = some (result, model') ∧ model'.Valid := by
  rw [TextInputModel.delete]
  split
  · obtain ⟨model', hdelete, hvalid⟩ := h.deleteSelected
    exact ⟨true, model', by rw [hdelete]; rfl, hvalid⟩
  · obtain ⟨hnonneg, hle, hlength⟩ := h
    split
    · obtain ⟨text, herase, hvalid⟩ := exists_erase model.text model.selectionBase
        (model.selectionBase + 1) hnonneg (by omega) (by omega)
      exact ⟨true, _, by rw [herase]; rfl, hvalid⟩
    · exact ⟨false, model, rfl, hnonneg, hle, hlength⟩

/-- The cursor stays within the text. -/
lemma moveCursorForward : model.moveCursorForward.2.Valid := by
  obtain ⟨hnonneg, hle, hlength⟩ := h
  rw [TextInputModel.moveCursorForward]
  split
  · exact ⟨hnonneg.trans hle, le_refl _, hlength⟩
  · split
    · exact ⟨by simp only; omega, by simp only; omega, by simp only; omega⟩
    · exact ⟨hnonneg, hle, hlength⟩

/-- The cursor does not leave the text. -/
lemma moveCursorBack : model.moveCursorBack.2.Valid := by
  obtain ⟨hnonneg, hle, hlength⟩ := h
  rw [TextInputModel.moveCursorBack]
  split
  · exact ⟨hnonneg, le_refl _, hle.trans hlength⟩
  · split
    · exact ⟨by simp only; omega, by simp only; omega, by simp only; omega⟩
    · exact ⟨hnonneg, hle, hlength⟩

/-- A state that does not overrun is taken over. -/
lemma setEditingState {selectionBase selectionExtent : ℕ} {text : String}
    (hnot : ¬(Operation.setEditingState selectionBase selectionExtent text).Overruns) :
    (model.setEditingState selectionBase selectionExtent text).2.Valid := by
  rw [TextInputModel.setEditingState]
  split
  · exact h
  · split
    · exact h
    · next hle hsize =>
      rw [Operation.Overruns] at hnot
      have hlength : selectionExtent ≤ text.length := by omega
      refine ⟨natCast_nonneg _, by simpa using hle, ?_⟩
      simpa [length_fromBytes] using hlength

/-- Every operation keeps the selection inside the text, unless it overruns. -/
theorem step {operation : Operation} (hnot : ¬operation.Overruns) :
    ∃ model', model.step operation = some model' ∧ model'.Valid := by
  cases operation with
  | setEditingState selectionBase selectionExtent text => exact ⟨_, rfl, h.setEditingState hnot⟩
  | addCharacter c =>
    obtain ⟨model', hadd, hvalid⟩ := h.addCharacter c
    exact ⟨model', by rw [TextInputModel.step, perform, hadd]; rfl, hvalid⟩
  | backspace =>
    obtain ⟨result, model', hbackspace, hvalid⟩ := h.backspace
    exact ⟨model', by rw [TextInputModel.step, perform, hbackspace]; rfl, hvalid⟩
  | delete =>
    obtain ⟨result, model', hdelete, hvalid⟩ := h.delete
    exact ⟨model', by rw [TextInputModel.step, perform, hdelete]; rfl, hvalid⟩
  | moveCursorToBeginning => exact ⟨_, rfl, le_refl _, le_refl _, natCast_nonneg _⟩
  | moveCursorToEnd => exact ⟨_, rfl, natCast_nonneg _, le_refl _, le_refl _⟩
  | moveCursorForward => exact ⟨_, rfl, h.moveCursorForward⟩
  | moveCursorBack => exact ⟨_, rfl, h.moveCursorBack⟩

end Validity

end Valid

lemma map_true_ne_some_false {α : Type} (edited : Option α) (f : α → TextInputModel) :
    (edited.map fun a => (true, f a)) ≠ some (false, model) := by
  cases edited <;> simp

variable {model' : TextInputModel}

/-- A backspace without effect changes nothing. -/
lemma eq_of_backspace_eq_false (h : model.backspace = some (false, model')) : model' = model := by
  rw [backspace] at h
  split at h
  · exact absurd h (map_true_ne_some_false _ _)
  · split at h
    · exact absurd h (map_true_ne_some_false _ _)
    · cases h
      rfl

/-- A deletion without effect changes nothing. -/
lemma eq_of_delete_eq_false (h : model.delete = some (false, model')) : model' = model := by
  rw [delete] at h
  split at h
  · exact absurd h (map_true_ne_some_false _ _)
  · split at h
    · exact absurd h (map_true_ne_some_false _ _)
    · cases h
      rfl

/-- An operation that returns false does nothing. -/
theorem eq_of_perform_eq_false {operation : Operation}
    (h : model.perform operation = some (some false, model')) : model' = model := by
  cases operation with
  | setEditingState =>
    simp only [perform, setEditingState] at h
    grind
  | addCharacter c =>
    obtain ⟨_, _, h⟩ := map_eq_some_iff.mp h
    cases h
  | backspace =>
    obtain ⟨⟨result, model''⟩, hbackspace, ⟨⟩⟩ := map_eq_some_iff.mp h
    exact eq_of_backspace_eq_false hbackspace
  | delete =>
    obtain ⟨⟨result, model''⟩, hdelete, ⟨⟩⟩ := map_eq_some_iff.mp h
    exact eq_of_delete_eq_false hdelete
  | moveCursorToBeginning | moveCursorToEnd => cases h
  | moveCursorForward =>
    simp only [perform, moveCursorForward] at h
    grind
  | moveCursorBack =>
    simp only [perform, moveCursorBack] at h
    grind

/-! ## Sequences of operations -/

/-- A sequence of operations can be performed from the start. -/
abbrev Performed (operations : List Operation) (model : TextInputModel) : Prop :=
  Run step unguarded init operations model

/-- After each operation the selection lies inside the text, and each operation that returns false
has changed nothing. -/
structure SelectionKept (operations : List Operation) : Prop where
  valid : ∀ front, front <+: operations → ∃ model, Performed front model ∧ model.Valid
  unchanged : ∀ front operation, front ++ [operation] <+: operations → ∀ model model',
    Performed front model → model.perform operation = some (some false, model') → model' = model

/-- Operations that do not overrun succeed. -/
lemma exists_performed {operations : List Operation}
    (h : ∀ operation ∈ operations, ¬operation.Overruns) :
    ∃ model, Performed operations model ∧ model.Valid := by
  induction operations using List.reverseRecOn with
  | nil => exact ⟨init, .nil, valid_init⟩
  | append_singleton operations operation ih =>
    obtain ⟨model, hrun, hvalid⟩ := ih fun other hother => h other (mem_append_left _ hother)
    obtain ⟨model', hstep, hvalid'⟩ :=
      hvalid.step (h operation (mem_append_right _ (mem_singleton_self _)))
    exact ⟨model', hrun.snoc trivial hstep, hvalid'⟩

/-- An operation that overruns leaves a selection that ends behind the text. -/
theorem not_valid_of_overruns {operation : Operation} (hoverruns : operation.Overruns)
    (hstep : model.step operation = some model') : ¬model'.Valid := by
  cases operation with
  | setEditingState selectionBase selectionExtent text =>
    obtain ⟨hle, hsize, hlength⟩ := hoverruns
    have hset : model.setEditingState selectionBase selectionExtent text =
        (true, ⟨fromBytes text, selectionBase, selectionExtent⟩) := by
      rw [setEditingState, if_neg (by omega), if_neg (by omega)]
    rw [step, perform, hset] at hstep
    cases hstep
    intro hvalid
    have hextent : (selectionExtent : ℤ) ≤ (fromBytes text).length := hvalid.extent_le_length
    rw [length_fromBytes] at hextent
    omega
  | _ => exact hoverruns.elim

/-- The selection stays inside the text exactly if `SetEditingState` is not given a selection that
ends behind the last code point, but not behind the number of bytes. -/
theorem selectionKept_iff (operations : List Operation) :
    SelectionKept operations ↔ ∀ operation ∈ operations, ¬operation.Overruns := by
  constructor
  · intro h operation hmem hoverruns
    obtain ⟨front, rest, rfl⟩ := append_of_mem hmem
    have hbefore : front ++ [operation] <+: front ++ operation :: rest :=
      ⟨rest, by rw [append_assoc, singleton_append]⟩
    obtain ⟨model', hrun, hvalid⟩ := h.valid _ hbefore
    obtain ⟨model, -, -, hstep⟩ := hrun.of_append_singleton
    exact not_valid_of_overruns hoverruns hstep hvalid
  · intro h
    refine ⟨fun front hfront => ?_, fun _ _ _ _ _ _ hfalse => eq_of_perform_eq_false hfalse⟩
    exact exists_performed fun operation hmem => h operation (hfront.subset hmem)

/-- One code point of two bytes. -/
theorem not_selectionKept_twoBytes :
    Performed [.setEditingState 2 2 "é"] ⟨[0xe9], 2, 2⟩ ∧
      ¬Valid ⟨[0xe9], 2, 2⟩ ∧ ¬SelectionKept [.setEditingState 2 2 "é"] := by
  have hrun : Performed [.setEditingState 2 2 "é"] ⟨[0xe9], 2, 2⟩ :=
    run_iff_exec.mpr (by decide +kernel)
  have hnot : ¬Valid ⟨[0xe9], 2, 2⟩ := fun h => absurd h.extent_le_length (by decide)
  refine ⟨hrun, hnot, fun h => ?_⟩
  obtain ⟨model, hrun', hvalid⟩ := h.valid _ (prefix_refl _)
  exact hnot (hrun.unique hrun' ▸ hvalid)

end TextInputModel

end Flutter
