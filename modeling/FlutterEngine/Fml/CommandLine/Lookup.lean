import FlutterEngine.Fml.CommandLine
import Mathlib.Data.List.Induction

/-!
# Looking options up

`HasOption` and `GetOptionValue` search an index of the options, `GetOptionValues` reads the options
one after the other. The index gives the last option of each name (`isLast_of_optionIndex`), so that
for one and the same name the three agree. But `HasOption` searches for the string that starts where
the view starts and ends at the next zero character, and `GetOptionValues` for the characters of the
view. `lookups_agree_iff` says when the difference does not show: the zero follows the view
immediately, or neither of the two strings is the name of an option.
-/

namespace Fml.CommandLine

open List Option Function StringView

variable {options : List CommandLineOption} {s : Str} {i : ℕ}

/-! ## The index -/

/-- The option with this index is the last one with this name. -/
def IsLast (options : List CommandLineOption) (s : Str) (i : ℕ) : Prop :=
  options[i]?.map (·.name) = some s ∧ ∀ j, i < j → options[j]?.map (·.name) ≠ some s

lemma IsLast.lt_length (h : IsLast options s i) : i < options.length := by
  obtain ⟨option, hoption, -⟩ := map_eq_some_iff.mp h.1
  exact (List.getElem?_eq_some_iff.mp hoption).1

lemma optionIndex_append (options : List CommandLineOption) (option : CommandLineOption) :
    optionIndex (options ++ [option]) =
      update (optionIndex options) option.name (some options.length) := by
  simp [optionIndex, zipIdx_append, foldl_append]

lemma optionIndex_eq_none_iff :
    optionIndex options s = none ↔ ∀ option ∈ options, option.name ≠ s := by
  induction options using List.reverseRecOn with
  | nil => simp [optionIndex]
  | append_singleton options option ih =>
    rw [optionIndex_append]
    by_cases h : s = option.name
    · simp [h]
    · have h' : option.name ≠ s := fun heq => h heq.symm
      simp [update_of_ne h, ih, h', or_imp, forall_and]

lemma isLast_of_optionIndex (h : optionIndex options s = some i) : IsLast options s i := by
  induction options using List.reverseRecOn with
  | nil => cases h
  | append_singleton options option ih =>
    rw [optionIndex_append] at h
    by_cases hs : s = option.name
    · rw [hs, update_self, some.injEq] at h
      obtain rfl := h
      refine ⟨by simp [hs], fun j hj => ?_⟩
      rw [getElem?_eq_none (by simpa [Nat.succ_le_iff] using hj)]
      exact nofun
    · rw [update_of_ne hs] at h
      obtain ⟨hi, hlast⟩ := ih h
      have hlt := (ih h).lt_length
      refine ⟨by rwa [getElem?_append_left hlt], fun j hj => ?_⟩
      rcases Nat.lt_trichotomy j options.length with hj' | rfl | hj'
      · rw [getElem?_append_left hj']
        exact hlast j hj
      · simpa using fun heq => hs heq.symm
      · rw [getElem?_eq_none (by simpa [Nat.succ_le_iff] using hj')]
        exact nofun

/-- The index leads to the last of the values. -/
theorem value_optionIndex (options : List CommandLineOption) (s : Str) :
    ((optionIndex options s).bind fun i => options[i]?.map (·.value)) =
      ((options.filter fun option => option.name = s).map (·.value)).getLast? := by
  induction options using List.reverseRecOn with
  | nil => rfl
  | append_singleton options option ih =>
    rw [optionIndex_append]
    by_cases hs : s = option.name
    · simp [hs, filter_append]
    · have hs' : option.name ≠ s := fun heq => hs heq.symm
      rw [update_of_ne hs, filter_append, filter_singleton,
        decide_eq_false hs', cond_false, List.append_nil, ← ih]
      cases hindex : optionIndex options s with
      | none => simp
      | some i => simp [getElem?_append_left (isLast_of_optionIndex hindex).lt_length]

/-! ## The lookups -/

variable {commandLine : CommandLine} {name : StringView}

lemma getOptionValues_eq_nil_iff : commandLine.getOptionValues name = [] ↔
      ∀ option ∈ commandLine.options, option.name ≠ name.chars := by
  simp [getOptionValues, filter_eq_nil_iff]

/-- `HasOption` is true if there are values, and then gives the index of the last option.
`GetOptionValue` gives the last value. Neither reads past the end of the buffer. -/
structure LookupsAgree (commandLine : CommandLine) (name : StringView) : Prop where
  hasOption : ∃ index, commandLine.hasOption name = some index ∧
    (index.isSome ↔ commandLine.getOptionValues name ≠ []) ∧
    ∀ i, index = some i → IsLast commandLine.options name.chars i
  getOptionValue :
    commandLine.getOptionValue name = some (commandLine.getOptionValues name).getLast?

/-- The lookups agree if the searched string is the view. -/
theorem lookupsAgree_of_cString_eq (h : name.cString = some name.chars) :
    LookupsAgree commandLine name := by
  have hhas : commandLine.hasOption name = some (optionIndex commandLine.options name.chars) := by
    rw [hasOption, h]
    rfl
  refine ⟨⟨_, hhas, ?_, fun i => isLast_of_optionIndex⟩, ?_⟩
  · rw [isSome_iff_ne_none, ne_eq, ne_eq, optionIndex_eq_none_iff, getOptionValues_eq_nil_iff]
  · rw [CommandLine.getOptionValue, hhas, getOptionValues, ← value_optionIndex]
    rfl

/-- They also agree if neither string is found. -/
theorem lookupsAgree_of_not_found (hs : name.cString = some s)
    (hnot : ∀ option ∈ commandLine.options, option.name ≠ s)
    (hnot' : ∀ option ∈ commandLine.options, option.name ≠ name.chars) :
    LookupsAgree commandLine name := by
  have hhas : commandLine.hasOption name = some none := by
    rw [hasOption, hs, map_some, optionIndex_eq_none_iff.mpr hnot]
  have hvalues := getOptionValues_eq_nil_iff.mpr hnot'
  refine ⟨⟨none, hhas, by simp [hvalues], nofun⟩, ?_⟩
  rw [getOptionValue, hhas, hvalues]
  rfl

lemma LookupsAgree.not_found (h : LookupsAgree commandLine name) (hs : name.cString = some s)
    (hne : s ≠ name.chars) : optionIndex commandLine.options s = none := by
  obtain ⟨index, hhas, -, hlast⟩ := h.hasOption
  rw [CommandLine.hasOption, hs, map_some, some.injEq] at hhas
  cases hindex : optionIndex commandLine.options s with
  | none => rfl
  | some i =>
    -- One option cannot have both names.
    have hname := (hlast i (hhas.symm.trans hindex)).1
    rw [(isLast_of_optionIndex hindex).1] at hname
    exact absurd (some.inj hname) hne

/-- The lookups agree exactly if the string from the start of the view to the next zero is the view,
or if neither of the two is the name of an option. -/
theorem lookups_agree_iff (commandLine : CommandLine) (name : StringView) :
    LookupsAgree commandLine name ↔
      name.cString = some name.chars ∨
        ∃ s, name.cString = some s ∧ (∀ option ∈ commandLine.options, option.name ≠ s) ∧
          ∀ option ∈ commandLine.options, option.name ≠ name.chars := by
  constructor
  · intro h
    obtain ⟨index, hhas, hvalues, -⟩ := h.hasOption
    cases hs : name.cString with
    | none =>
      rw [hasOption, hs] at hhas
      cases hhas
    | some s =>
      by_cases hne : s = name.chars
      · exact .inl (hne ▸ rfl)
      · have hindex := h.not_found hs hne
        rw [hasOption, hs, map_some, hindex, some.injEq] at hhas
        refine .inr ⟨s, rfl, optionIndex_eq_none_iff.mp hindex, ?_⟩
        rw [← getOptionValues_eq_nil_iff]
        simpa [← hhas] using hvalues
  · rintro (h | ⟨s, hs, hnot, hnot'⟩)
    · exact lookupsAgree_of_cString_eq h
    · exact lookupsAgree_of_not_found hs hnot hnot'

/-- A view of `verbose` that ends after `verb`. -/
theorem not_lookupsAgree_verb :
    ∃ commandLine name, commandLine = ofParts ['p'] [⟨"verbose".toList, ['1']⟩] [] ∧
      name = StringView.mk ("verbose".toList ++ ['\x00']) 0 4 (by decide) ∧
      name.chars = "verb".toList ∧ commandLine.hasOption name = some (some 0) ∧
      commandLine.getOptionValue name = some (some ['1']) ∧
      commandLine.getOptionValues name = [] ∧ ¬LookupsAgree commandLine name := by
  refine ⟨_, _, rfl, rfl, by decide +kernel, by decide +kernel, by decide +kernel,
    by decide +kernel, fun h => ?_⟩
  obtain ⟨index, hhas, hvalues, -⟩ := h.hasOption
  have hindex : index = some 0 := some.inj (hhas.symm.trans (by decide +kernel))
  exact hvalues.mp (by simp [hindex]) (by decide +kernel)

end Fml.CommandLine
