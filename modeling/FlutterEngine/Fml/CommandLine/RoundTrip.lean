import FlutterEngine.Fml.CommandLine

/-!
# Printing and parsing command lines

A command line that was parsed is parsed again from the arguments that `CommandLineToArgv` writes
(`commandLineFromIterators_toArgv`). The arguments need not be the original ones: `--name=` is
written as `--name`, and `--` is only written where it is needed. What makes it work is that the
name of a parsed option is not empty and has no `=` after its first character (`Parsed`), so that
the first `=` that the parser looks for is the one that was written.
-/

namespace Fml

open List

variable {s : Str} {c : Char}

/-- A character that is not found. -/
lemma find_of_not_mem (front : Str) (h : c ∉ s) : find (front ++ s) c front.length = none := by
  rw [find, drop_left, Option.map_eq_none_iff, findIdx?_eq_none_iff]
  intro d hd
  exact decide_eq_false fun heq => h (heq ▸ hd)

/-- The first character that is found. -/
lemma find_append (front rest : Str) (h : c ∉ s) :
    find (front ++ (s ++ c :: rest)) c front.length = some (s.length + front.length) := by
  have hs : s.findIdx? (· = c) = none := by
    rw [findIdx?_eq_none_iff]
    exact fun d hd => decide_eq_false fun heq => h (heq ▸ hd)
  rw [find, drop_left, findIdx?_append, hs, findIdx?_cons]
  simp only [decide_true, if_true, Option.none_or, Option.map_some, Nat.zero_add]

/-! ## What is parsed -/

namespace CommandLineOption

/-- The option can be the result of parsing. -/
structure Parsed (option : CommandLineOption) : Prop where
  name_ne_nil : option.name ≠ []
  not_mem_tail : '=' ∉ option.name.tail

end CommandLineOption

open CommandLineOption

/-- An argument with a name, which has at least one character. -/
theorem exists_eq_of_startsWithDashes {arg : Str} (h : startsWithDashes arg)
    (hlength : arg.length ≠ 2) : ∃ c rest, arg = ['-', '-', c] ++ rest := by
  obtain ⟨rest, rfl⟩ := isPrefixOf_iff_prefix.mp h
  cases rest with
  | nil => exact absurd rfl hlength
  | cons c rest => exact ⟨c, rest, rfl⟩

/-- What the parser makes of an argument with a name. -/
theorem find_cases (c : Char) (rest : Str) :
    ('=' ∉ rest ∧ find (['-', '-', c] ++ rest) '=' 3 = none) ∨
      ∃ name value, '=' ∉ name ∧ rest = name ++ '=' :: value ∧
        find (['-', '-', c] ++ rest) '=' 3 = some (name.length + 3) := by
  by_cases hmem : '=' ∈ rest
  · obtain ⟨name, value, rfl, hname⟩ := eq_append_cons_of_mem hmem
    exact .inr ⟨name, value, hname, rfl, find_append _ _ hname⟩
  · exact .inl ⟨hmem, find_of_not_mem _ hmem⟩

namespace CommandLineBuilder

variable {builder : CommandLineBuilder}

/-- What holds between two arguments. -/
structure Valid (builder : CommandLineBuilder) : Prop where
  parsed : ∀ option ∈ builder.options, option.Parsed
  positionalArgs_eq_nil : builder.startedPositionalArgs = false → builder.positionalArgs = []

/-- At first there are no options. -/
lemma valid_init : Valid init := ⟨nofun, fun _ => rfl⟩

/-- An option that can be parsed is added. -/
lemma Valid.push (h : builder.Valid) {option : CommandLineOption} (hoption : option.Parsed) :
    Valid { builder with options := builder.options ++ [option] } := by
  refine ⟨?_, h.positionalArgs_eq_nil⟩
  intro other hother
  rcases mem_append.mp hother with hother | hother
  · exact h.parsed other hother
  · exact mem_singleton.mp hother ▸ hoption

/-- Each argument keeps the builder valid. -/
lemma Valid.processArg (h : builder.Valid) (arg : Str) : (builder.processArg arg).2.Valid := by
  rw [CommandLineBuilder.processArg]
  split
  · exact ⟨h.parsed, h.positionalArgs_eq_nil⟩
  · split
    · next hstarted => exact ⟨h.parsed, fun hnot => Bool.noConfusion (hstarted.symm.trans hnot)⟩
    · split
      · exact ⟨h.parsed, Bool.noConfusion⟩
      · next hdashes =>
        rw [Bool.not_eq_true, Bool.not_eq_false'] at hdashes
        split
        · exact ⟨h.parsed, Bool.noConfusion⟩
        · next hlength =>
          obtain ⟨c, rest, rfl⟩ := exists_eq_of_startsWithDashes hdashes hlength
          rcases find_cases c rest with ⟨hmem, hfind⟩ | ⟨name, value, hmem, rfl, hfind⟩
          · rw [hfind]
            exact h.push ⟨cons_ne_nil _ _, hmem⟩
          · rw [hfind]
            refine h.push ⟨?_, ?_⟩
            · simp [substr]
            · simpa [substr] using hmem

/-- All arguments keep the builder valid. -/
lemma Valid.processArgs (h : builder.Valid) (args : List Str) :
    (builder.processArgs args).Valid := by
  induction args generalizing builder with
  | nil => exact h
  | cons arg args ih => exact ih (h.processArg arg)

/-! ## Parsing what was printed -/

lemma processArgs_cons (arg : Str) (args : List Str) :
    builder.processArgs (arg :: args) = (builder.processArg arg).2.processArgs args := rfl

/-- After the first positional argument all are positional. -/
theorem processArgs_of_started (hargv0 : builder.hasArgv0)
    (hstarted : builder.startedPositionalArgs) (args : List Str) :
    builder.processArgs args =
      { builder with positionalArgs := builder.positionalArgs ++ args } := by
  induction args generalizing builder with
  | nil => simp [processArgs]
  | cons arg args ih =>
    have hstep : (builder.processArg arg).2 =
        { builder with positionalArgs := builder.positionalArgs ++ [arg] } := by
      simp [processArg, hargv0, hstarted]
    rw [processArgs_cons, hstep]
    refine (ih ?_ ?_).trans ?_
    · exact hargv0
    · exact hstarted
    · simp

section Printed

variable (hargv0 : builder.hasArgv0) (hstarted : builder.startedPositionalArgs = false)
include hargv0 hstarted

/-- A printed option is parsed. -/
theorem processArg_toArg {option : CommandLineOption} (h : option.Parsed) :
    (builder.processArg option.toArg).2 =
      { builder with options := builder.options ++ [option] } := by
  obtain ⟨name, value⟩ := option
  obtain ⟨hne, hmem⟩ := h
  obtain ⟨c, rest, rfl⟩ := exists_cons_of_ne_nil hne
  cases value with
  | nil =>
    have hfind := find_of_not_mem ['-', '-', c] hmem
    simp only [tail_cons, cons_append, List.nil_append, length_cons, length_nil] at hfind
    simp [processArg, toArg, hargv0, hstarted, startsWithDashes, hfind]
  | cons v value =>
    have hfind := find_append ['-', '-', c] (v :: value) hmem
    simp only [tail_cons, cons_append, List.nil_append, length_cons, length_nil] at hfind
    simp [processArg, toArg, hargv0, hstarted, startsWithDashes, hfind, substr]

/-- Options are parsed back. -/
lemma processArgs_map_toArg {options : List CommandLineOption}
    (h : ∀ option ∈ options, option.Parsed) :
    builder.processArgs (options.map toArg) =
      { builder with options := builder.options ++ options } := by
  induction options generalizing builder with
  | nil => simp [processArgs]
  | cons option options ih =>
    obtain ⟨hoption, hoptions⟩ := forall_mem_cons.mp h
    rw [map_cons, processArgs_cons, processArg_toArg hargv0 hstarted hoption]
    refine (ih ?_ ?_ hoptions).trans ?_
    · exact hargv0
    · exact hstarted
    · simp

/-- Printed positional arguments are parsed. -/
theorem positionalArgs_processArgs (hnil : builder.positionalArgs = []) (args : List Str) :
    ∃ started, builder.processArgs (positionalArgv args) =
      { builder with positionalArgs := args, startedPositionalArgs := started } := by
  cases args with
  | nil =>
    obtain ⟨_, _, _, _, _⟩ := builder
    obtain rfl := hnil
    exact ⟨_, rfl⟩
  | cons arg args =>
    refine ⟨true, ?_⟩
    rw [positionalArgv]
    by_cases hdashes : startsWithDashes arg
    · -- The parser meets `--` first.
      have hstep : (builder.processArg ['-', '-']).2 =
          { builder with startedPositionalArgs := true } := by
        simp [processArg, hargv0, hstarted, startsWithDashes]
      rw [if_pos hdashes, singleton_append, processArgs_cons, hstep]
      refine (processArgs_of_started ?_ rfl _).trans ?_
      · exact hargv0
      · simp [hnil]
    · have hstep : (builder.processArg arg).2 =
          { builder with startedPositionalArgs := true, positionalArgs := [arg] } := by
        simp [processArg, hargv0, hstarted, hdashes, hnil]
      rw [if_neg hdashes, List.nil_append, processArgs_cons, hstep]
      refine (processArgs_of_started ?_ rfl _).trans ?_
      · exact hargv0
      · rfl

end Printed

end CommandLineBuilder

open CommandLineBuilder

/-- A command line of options that can be parsed is parsed from what is printed. -/
theorem commandLineFromIterators_ofParts {argv0 : Str} {options : List CommandLineOption}
    (h : ∀ option ∈ options, option.Parsed) (positionalArgs : List Str) :
    commandLineFromIterators (commandLineToArgv (.ofParts argv0 options positionalArgs)) =
      .ofParts argv0 options positionalArgs := by
  have hargv : commandLineToArgv (.ofParts argv0 options positionalArgs) =
      argv0 :: (options.map toArg ++ positionalArgv positionalArgs) := rfl
  have hoptions : processArgs ⟨true, argv0, [], [], false⟩ (options.map toArg) =
      ⟨true, argv0, options, [], false⟩ := processArgs_map_toArg rfl rfl h
  obtain ⟨started, hpositional⟩ : ∃ started,
      processArgs ⟨true, argv0, options, [], false⟩
        (positionalArgv positionalArgs) = ⟨true, argv0, options, positionalArgs, started⟩ :=
    positionalArgs_processArgs rfl rfl rfl positionalArgs
  have hbuilder : init.processArgs (commandLineToArgv (.ofParts argv0 options positionalArgs)) =
      ⟨true, argv0, options, positionalArgs, started⟩ := by
    -- The first argument is stored as `argv0`.
    rw [hargv, processArgs_cons, processArgs, foldl_append, ← hpositional, ← hoptions]
    rfl
  rw [commandLineFromIterators, commandLineFromIteratorsFindFirstPositionalArg, hbuilder]
  rfl

/-- Parsing what was printed for a parsed command line gives this command line. -/
theorem commandLineFromIterators_toArgv (argv : List Str) :
    commandLineFromIterators (commandLineToArgv (commandLineFromIterators argv)) =
      commandLineFromIterators argv := by
  cases hargv0 : (init.processArgs argv).hasArgv0 with
  | false =>
    have hempty : commandLineFromIterators argv = .empty := by
      rw [commandLineFromIterators, commandLineFromIteratorsFindFirstPositionalArg, build, hargv0]
      rfl
    rw [hempty]
    rfl
  | true =>
    have hparts : commandLineFromIterators argv =
        .ofParts (init.processArgs argv).argv0 (init.processArgs argv).options
          (init.processArgs argv).positionalArgs := by
      rw [commandLineFromIterators, commandLineFromIteratorsFindFirstPositionalArg, build, hargv0]
      rfl
    rw [hparts]
    exact commandLineFromIterators_ofParts (valid_init.processArgs argv).parsed _

example :
    commandLineToArgv (commandLineFromIterators
      ["prog".toList, "--a=".toList, "--b=c=d".toList, "--".toList, "--e".toList]) =
      ["prog".toList, "--a".toList, "--b=c=d".toList, "--".toList, "--e".toList] := by
  decide +kernel

end Fml
