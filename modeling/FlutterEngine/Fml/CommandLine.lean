import Mathlib.Data.List.Basic

/-!
# Command lines

The command lines of `fml`: `CommandLineBuilder` sorts the arguments of a program into options and
positional arguments, `CommandLineToArgv` writes them as arguments again, and `CommandLine` looks
options up by their names. A lookup is given a view of a buffer. `HasOption` passes the start of the
view to a map whose keys are strings, which reads from there to the first zero character and not to
the end of the view.
-/

namespace Fml

/-- `std::string` -/
abbrev Str := List Char

/-- `std::string_view`, a part of a buffer -/
structure StringView where
  buffer : Str
  start : ℕ
  size : ℕ
  start_add_size_le : start + size ≤ buffer.length

namespace StringView

variable (view : StringView)

/-- The characters of the view. -/
def chars : Str := (view.buffer.drop view.start).take view.size

/-- The string that is read from `data()`. There is none if the buffer ends before it does. -/
def cString : Option Str :=
  let data := view.buffer.drop view.start
  if '\x00' ∈ data then some (data.takeWhile (· ≠ '\x00')) else none

end StringView

/-- `CommandLine::Option` -/
structure CommandLineOption where
  name : Str
  value : Str
deriving DecidableEq, Repr

/-- `CommandLine`. Without `argv0` it is empty. -/
structure CommandLine where
  hasArgv0 : Bool
  argv0 : Str
  options : List CommandLineOption
  positionalArgs : List Str
  empty_of_not_hasArgv0 : hasArgv0 = false → argv0 = [] ∧ options = [] ∧ positionalArgs = []
deriving DecidableEq, Repr

namespace CommandLine

/-- The default constructor. -/
def empty : CommandLine := ⟨false, [], [], [], fun _ => ⟨rfl, rfl, rfl⟩⟩

/-- The constructor from the parts. -/
def ofParts (argv0 : Str) (options : List CommandLineOption) (positionalArgs : List Str) :
    CommandLine :=
  ⟨true, argv0, options, positionalArgs, nofun⟩

/-- `option_index_`, which the constructor fills -/
def optionIndex (options : List CommandLineOption) : Str → Option ℕ :=
  options.zipIdx.foldl (fun index option => Function.update index option.1.name (some option.2))
    fun _ => none

variable (commandLine : CommandLine)

/-- `HasOption`, with the index that it stores if it returns true. It is `none` if the search reads
past the end of the buffer. -/
def hasOption (name : StringView) : Option (Option ℕ) :=
  name.cString.map (optionIndex commandLine.options)

/-- `GetOptionValue`, with the value that it stores if it returns true -/
def getOptionValue (name : StringView) : Option (Option Str) :=
  (commandLine.hasOption name).map fun index =>
    index.bind fun i => commandLine.options[i]?.map (·.value)

/-- `GetOptionValues` -/
def getOptionValues (name : StringView) : List Str :=
  (commandLine.options.filter fun option => option.name = name.chars).map (·.value)

end CommandLine

/-! ## Parsing -/

/-- `find`, for a character from a position on -/
def find (s : Str) (c : Char) (pos : ℕ) : Option ℕ := ((s.drop pos).findIdx? (· = c)).map (· + pos)

/-- `substr` -/
def substr (s : Str) (pos count : ℕ) : Str := (s.drop pos).take count

/-- The argument starts with `--`. -/
def startsWithDashes (arg : Str) : Bool := ['-', '-'].isPrefixOf arg

/-- `CommandLineBuilder` -/
structure CommandLineBuilder where
  hasArgv0 : Bool
  argv0 : Str
  options : List CommandLineOption
  positionalArgs : List Str
  startedPositionalArgs : Bool
deriving DecidableEq, Repr

namespace CommandLineBuilder

def init : CommandLineBuilder := ⟨false, [], [], [], false⟩

variable (builder : CommandLineBuilder)

/-- `ProcessArg`. It returns whether the argument is the first positional one. -/
def processArg (arg : Str) : Bool × CommandLineBuilder :=
  if !builder.hasArgv0 then
    (false, { builder with hasArgv0 := true, argv0 := arg })
  else if builder.startedPositionalArgs then
    (builder.positionalArgs.isEmpty,
      { builder with positionalArgs := builder.positionalArgs ++ [arg] })
  else if !startsWithDashes arg then
    (builder.positionalArgs.isEmpty,
      { builder with
        startedPositionalArgs := true
        positionalArgs := builder.positionalArgs ++ [arg] })
  else if arg.length = 2 then
    (false, { builder with startedPositionalArgs := true })
  else
    -- The name has at least one character, so that `--=foo` is an option without a value.
    match find arg '=' 3 with
    | none => (false, { builder with options := builder.options ++ [⟨arg.drop 2, []⟩] })
    | some equalsPos =>
      (false, { builder with
        options := builder.options ++ [⟨substr arg 2 (equalsPos - 2), arg.drop (equalsPos + 1)⟩] })

/-- `Build` -/
def build : CommandLine :=
  if !builder.hasArgv0 then .empty
  else .ofParts builder.argv0 builder.options builder.positionalArgs

/-- Process arguments one after the other. -/
def processArgs (args : List Str) : CommandLineBuilder :=
  args.foldl (fun builder arg => (builder.processArg arg).2) builder

end CommandLineBuilder

/-- The position of the first positional argument, as the loop of
`CommandLineFromIteratorsFindFirstPositionalArg` stores it. -/
def firstPositionalArg (builder : CommandLineBuilder) (it last : ℕ) : List Str → ℕ
  | [] => last
  | arg :: args =>
    let (first, builder) := builder.processArg arg
    firstPositionalArg builder (it + 1) (if first then it else last) args

/-- `CommandLineFromIteratorsFindFirstPositionalArg` -/
def commandLineFromIteratorsFindFirstPositionalArg (argv : List Str) : CommandLine × ℕ :=
  ((CommandLineBuilder.init.processArgs argv).build, firstPositionalArg .init 0 argv.length argv)

/-- `CommandLineFromIterators` -/
def commandLineFromIterators (argv : List Str) : CommandLine :=
  (commandLineFromIteratorsFindFirstPositionalArg argv).1

/-! ## Printing -/

/-- An option as an argument. -/
def CommandLineOption.toArg (option : CommandLineOption) : Str :=
  if option.value.isEmpty then ['-', '-'] ++ option.name
  else ['-', '-'] ++ option.name ++ ['='] ++ option.value

/-- The positional arguments, after `--` if the first of them could be an option. -/
def positionalArgv : List Str → List Str
  | [] => []
  | arg :: args => (if startsWithDashes arg then [['-', '-']] else []) ++ arg :: args

/-- `CommandLineToArgv` -/
def commandLineToArgv (commandLine : CommandLine) : List Str :=
  if !commandLine.hasArgv0 then []
  else
    [commandLine.argv0] ++ commandLine.options.map CommandLineOption.toArg ++
      positionalArgv commandLine.positionalArgs

end Fml
