import SheetFormula.LetBinding
import SheetFormula.Mapping.File
import SheetFormula.Settings

/-!
# The command line

Arguments are read into an invocation.  An invocation names the files it needs, and its outcome is a
function of what is found in them and of the standard input.
-/

namespace SheetFormula

/-- What the arguments ask for, apart from the formula's text itself. -/
structure Invocation where
  formula : Option (List Char) := none
  mode : Option (List Char) := none
  indent : Option Nat := none
  tabs : Bool := false
  commaFirst : Bool := false
  eu : Bool := false
  file : Option (List Char) := none
  mapping : Option (List Char) := none
  config : Option (List Char) := none
  verbose : Bool := false
  deriving DecidableEq, Repr

/-- What a command line asks for. -/
inductive Command where
  | help
  | version
  | format (invocation : Invocation)
  deriving DecidableEq, Repr

/-- An option with a value. -/
inductive ValueOption where
  | mode
  | indent
  | file
  | mapping
  | config
  deriving DecidableEq, Repr

/-- An option without a value. -/
inductive FlagOption where
  | tabs
  | commaFirst
  | eu
  | verbose
  | help
  | version
  deriving DecidableEq, Repr

/-- An option of either sort. -/
inductive CommandOption where
  | value (option : ValueOption)
  | flag (option : FlagOption)
  deriving DecidableEq, Repr

namespace CommandLine

/-- The options by their long names. -/
def longOptions : List (List Char × CommandOption) :=
  [("mode".toList, .value .mode), ("indent".toList, .value .indent), ("file".toList, .value .file),
    ("mapping".toList, .value .mapping), ("config".toList, .value .config),
    ("tabs".toList, .flag .tabs), ("comma-first".toList, .flag .commaFirst),
    ("eu".toList, .flag .eu), ("verbose".toList, .flag .verbose), ("help".toList, .flag .help),
    ("version".toList, .flag .version)]

/-- The options by their letters. -/
def shortOptions : List (Char × CommandOption) :=
  [('m', .value .mode), ('i', .value .indent), ('f', .value .file), ('v', .flag .verbose),
    ('h', .flag .help), ('V', .flag .version)]

/-- The number that a text of digits spells, with an optional plus sign and below the limit of
counts. -/
def width? (text : List Char) : Option Nat :=
  let digits := match text with
    | '+' :: rest => rest
    | text => text
  if Operand.isDigits digits ∧ Text.decimalValue digits < countLimit then
    some (Text.decimalValue digits)
  else none

/-- A path, which must not be empty. -/
def path? (text : List Char) : Option (List Char) :=
  if text.isEmpty then none else some text

/-- Fill an option that has not been given before. -/
def once {α : Type} (present : Option α) (given : Option α) : Option α :=
  if present.isSome then none else given

/-- The invocation with the value of an option, unless it was given before or has no such value. -/
def setValue (invocation : Invocation) (text : List Char) : ValueOption → Option Invocation
  | .mode => (once invocation.mode (some text)).map fun mode =>
      { invocation with mode := some mode }
  | .indent => (once invocation.indent (width? text)).map fun width =>
      { invocation with indent := some width }
  | .file => (once invocation.file (path? text)).map fun path =>
      { invocation with file := some path }
  | .mapping => (once invocation.mapping (path? text)).map fun path =>
      { invocation with mapping := some path }
  | .config => (once invocation.config (path? text)).map fun path =>
      { invocation with config := some path }

/-- The invocation with the formula, unless there is one already. -/
def setFormula (invocation : Invocation) (text : List Char) : Option Invocation :=
  (once invocation.formula (some text)).map fun formula =>
    { invocation with formula := some formula }

/-- What comes of an option without a value: a command at once, or an invocation with the flag. -/
inductive FlagResult where
  | done (command : Command)
  | more (invocation : Invocation)

/-- Set a flag, unless it was set before. -/
def setFlag (invocation : Invocation) : FlagOption → Option FlagResult
  | .help => some (.done .help)
  | .version => some (.done .version)
  | .tabs => if invocation.tabs then none else some (.more { invocation with tabs := true })
  | .commaFirst =>
      if invocation.commaFirst then none else some (.more { invocation with commaFirst := true })
  | .eu => if invocation.eu then none else some (.more { invocation with eu := true })
  | .verbose =>
      if invocation.verbose then none else some (.more { invocation with verbose := true })

/-- What comes of a group of letters behind one hyphen. -/
inductive ShortResult where
  | done (command : Command)
  | more (invocation : Invocation)
  /-- The value of the option is the next argument. -/
  | awaiting (invocation : Invocation) (option : ValueOption)

/-- The value of an option behind its letter, without an equals sign in front of it. -/
def attachedValue : List Char → List Char
  | '=' :: rest => rest
  | text => text

/-- Read a group of letters: flags, and at most one option with a value, which takes the rest of the
group or the next argument. -/
def readShort (invocation : Invocation) : List Char → Option ShortResult
  | [] => some (.more invocation)
  | letter :: rest =>
      match shortOptions.lookup letter with
      | none => none
      | some (.flag flag) =>
          match setFlag invocation flag with
          | none => none
          | some (.done command) => some (.done command)
          | some (.more invocation) => readShort invocation rest
      | some (.value option) =>
          if rest.isEmpty then some (.awaiting invocation option)
          else (setValue invocation (attachedValue rest) option).map .more

/-- Read an option behind two hyphens, with or without a value behind an equals sign. -/
def readLong (invocation : Invocation) (text : List Char) : Option ShortResult :=
  let (name, value) := match Text.splitOnce? ['='] text with
    | some (name, value) => (name, some value)
    | none => (text, none)
  match longOptions.lookup name, value with
  | none, _ => none
  | some (.flag flag), none =>
      match setFlag invocation flag with
      | none => none
      | some (.done command) => some (.done command)
      | some (.more invocation) => some (.more invocation)
  | some (.flag _), some _ => none
  | some (.value option), none => some (.awaiting invocation option)
  | some (.value option), some value => (setValue invocation value option).map .more

/-- The argument is read as an option. -/
def isOption : List Char → Bool
  | '-' :: _ :: _ => true
  | _ => false

/-- Read the arguments behind two lone hyphens, which are all formulas. -/
def readFormulas : Invocation → List (List Char) → Option Invocation
  | invocation, [] => some invocation
  | invocation, argument :: rest =>
      (setFormula invocation argument).bind fun invocation => readFormulas invocation rest

/-- The formula and a file to read it from exclude each other. -/
def checked (invocation : Invocation) : Option Command :=
  if invocation.formula.isSome && invocation.file.isSome then none else some (.format invocation)

/-- Read the arguments, of which the first is the value of `awaited` if an option awaits one. -/
def readArguments (awaited : Option ValueOption) (invocation : Invocation) :
    List (List Char) → Option Command
  | [] => if awaited.isSome then none else checked invocation
  | argument :: rest =>
      if isOption argument then
        if awaited.isSome then none
        else if argument = "--".toList then (readFormulas invocation rest).bind checked
        else
          let result := match argument with
            | '-' :: '-' :: text => readLong invocation text
            | _ => readShort invocation argument.tail
          match result with
          | none => none
          | some (.done command) => some command
          | some (.more invocation) => readArguments none invocation rest
          | some (.awaiting invocation option) => readArguments (some option) invocation rest
      else
        match awaited with
        | some option =>
            (setValue invocation argument option).bind fun invocation =>
              readArguments none invocation rest
        | none =>
            (setFormula invocation argument).bind fun invocation =>
              readArguments none invocation rest

/-- The command that arguments ask for, unless they are not used as they should be.  An option takes
one value and is given once, and one formula is given at most. -/
def parse? (arguments : List (List Char)) : Option Command :=
  readArguments none {} arguments

end CommandLine

/-- Why an invocation fails. -/
inductive RunError where
  | unknownMode (error : UnknownMode)
  | unreadableFormula (path : List Char) (fault : FileFault)
  | unreadableInput
  | mapping (path : List Char) (error : MappingFileError)
  | formula (error : LetError)
  deriving DecidableEq

/-- The wording of the error, with its causes. -/
def RunError.message : RunError → List Char
  | unknownMode error => error.message
  | unreadableFormula path fault =>
      "Failed to read ".toList ++ path ++ ": ".toList ++ fault.message
  | unreadableInput =>
      "Failed to read formula from stdin: ".toList ++ FileFault.notUtf8.message
  | mapping path error =>
      "Failed to load mapping ".toList ++ path ++ ": ".toList ++ error.message ++
        (match error with
          | .unreadable fault => ": ".toList ++ fault.message
          | .table _ => [])
  | formula error => error.message

/-- What an invocation is run on: the settings file of the user, the files, and the standard input,
if it is text. -/
structure Surroundings where
  userSettings : Option (List Char)
  files : List Char → FileEntry
  input : Option (List Char)

/-- What a run leaves: the exit code, the output, and the lines of the error output. -/
structure Outcome where
  code : Nat
  output : List Char := []
  errors : List (List Char) := []
  deriving DecidableEq, Repr

namespace Invocation

/-- The path of the settings file. -/
def settingsPath (invocation : Invocation) (userSettings : Option (List Char)) :
    Option (List Char) :=
  invocation.config.or userSettings

/-- The path stands for the standard input: a lone hyphen, whatever slashes and points follow it. -/
def isInputMark (path : List Char) : Bool :=
  match path.splitOn '/' with
  | [] => false
  | first :: rest => first == ['-'] && rest.all fun part => part.isEmpty || part == ['.']

/-- The formula is read from the standard input. -/
def readsInput (invocation : Invocation) : Bool :=
  invocation.formula.isNone && invocation.file.all isInputMark

/-- The paths of all files that the invocation may read. -/
def paths (invocation : Invocation) (userSettings : Option (List Char)) : List (List Char) :=
  (invocation.settingsPath userSettings).toList ++ invocation.file.toList ++
    invocation.mapping.toList

/-- The options and warnings of the settings file. -/
def settings (invocation : Invocation) (surroundings : Surroundings) :
    FormatOptions × List SettingsWarning :=
  match invocation.settingsPath surroundings.userSettings with
  | none => ({}, [])
  | some path => Settings.load path invocation.config.isSome (surroundings.files path)

/-- The indentation that the arguments ask for, or else the given one. -/
def indentOr (invocation : Invocation) (default : Indent) : Indent :=
  if invocation.tabs then .tabs
  else
    match invocation.indent with
    | some width => .spaces width
    | none => default

/-- The options with what the arguments ask for. -/
def apply (invocation : Invocation) (options : FormatOptions) :
    Except UnknownMode FormatOptions := do
  let mode ← match invocation.mode with
    | some text => Mode.parse text
    | none => pure options.mode
  return { options with
    mode := mode
    layout := {
      indent := invocation.indentOr options.layout.indent
      commaFirst := options.layout.commaFirst || invocation.commaFirst }
    convention := if invocation.eu then .eu else options.convention }

/-- The formula: the argument as it is, or the text of a file or the standard input without the
blanks at its end. -/
def formulaText (invocation : Invocation) (surroundings : Surroundings) :
    Except RunError (List Char) :=
  match invocation.formula with
  | some formula => .ok formula
  | none =>
      if invocation.readsInput then
        match surroundings.input with
        | some text => .ok (Text.trimEnd text)
        | none => .error .unreadableInput
      else
        let path := invocation.file.getD []
        match (surroundings.files path).read with
        | .ok text => .ok (Text.trimEnd text)
        | .error fault => .error (.unreadableFormula path fault)

/-- The formula with its references bound, if there is a mapping file. -/
def bound (invocation : Invocation) (surroundings : Surroundings) (options : FormatOptions)
    (formula : List Char) : Except RunError (List Char) :=
  match invocation.mapping with
  | none => .ok formula
  | some path => do
      let table ← (Mapping.ofFile path (surroundings.files path)).mapError (.mapping path)
      (LetBinding.bind options.convention table formula).mapError .formula

/-- The formatted formula. -/
def formatted (invocation : Invocation) (surroundings : Surroundings) (options : FormatOptions) :
    Except RunError (List Char) := do
  let options ← (invocation.apply options).mapError .unknownMode
  let formula ← invocation.formulaText surroundings
  let formula ← invocation.bound surroundings options formula
  (format options formula).mapError fun error => .formula (.formula error)

/-- The outcome of the invocation: warnings first, then the formatted formula or the error. -/
def run (invocation : Invocation) (surroundings : Surroundings) : Outcome :=
  let (options, warnings) := invocation.settings surroundings
  let warningLines := warnings.map fun warning => "Warning: ".toList ++ warning.message
  match invocation.formatted surroundings options with
  | .ok text => { code := 0, output := text ++ ['\n'], errors := warningLines }
  | .error error =>
      { code := 1, errors := warningLines ++ ["Error: ".toList ++ error.message] }

end Invocation

namespace CommandLine

/-- The text that the version option prints. -/
def versionText : List Char :=
  "cellfmt 0.1.0\n".toList

/-- The lines that say how the command is used. -/
def helpLines : List String :=
  ["Beautify, minify and translate spreadsheet formulas", "",
    "Usage: cellfmt [OPTIONS] [FORMULA]", "",
    "  FORMULA              Formula text; read from --file or stdin when absent",
    "  -m, --mode MODE      beautify, minify, html, javascript, typescript or tokens",
    "  -i, --indent WIDTH   Indent width in spaces",
    "      --tabs           Indent with tabs",
    "      --comma-first    Separators lead each continuation line",
    "      --eu             Semicolon list separator and decimal comma",
    "  -f, --file FILE      Read the formula from a file (\"-\" for stdin)",
    "      --mapping FILE   CSV or JSON field mapping for @row references",
    "      --config FILE    Settings file",
    "  -v, --verbose        Debug logging",
    "  -h, --help           Print help",
    "  -V, --version        Print version"]

/-- The text that the help option prints. -/
def helpText : List Char :=
  helpLines.flatMap fun line => line.toList ++ ['\n']

/-- The outcome of arguments that are not used as they should be. -/
def usageOutcome : Outcome :=
  { code := 2, errors := ["error: unexpected arguments; try '--help'".toList] }

/-- The outcome of a command. -/
def run (surroundings : Surroundings) : Option Command → Outcome
  | none => usageOutcome
  | some .help => { code := 0, output := helpText }
  | some .version => { code := 0, output := versionText }
  | some (.format invocation) => invocation.run surroundings

end CommandLine

end SheetFormula
