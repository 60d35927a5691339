import SheetFormula.File
import SheetFormula.Format
import SheetFormula.Toml.Document

/-!
# Settings

A settings file gives defaults for the format options.  Nothing in it stops formatting: an entry
that cannot be used keeps its default and gives a warning, and so does a file that cannot be read.
-/

namespace SheetFormula

/-- The entries of a settings file. -/
structure Settings where
  mode : Option (List Char) := none
  indent : Option Nat := none
  tabs : Option Bool := none
  commaFirst : Option Bool := none
  eu : Option Bool := none
  /-- Template names and sources, in ascending order of the names. -/
  templates : List (List Char × List Char) := []
  deriving DecidableEq, Repr

/-- A problem with the settings. -/
inductive SettingsWarning where
  | notFound (path : List Char)
  | tooLarge (path : List Char) (size : Nat)
  | unreadable (path : List Char) (fault : FileFault)
  | malformed (path : List Char)
  | unknownMode (error : UnknownMode)
  | wideIndent (width : Nat)
  | unknownTemplate (name : List Char)
  | invalidTemplate (name : List Char) (error : FormulaError)
  deriving DecidableEq

namespace Settings

/-- The largest size in bytes of a settings file that is read. -/
def sizeLimit : Nat :=
  1048576

/-- The largest width of indentation that settings can ask for. -/
def widthLimit : Nat :=
  16

end Settings

/-- The wording of the warning. -/
def SettingsWarning.message : SettingsWarning → List Char
  | notFound path => "Settings file not found: ".toList ++ path
  | tooLarge path size =>
      "Refusing to read ".toList ++ path ++ ": file too large (".toList ++ Text.decimal size ++
        " bytes, max ".toList ++ Text.decimal Settings.sizeLimit ++ ")".toList
  | unreadable path fault => "Failed to read ".toList ++ path ++ ": ".toList ++ fault.message
  | malformed path => "Failed to parse ".toList ++ path
  | unknownMode error => error.message
  | wideIndent width =>
      "Indent width ".toList ++ Text.decimal width ++ " is larger than ".toList ++
        Text.decimal Settings.widthLimit ++ "; using ".toList ++ Text.decimal Settings.widthLimit
  | unknownTemplate name => "Unknown template '".toList ++ name ++ "'".toList
  | invalidTemplate name error =>
      "Template '".toList ++ name ++ "': ".toList ++ error.message

namespace Settings

/-! ### From a document -/

/-- Put an entry into a list in ascending order of the names. -/
def insertByName (entry : List Char × List Char) :
    List (List Char × List Char) → List (List Char × List Char)
  | [] => [entry]
  | other :: rest =>
      if entry.1 < other.1 then entry :: other :: rest else other :: insertByName entry rest

/-- The entries in ascending order of the names. -/
def sortByName (entries : List (List Char × List Char)) : List (List Char × List Char) :=
  entries.foldr insertByName []

/-- The text of a string. -/
def textOf : Toml.Node → Option (List Char)
  | .scalar (.string text) => some text
  | _ => none

/-- The value of an integer that is not negative. -/
def widthOf : Toml.Node → Option Nat
  | .scalar (.integer value) => if 0 ≤ value then some value.toNat else none
  | _ => none

/-- The value of a truth value. -/
def flagOf : Toml.Node → Option Bool
  | .scalar (.boolean value) => some value
  | _ => none

/-- The name of the only entry of a table that a date or a time stands for. -/
def dateTimeName : List Char :=
  "$__toml_private_datetime".toList

/-- The names and texts of a table of strings.  A date or a time stands for a table with its text as
the only entry. -/
def textsOf : Toml.Node → Option (List (List Char × List Char))
  | .scalar (.dateTime written) => some [(dateTimeName, written)]
  | .table _ entries => entries.mapM fun entry => (textOf entry.2).map fun text => (entry.1, text)
  | _ => none

/-- Take up one entry of a document.  Every key has to be known and to have a value of its kind. -/
def takeEntry (settings : Settings) (entry : List Char × Toml.Node) : Option Settings :=
  if entry.1 = "mode".toList then
    (textOf entry.2).map fun text => { settings with mode := some text }
  else if entry.1 = "indent".toList then
    (widthOf entry.2).map fun width => { settings with indent := some width }
  else if entry.1 = "tabs".toList then
    (flagOf entry.2).map fun flag => { settings with tabs := some flag }
  else if entry.1 = "comma_first".toList then
    (flagOf entry.2).map fun flag => { settings with commaFirst := some flag }
  else if entry.1 = "eu".toList then
    (flagOf entry.2).map fun flag => { settings with eu := some flag }
  else if entry.1 = "templates".toList then
    (textsOf entry.2).map fun texts => { settings with templates := sortByName texts }
  else none

/-- The settings of a document. -/
def ofTable? (table : Toml.Table) : Option Settings :=
  table.foldlM takeEntry {}

/-- The settings that a text holds. -/
def parse? (text : List Char) : Option Settings := do
  ofTable? (← Toml.parse? text)

/-! ### To options -/

/-- The mode of the settings, or the default and a warning. -/
def chosenMode (settings : Settings) : Mode × List SettingsWarning :=
  match settings.mode with
  | none => (.beautify, [])
  | some text =>
      match Mode.parse text with
      | .ok mode => (mode, [])
      | .error error => (.beautify, [.unknownMode error])

/-- The unit of indentation of the settings; tabs win over a width. -/
def chosenIndent (settings : Settings) : Indent :=
  if settings.tabs = some true then .tabs
  else
    match settings.indent with
    | none => .spaces 4
    | some width => .spaces (min width widthLimit)

/-- A warning if the settings ask for too wide an indentation. -/
def indentWarnings (settings : Settings) : List SettingsWarning :=
  match settings.indent with
  | none => []
  | some width => if widthLimit < width then [.wideIndent width] else []

/-- What a template entry sets, or the warning that it gives. -/
def readTemplate (entry : List Char × List Char) : Except SettingsWarning (RenderCase × Template) :=
  match RenderCase.ofName? (Text.trim entry.1) with
  | none => .error (.unknownTemplate entry.1)
  | some case =>
      match Template.parse entry.2 with
      | .ok template => .ok (case, template)
      | .error error => .error (.invalidTemplate entry.1 error)

/-- The warnings of the template entries. -/
def templateWarnings (settings : Settings) : List SettingsWarning :=
  settings.templates.filterMap fun entry =>
    match readTemplate entry with
    | .ok _ => none
    | .error warning => some warning

/-- The options with what a template entry sets. -/
def withEntry (options : FormatOptions) (entry : List Char × List Char) : FormatOptions :=
  match readTemplate entry with
  | .ok (case, template) => options.withTemplate case template
  | .error _ => options

/-- The options of the settings. -/
def options (settings : Settings) : FormatOptions :=
  settings.templates.foldl withEntry {
    mode := settings.chosenMode.1
    layout := { indent := settings.chosenIndent, commaFirst := settings.commaFirst.getD false }
    convention := .ofFlag (settings.eu.getD false) }

/-- The warnings of the settings: the mode first, then the indentation, then the templates. -/
def warnings (settings : Settings) : List SettingsWarning :=
  settings.chosenMode.2 ++ settings.indentWarnings ++ settings.templateWarnings

/-- The options and warnings of the file found under a path.  A file that was asked for by name
gives a warning if it is missing. -/
def load (path : List Char) (named : Bool) (entry : FileEntry) :
    FormatOptions × List SettingsWarning :=
  match entry with
  | .absent _ => ({}, if named then [.notFound path] else [])
  | entry =>
      if sizeLimit < entry.size then ({}, [.tooLarge path entry.size])
      else
        match entry.read with
        | .error fault => ({}, [.unreadable path fault])
        | .ok text =>
            match parse? text with
            | none => ({}, [.malformed path])
            | some settings => (settings.options, settings.warnings)

end Settings

end SheetFormula
