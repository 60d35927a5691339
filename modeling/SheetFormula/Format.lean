import SheetFormula.Emit
import SheetFormula.Token.Listing

/-!
# Output modes and formatting

The mode chooses an output style, and the options say how the style is laid out.  Options may
replace single templates of the two styles that are spread over lines.
-/

namespace SheetFormula

/-- What a formula is turned into. -/
inductive Mode where
  | beautify
  | minify
  | html
  | script (language : ScriptLanguage)
  | tokens
  deriving DecidableEq, Repr

namespace Mode

/-- Every mode. -/
def all : List Mode :=
  [beautify, minify, html, script .javaScript, script .typeScript, tokens]

/-- The name of a mode. -/
def name : Mode → String
  | beautify => "beautify"
  | minify => "minify"
  | html => "html"
  | script language => language.name
  | tokens => "tokens"

/-- The mode that a trimmed text names, by its name or by the short form of a language. -/
def ofName? (text : List Char) : Option Mode :=
  if Text.equalFold text "js".toList then some (script .javaScript)
  else if Text.equalFold text "ts".toList then some (script .typeScript)
  else all.find? fun mode => Text.equalFold mode.name.toList text

end Mode

/-- A text that names no mode, as it was given. -/
structure UnknownMode where
  text : List Char
  deriving DecidableEq, Repr

/-- The wording of the error. -/
def UnknownMode.message (error : UnknownMode) : List Char :=
  "Unknown mode '".toList ++ error.text ++ "'".toList

/-- The mode that a text names, whatever blanks surround it. -/
def Mode.parse (text : List Char) : Except UnknownMode Mode :=
  match ofName? (Text.trim text) with
  | some mode => .ok mode
  | none => .error ⟨text⟩

/-- Everything that decides how a formula is printed. -/
structure FormatOptions where
  mode : Mode := .beautify
  layout : Layout := {}
  convention : Convention := .us
  /-- The templates that replace those of the output style. -/
  templates : RenderCase → Option Template := fun _ => none

namespace FormatOptions

/-- The width of indentation in markup. -/
def markupWidth (options : FormatOptions) : Nat :=
  match options.layout.indent with
  | .spaces width => width
  | .tabs => 1

/-- The options with one more template replaced. -/
def withTemplate (options : FormatOptions) (case : RenderCase) (template : Template) :
    FormatOptions :=
  { options with
    templates := fun other => if other = case then some template else options.templates other }

/-- A template set with the templates of the options in place of its own. -/
def overriding (options : FormatOptions) (style : TemplateSet) : TemplateSet :=
  { style with templates := fun case => (options.templates case).or (style.templates case) }

/-- The replaced templates, in the order of the cases. -/
def overrides (options : FormatOptions) : List (RenderCase × Template) :=
  RenderCase.all.filterMap fun case => (options.templates case).map fun template => (case, template)

end FormatOptions

/-- The formula as the options want it. -/
def format (options : FormatOptions) (formula : List Char) : Except FormulaError (List Char) :=
  match options.mode with
  | .beautify =>
      renderFormula options.convention (options.overriding (.beautify options.layout)) formula
  | .minify => minify options.convention formula
  | .html =>
      renderFormula options.convention (options.overriding (.html options.markupWidth)) formula
  | .script language => toScript options.convention language formula
  | .tokens => (tokenize options.convention formula).map tokenListing

end SheetFormula
