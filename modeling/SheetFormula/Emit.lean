import SheetFormula.Script
import SheetFormula.Template.Preset
import SheetFormula.Token.Stream

/-!
# Output styles

Each style reads a formula into tokens and renders them through a ready-made template set.
-/

namespace SheetFormula

/-- The formula rendered through a template set. -/
def renderFormula (convention : Convention) (style : TemplateSet) (formula : List Char) :
    Except FormulaError (List Char) := do
  style.renderPlain (← tokenize convention formula)

/-- The formula with one argument to a line. -/
def beautify (convention : Convention) (layout : Layout) (formula : List Char) :
    Except FormulaError (List Char) :=
  renderFormula convention (.beautify layout) formula

/-- The formula without optional blanks. -/
def minify (convention : Convention) (formula : List Char) : Except FormulaError (List Char) :=
  renderFormula convention .minify formula

/-- The formula with one argument to a line, as markup. -/
def toHtml (convention : Convention) (width : Nat) (formula : List Char) :
    Except FormulaError (List Char) :=
  renderFormula convention (.html width) formula

/-- The formula as an expression of a script language. -/
def toScript (convention : Convention) (_language : ScriptLanguage) (formula : List Char) :
    Except FormulaError (List Char) := do
  let tokens ← tokenize convention formula
  TemplateSet.script.render (tokens.zip (Script.renditions convention tokens))

end SheetFormula
