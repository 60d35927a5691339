import SheetFormula.Template
import SheetFormula.Text.Escape

/-!
# Template sets

An output style is a template for each case together with the texts that the layout is made of.
-/

namespace SheetFormula

/-- A complete output style.  Rendering fails on a case without a template. -/
structure TemplateSet where
  /-- The template of each case. -/
  templates : RenderCase → Option Template := fun _ => none
  /-- The text of one level of indentation. -/
  indentUnit : List Char := []
  /-- The text of a line end. -/
  newline : List Char := []
  /-- The text before the output. -/
  opening : List Char := []
  /-- The text after the output. -/
  closing : List Char := []
  /-- How token text is escaped. -/
  escape : Text.Escape := .verbatim

namespace TemplateSet

/-- The set with the template of one case replaced. -/
def set (style : TemplateSet) (case : RenderCase) (template : Template) : TemplateSet :=
  { style with
    templates := fun other => if other = case then some template else style.templates other }

/-- The set without a template for one case. -/
def remove (style : TemplateSet) (case : RenderCase) : TemplateSet :=
  { style with templates := fun other => if other = case then none else style.templates other }

/-- The template of a case. -/
def get (style : TemplateSet) (case : RenderCase) : Except FormulaError Template :=
  match style.templates case with
  | some template => .ok template
  | none => .error (.missingTemplate case)

/-- The cases without a template. -/
def missing (style : TemplateSet) : List RenderCase :=
  RenderCase.all.filter fun case => (style.templates case).isNone

end TemplateSet

end SheetFormula
