import SheetFormula.Template.Case
import SheetFormula.Text.Quoted
import SheetFormula.Text.Search

/-!
# Formula errors

The causes for which a formula cannot be formatted, and the wording of each.
-/

namespace SheetFormula

/-- Why a formula cannot be formatted. -/
inductive FormulaError where
  /-- A closing character at a byte position matches no open scope. -/
  | unbalanced (position : Nat) (found : Char)
  /-- The template set has no template for a case that occurs. -/
  | missingTemplate (case : RenderCase)
  /-- A template source breaks the rules for placeholders. -/
  | invalidTemplate (source : List Char) (fault : TemplateFault)
  deriving DecidableEq

/-- The wording of an error. -/
def FormulaError.message : FormulaError → List Char
  | unbalanced position found =>
      "Unbalanced structure: '".toList ++ [found] ++ "' at position ".toList ++
        Text.decimal position ++ " has no open scope".toList
  | missingTemplate case => "Template set has no template for ".toList ++ case.name.toList
  | invalidTemplate source fault =>
      "Invalid template ".toList ++ Text.quoted source ++ ": ".toList ++ fault.message

end SheetFormula
