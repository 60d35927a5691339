/-!
# Regional conventions

A formula separates arguments by commas and writes a decimal point, or it separates arguments by
semicolons and writes a decimal comma.
-/

namespace SheetFormula

/-- The regional convention a formula is written in. -/
inductive Convention where
  | us
  | eu
  deriving DecidableEq, Repr

namespace Convention

/-- The character between the arguments of a call. -/
def separator : Convention → Char
  | us => ','
  | eu => ';'

/-- The convention with semicolons between arguments, if the flag is set. -/
def ofFlag (semicolons : Bool) : Convention :=
  if semicolons then eu else us

/-- The convention has semicolons between arguments. -/
def flag : Convention → Bool
  | us => false
  | eu => true

end Convention

end SheetFormula
