import SheetFormula.Convention
import SheetFormula.Text.Search
import SheetFormula.Token

/-!
# Sorts of operand

An operand that is neither a text nor an error code is a number, a truth value or, failing both, a
range.  Numbers are decimal, with an optional fraction and an optional exponent.
-/

namespace SheetFormula.Operand

/-- One or more decimal digits. -/
def isDigits (text : List Char) : Bool :=
  !text.isEmpty && text.all Char.isDigit

/-- The letter between a number and its exponent. -/
def isExponentMark (c : Char) : Bool :=
  c == 'e' || c == 'E'

/-- The text without one leading sign. -/
def dropSign : List Char → List Char
  | '+' :: rest => rest
  | '-' :: rest => rest
  | text => text

/-- Nothing, or an exponent with an optional sign. -/
def isOptionalExponent : List Char → Bool
  | [] => true
  | mark :: rest => isExponentMark mark && isDigits (dropSign rest)

/-- A decimal number: digits with an optional fraction, or a point and digits, followed by an
optional exponent. -/
def isNumber (text : List Char) : Bool :=
  let whole := text.takeWhile Char.isDigit
  match text.dropWhile Char.isDigit with
  | '.' :: rest =>
      let fraction := rest.takeWhile Char.isDigit
      (!whole.isEmpty || !fraction.isEmpty) && isOptionalExponent (rest.dropWhile Char.isDigit)
  | rest => !whole.isEmpty && isOptionalExponent rest

/-- A single exponent mark and nothing else. -/
def isLoneExponentMark : List Char → Bool
  | [mark] => isExponentMark mark
  | _ => false

/-- A number in scientific notation up to and including its exponent mark: one digit that is not
zero, an optional fraction, and the mark.  A sign that follows belongs to the exponent. -/
def awaitsExponent : List Char → Bool
  | [] => false
  | first :: rest =>
      first.isDigit && first != '0' &&
        (isLoneExponentMark rest ||
          match rest with
          | [] => false
          | point :: rest =>
              (point == '.' || point == ',') && !(rest.takeWhile Char.isDigit).isEmpty &&
                isLoneExponentMark (rest.dropWhile Char.isDigit))

/-- The text of a number as the convention writes it, with a decimal point. -/
def withPoint (convention : Convention) (text : List Char) : List Char :=
  match convention with
  | .us => text
  | .eu => Text.replaceChar ',' '.' text

/-- A truth value, in any case of letters. -/
def isTruthValue (text : List Char) : Bool :=
  Text.equalFold text "TRUE".toList || Text.equalFold text "FALSE".toList

/-- The sort of an operand that is neither a text nor an error code. -/
def classify (convention : Convention) (text : List Char) : TokenRole :=
  if isNumber (withPoint convention text) then .number
  else if isTruthValue text then .logical
  else .range

end SheetFormula.Operand
