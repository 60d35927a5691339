import SheetFormula.Emit
import SheetFormula.Mapping
import SheetFormula.RowReference

/-!
# Binding field references

A formula with references to fields of the current row becomes a `LET` that binds an identifier to
the location of each field and uses the identifiers in place of the references.
-/

namespace SheetFormula

/-- Why the references of a formula cannot be bound and laid out. -/
inductive LetError where
  /-- A reference, as it is written, to a field that the table does not have. -/
  | unmapped (written : List Char)
  /-- The bound formula cannot be laid out. -/
  | formula (error : FormulaError)
  deriving DecidableEq

/-- The wording of the error. -/
def LetError.message : LetError → List Char
  | unmapped written => "No mapping for field reference '".toList ++ written ++ "'".toList
  | formula error => error.message

namespace LetBinding

/-- The text whose references are bound: the formula without the blanks around it and without one
leading equals sign. -/
def body (formula : List Char) : List Char :=
  match Text.trim formula with
  | '=' :: rest => rest
  | text => text

/-- The references of a formula, in reading order. -/
def references (formula : List Char) : List RowReference :=
  (Piece.ofFormula (body formula)).filterMap Piece.reference?

/-- The first reference to a field that the table does not have. -/
def unmapped? (table : List Mapping) (formula : List Char) : Option RowReference :=
  (references formula).find? fun reference => (Mapping.find? table reference.field).isNone

/-- The mappings that the references of a formula use, each once, by first use. -/
def used (table : List Mapping) (formula : List Char) : List Mapping :=
  ((references formula).filterMap fun reference => Mapping.find? table reference.field).eraseDups

/-- A piece of a formula with its reference, if it is one, replaced by the identifier. -/
def substitute (table : List Mapping) (piece : Piece) : List Char :=
  match piece.reference?.bind fun reference => Mapping.find? table reference.field with
  | some mapping => mapping.identifier
  | none => piece.written

/-- A stretch outside of quotes with its references replaced by identifiers. -/
def substituteStretch (table : List Mapping) (stretch : List Char) : List Char :=
  (Piece.ofStretch stretch).flatMap (substitute table)

/-- The formula with its references replaced by identifiers. -/
def substituted (table : List Mapping) (formula : List Char) : List Char :=
  Segment.mapOutside (substituteStretch table) (body formula)

/-- The text between the arguments of the `LET`. -/
def separator (convention : Convention) : List Char :=
  [convention.separator, ' ']

/-- The identifier of a mapping and its location, as two arguments. -/
def binding (convention : Convention) (mapping : Mapping) : List Char :=
  mapping.identifier ++ separator convention ++ mapping.location ++ separator convention

/-- Bind the references of a formula.  A formula without references comes back as it is. -/
def bind (convention : Convention) (table : List Mapping) (formula : List Char) :
    Except LetError (List Char) :=
  match unmapped? table formula with
  | some reference => .error (.unmapped reference.written)
  | none =>
      match used table formula with
      | [] => .ok formula
      | mappings =>
          .ok ("=LET(".toList ++ mappings.flatMap (binding convention) ++
            Text.trim (substituted table formula) ++ ")".toList)

/-- Bind the references of a formula and lay out the result over lines. -/
def bindBeautified (convention : Convention) (table : List Mapping) (layout : Layout)
    (formula : List Char) : Except LetError (List Char) := do
  let bound ← bind convention table formula
  (beautify convention layout bound).mapError .formula

/-- Bind the references of a formula and drop the optional blanks of the result. -/
def bindMinified (convention : Convention) (table : List Mapping) (formula : List Char) :
    Except LetError (List Char) := do
  let bound ← bind convention table formula
  (minify convention bound).mapError .formula

end LetBinding

end SheetFormula
