import SheetFormula.Text.Blank
import SheetFormula.Text.LowerCase
import SheetFormula.Text.Search

/-!
# Field mappings

A mapping table says where the fields of a row are found, and under which name a formula binds them.
-/

namespace SheetFormula

/-- Where a field is found and how it is named. -/
structure Mapping where
  field : List Char
  location : List Char
  /-- A name for people, from which an identifier can be made. -/
  name : Option (List Char) := none
  /-- The identifier to bind. -/
  letName : Option (List Char) := none
  deriving DecidableEq, Repr

namespace Mapping

/-- The form in which field names are compared. -/
def key (field : List Char) : List Char :=
  Text.lowerCase (Text.trim field)

/-- A character of an identifier. -/
def identifierChar (c : Char) : Char :=
  if c.isAlphanum then c else '_'

/-- The identifier that is bound to the field: the given one, or one made from a name by replacing
all but ASCII letters and digits. -/
def identifier (mapping : Mapping) : List Char :=
  match mapping.letName with
  | some letName => letName
  | none => '_' :: (Text.trim (mapping.name.getD mapping.field)).map identifierChar

/-- The first mapping of a table for a field. -/
def find? (table : List Mapping) (field : List Char) : Option Mapping :=
  table.find? fun mapping => key mapping.field == key field

end Mapping

/-- Why a mapping table cannot be used. -/
inductive TableError where
  /-- No header names a required column. -/
  | missingColumn (column : String)
  /-- A row has no value in a required column. -/
  | missingValue (row : Nat) (column : String)
  /-- The text is not the JSON of a table. -/
  | malformedJson
  deriving DecidableEq, Repr

/-- The wording of the error. -/
def TableError.message : TableError → List Char
  | missingColumn column =>
      "Mapping is missing the required '".toList ++ column.toList ++ "' column".toList
  | missingValue row column =>
      "Mapping row ".toList ++ Text.decimal row ++ " has no value for '".toList ++ column.toList ++
        "'".toList
  | malformedJson => "JSON error".toList

end SheetFormula
