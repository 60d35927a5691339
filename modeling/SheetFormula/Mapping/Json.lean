import SheetFormula.Json
import SheetFormula.Mapping

/-!
# Mapping tables from JSON

A table is an array.  A mapping is an object with the keys `field`, `location`, `name` and
`let_name`, or an array of these values in this order.  The last two may be missing or null.
-/

namespace SheetFormula.Mapping

/-- The text of a value that has to be a string. -/
def textValue : Json → Except TableError (List Char)
  | .string (some text) => .ok text
  | _ => .error .malformedJson

/-- The text of a value that has to be a string or null. -/
def optionalValue : Json → Except TableError (Option (List Char))
  | .null => .ok none
  | value => (textValue value).map some

/-- The values of a key that has to be known by its text, in the order of the members. -/
def valuesOf (members : List (Option (List Char) × Json)) (key : String) : List Json :=
  members.filterMap fun member => if member.1 = some key.toList then some member.2 else none

/-- The value of a key that occurs once at most. -/
def value? (members : List (Option (List Char) × Json)) (key : String) :
    Except TableError (Option Json) :=
  match valuesOf members key with
  | [] => .ok none
  | [value] => .ok (some value)
  | _ => .error .malformedJson

/-- The text of a key that has to occur. -/
def requiredMember (members : List (Option (List Char) × Json)) (key : String) :
    Except TableError (List Char) := do
  match ← value? members key with
  | some value => textValue value
  | none => .error .malformedJson

/-- The text of a key that may be missing or null. -/
def optionalMember (members : List (Option (List Char) × Json)) (key : String) :
    Except TableError (Option (List Char)) := do
  match ← value? members key with
  | some value => optionalValue value
  | none => .ok none

/-- The mapping that an object describes.  Other keys are passed over, if they are texts. -/
def ofMembers (members : List (Option (List Char) × Json)) : Except TableError Mapping := do
  if members.any fun member => member.1.isNone then throw .malformedJson
  let field ← requiredMember members "field"
  let location ← requiredMember members "location"
  let name ← optionalMember members "name"
  let letName ← optionalMember members "let_name"
  return { field, location, name, letName }

/-- The mapping that an array of values describes. -/
def ofItems : List Json → Except TableError Mapping
  | [field, location] => do
      return { field := ← textValue field, location := ← textValue location }
  | [field, location, name] => do
      return {
        field := ← textValue field, location := ← textValue location
        name := ← optionalValue name }
  | [field, location, name, letName] => do
      return {
        field := ← textValue field, location := ← textValue location
        name := ← optionalValue name, letName := ← optionalValue letName }
  | _ => .error .malformedJson

/-- The mapping that a value describes. -/
def ofJsonValue : Json → Except TableError Mapping
  | .object members => ofMembers members
  | .array items => ofItems items
  | _ => .error .malformedJson

/-- Require that the mappings, from a given row on, have a field and a location that are not
blank. -/
def requireFilled : (row : Nat) → List Mapping → Except TableError Unit
  | _, [] => .ok ()
  | row, mapping :: rest =>
      if Text.isBlankText mapping.field then .error (.missingValue row "field")
      else if Text.isBlankText mapping.location then .error (.missingValue row "location")
      else requireFilled (row + 1) rest

/-- The mappings of a table written in JSON. -/
def ofJson (text : List Char) : Except TableError (List Mapping) := do
  match Json.parse? text with
  | some (.array items) =>
      let mappings ← items.mapM ofJsonValue
      requireFilled 1 mappings
      return mappings
  | _ => .error .malformedJson

end SheetFormula.Mapping
