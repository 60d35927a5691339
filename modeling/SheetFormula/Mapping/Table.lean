import SheetFormula.Csv
import SheetFormula.Mapping

/-!
# Mapping tables from records

The first record of a table names its columns, in any order and with any others between them.  Each
later record is a mapping, unless all of its cells are blank.
-/

namespace SheetFormula.Mapping

/-- Which columns of a table hold what. -/
structure Columns where
  field : Nat
  location : Nat
  name : Option Nat
  letName : Option Nat
  deriving DecidableEq, Repr

/-- The first column with a given header, whatever blanks surround it and in any case of letters. -/
def column? (headers : List (List Char)) (wanted : String) : Option Nat :=
  headers.findIdx? fun header => Text.equalFold (Text.trim header) wanted.toList

/-- The first column with a given header, which the table has to have. -/
def column (headers : List (List Char)) (wanted : String) : Except TableError Nat :=
  match column? headers wanted with
  | some place => .ok place
  | none => .error (.missingColumn wanted)

/-- The columns that a header record names. -/
def Columns.ofHeaders (headers : List (List Char)) : Except TableError Columns := do
  let field ← column headers "field"
  let location ← column headers "location"
  return { field, location, name := column? headers "name", letName := column? headers "let_name" }

/-- The trimmed cell at a place of a record, if it is there and not blank. -/
def cell? (record : List (List Char)) (place : Nat) : Option (List Char) :=
  (record[place]?.map Text.trim).filter fun cell => !cell.isEmpty

/-- A cell that has to be there and not blank. -/
def required (row : Nat) (column : String) : Option (List Char) → Except TableError (List Char)
  | some value => .ok value
  | none => .error (.missingValue row column)

/-- The mapping of a record, which is the given row of the table. -/
def ofRecord (columns : Columns) (row : Nat) (record : List (List Char)) :
    Except TableError Mapping := do
  let field ← required row "field" (cell? record columns.field)
  let location ← required row "location" (cell? record columns.location)
  return {
    field, location
    name := columns.name.bind (cell? record)
    letName := columns.letName.bind (cell? record) }

/-- The mappings of records that start at a given row of the table.  Blank records count as rows. -/
def ofRows (columns : Columns) :
    (row : Nat) → List (List (List Char)) → Except TableError (List Mapping)
  | _, [] => .ok []
  | row, record :: rest =>
      if record.all Text.isBlankText then ofRows columns (row + 1) rest
      else do
        let mapping ← ofRecord columns row record
        let mappings ← ofRows columns (row + 1) rest
        return mapping :: mappings

/-- The mappings of a table of records, of which the first is the header. -/
def ofRecords (records : List (List (List Char))) : Except TableError (List Mapping) := do
  let columns ← Columns.ofHeaders (records.head?.getD [])
  ofRows columns 2 records.tail

/-- The mappings of a table of comma-separated records. -/
def ofCsv (text : List Char) : Except TableError (List Mapping) :=
  ofRecords (Csv.records text)

end SheetFormula.Mapping
