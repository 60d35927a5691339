import SheetFormula.Text.Search

/-!
# Comma-separated records

A cell may stand between double quotes, if the first one is the first character of the cell; a quote
inside is written twice, and what follows the closing quote belongs to the cell as it is.  Line ends
of every kind end a record, and empty lines are passed over.
-/

namespace SheetFormula.Csv

/-- Where the reader is. -/
inductive Place where
  /-- Before the first cell of a record. -/
  | recordStart
  /-- Before a cell. -/
  | cellStart
  /-- In a cell, outside of quotes. -/
  | plain
  /-- Between quotes. -/
  | quoted
  /-- After a quote that ends the quoted part unless another one follows. -/
  | quote
  deriving DecidableEq, Repr

/-- The state of the reader.  Characters, cells and records are held latest first. -/
structure Reader where
  place : Place := .recordStart
  cell : List Char := []
  cells : List (List Char) := []
  records : List (List (List Char)) := []

namespace Reader

/-- Add a character to the cell. -/
def push (reader : Reader) (c : Char) (place : Place) : Reader :=
  { reader with cell := c :: reader.cell, place := place }

/-- End the cell. -/
def endCell (reader : Reader) : Reader :=
  { reader with place := .cellStart, cell := [], cells := reader.cell.reverse :: reader.cells }

/-- End the cell and the record. -/
def endRecord (reader : Reader) : Reader :=
  { reader with
    place := .recordStart
    cell := []
    cells := []
    records := (reader.cell.reverse :: reader.cells).reverse :: reader.records }

/-- The character ends a line. -/
def isLineEnd (c : Char) : Bool :=
  c == '\n' || c == '\r'

/-- Read a character outside of quotes. -/
def readPlain (reader : Reader) (c : Char) : Reader :=
  if c = ',' then reader.endCell
  else if isLineEnd c then reader.endRecord
  else reader.push c .plain

/-- Read the first character of a cell. -/
def readStart (reader : Reader) (c : Char) : Reader :=
  if c = '"' then { reader with place := .quoted } else reader.readPlain c

/-- Read one character. -/
def step (reader : Reader) (c : Char) : Reader :=
  match reader.place with
  | .recordStart => if isLineEnd c then reader else reader.readStart c
  | .cellStart => reader.readStart c
  | .plain => reader.readPlain c
  | .quoted => if c = '"' then { reader with place := .quote } else reader.push c .quoted
  | .quote => if c = '"' then reader.push c .quoted else reader.readPlain c

/-- The records, with the last one ended by the end of the text. -/
def finish (reader : Reader) : List (List (List Char)) :=
  match reader.place with
  | .recordStart => reader.records.reverse
  | _ => reader.endRecord.records.reverse

end Reader

/-- The records of a text. -/
def records (text : List Char) : List (List (List Char)) :=
  ((Text.dropMark text).foldl Reader.step {}).finish

end SheetFormula.Csv
