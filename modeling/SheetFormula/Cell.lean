import SheetFormula.Text.Search

/-!
# Cell references

A cell is named by the letters of its column and the number of its row.  Columns are numbered in
bijective base twenty-six, so every number has exactly one name.
-/

namespace SheetFormula

/-- A cell, with its column and row counted from zero. -/
structure Cell where
  column : Nat
  row : Nat
  deriving DecidableEq, Repr

/-- The bound below which counts and row numbers lie. -/
def countLimit : Nat :=
  UInt64.size

namespace Cell

/-- An ASCII letter. -/
def isLetter (c : Char) : Bool :=
  c.isAlpha

/-- The value of a letter as a column digit, from one for `A` to twenty-six for `Z`. -/
def letterValue (c : Char) : Nat :=
  c.toUpper.toNat - 64

/-- The letter of a column digit counted from zero. -/
def letterOf (digit : Nat) : Char :=
  Char.ofNat (65 + digit)

/-- The number that letters name in bijective base twenty-six. -/
def lettersValue (letters : List Char) : Nat :=
  letters.foldl (fun value c => value * 26 + letterValue c) 0

/-- The letters that name a number in bijective base twenty-six; zero has none. -/
def lettersOf (n : Nat) : List Char :=
  if n = 0 then [] else lettersOf ((n - 1) / 26) ++ [letterOf ((n - 1) % 26)]
termination_by n
decreasing_by omega

/-- The name of a column. -/
def columnName (column : Nat) : List Char :=
  lettersOf (column + 1)

/-- The reference that names the cell. -/
def display (cell : Cell) : List Char :=
  columnName cell.column ++ Text.decimal (cell.row + 1)

/-- The text without one leading dollar sign. -/
def dropAnchor : List Char → List Char
  | '$' :: rest => rest
  | text => text

/-- The cell of given letters and digits, if they can name one. -/
def ofParts? (letters digits : List Char) : Option Cell :=
  if 1 ≤ letters.length ∧ letters.length ≤ 3 ∧ digits ≠ [] ∧ digits.all Char.isDigit then
    let row := Text.decimalValue digits
    if 1 ≤ row ∧ row < countLimit then some ⟨lettersValue letters - 1, row - 1⟩ else none
  else none

/-- Read a reference: one to three letters and a row number, each with an optional dollar sign. -/
def parse? (text : List Char) : Option Cell :=
  let name := dropAnchor text
  ofParts? (name.takeWhile isLetter) (dropAnchor (name.dropWhile isLetter))

end Cell

end SheetFormula
