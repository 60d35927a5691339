import SheetFormula.Cell

/-!
# Cell ranges

Two cells span a rectangle.  Its cells are listed column by column, from the top of each.
-/

namespace SheetFormula

/-- A rectangle of cells between its first and its last corner. -/
structure CellRange where
  first : Cell
  last : Cell
  deriving DecidableEq, Repr

namespace CellRange

/-- The rectangle that two cells span, whichever corners they are. -/
def spanning (a b : Cell) : CellRange where
  first := ⟨min a.column b.column, min a.row b.row⟩
  last := ⟨max a.column b.column, max a.row b.row⟩

/-- Read two references with a colon between them. -/
def parse? (text : List Char) : Option CellRange := do
  let (left, right) ← Text.splitOnce? [':'] text
  let a ← Cell.parse? left
  let b ← Cell.parse? right
  return spanning a b

/-- The number of columns. -/
def columns (range : CellRange) : Nat :=
  range.last.column - range.first.column + 1

/-- The number of rows. -/
def rows (range : CellRange) : Nat :=
  range.last.row - range.first.row + 1

/-- The number of cells. -/
def size (range : CellRange) : Nat :=
  range.columns * range.rows

/-- The number of cells, where it lies below the limit of counts. -/
def count? (range : CellRange) : Option Nat :=
  if range.size < countLimit then some range.size else none

/-- The cell at a place of the listing. -/
def cellAt (range : CellRange) (place : Nat) : Cell :=
  ⟨range.first.column + place / range.rows, range.first.row + place % range.rows⟩

/-- The first cells of the listing, at most `limit` of them. -/
def firstCells (range : CellRange) (limit : Nat) : List Cell :=
  (List.range (min limit range.size)).map range.cellAt

/-- The cells of the rectangle, column by column. -/
def cells (range : CellRange) : List Cell :=
  range.firstCells range.size

end CellRange

end SheetFormula
