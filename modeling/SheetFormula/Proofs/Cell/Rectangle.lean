import SheetFormula.Cell.Range
import SheetFormula.Proofs.Cell.Reference
import SheetFormula.Proofs.Text.Search

/-!
# The cells of a rectangle

Two references with a colon between them span a rectangle, whichever corners they are.  Its listing
has each of its cells once, column by column and from the top of each column, and the number of
columns, of rows and of cells is computed in machine words without leaving their range, except where
the number of cells itself does not fit.
-/

namespace SheetFormula

namespace Cell

variable {text : List Char} {cell : Cell}

/-- The order of a listing column by column. -/
def Precedes (a b : Cell) : Prop :=
  a.column < b.column ∨ a.column = b.column ∧ a.row < b.row

/-- A cell that can be read has a column of at most three letters and a row that fits a word. -/
theorem bounds_of_parse? (read : parse? text = some cell) :
    cell.column < 26 + 26 * 26 + 26 * 26 * 26 ∧ cell.row + 1 < UInt64.size := by
  obtain ⟨letters, digits, spells⟩ := exists_spells read
  obtain rfl := Option.some.inj (spells.parse?_eq.symm.trans read)
  have named := one_le_lettersValue spells.alphabetic spells.length.1
  have short := lettersValue_le spells.alphabetic spells.length.2
  have row : 1 ≤ Text.decimalValue digits ∧ Text.decimalValue digits < UInt64.size := spells.row_eq
  dsimp only
  omega

/-- There is no colon in a reference to one cell. -/
theorem colon_not_mem_of_parse? (read : parse? text = some cell) : ':' ∉ text := by
  obtain ⟨letters, digits, spells⟩ := exists_spells read
  obtain ⟨first, isFirst, second, isSecond, rfl⟩ := spells.written
  have anchor {sign : List Char} (isAnchor : sign ∈ [[], ['$']]) : ':' ∉ sign := by
    simp only [List.mem_cons, List.not_mem_nil, or_false] at isAnchor
    rcases isAnchor with rfl | rfl <;> simp
  simp only [List.mem_append, not_or]
  refine ⟨⟨⟨anchor isFirst, fun letter => ?_⟩, anchor isSecond⟩, fun digit => ?_⟩
  · cases spells.alphabetic ':' letter
  · cases spells.numeric ':' digit

end Cell

namespace CellRange

variable {text : List Char} {range : CellRange} {cell : Cell}

private theorem spanning_comm (a b : Cell) : spanning a b = spanning b a := by
  simp only [spanning, Nat.min_comm, Nat.max_comm]

/-- A range is read from two cells around the first colon, and spans them. -/
theorem parse?_eq_some_iff :
    parse? text = some range ↔ ∃ left right a b, (text = left ++ ':' :: right ∧ ':' ∉ left) ∧
      Cell.parse? left = some a ∧ Cell.parse? right = some b ∧ spanning a b = range := by
  simp only [parse?, Option.bind_eq_bind, Option.bind_eq_some_iff, Prod.exists,
    Text.splitOnce?_singleton_iff, Option.pure_def, Option.some.injEq]
  constructor
  · rintro ⟨left, right, split, a, first, b, second, same⟩
    exact ⟨left, right, a, b, split, first, second, same⟩
  · rintro ⟨left, right, a, b, split, first, second, same⟩
    exact ⟨left, right, split, a, first, b, second, same⟩

/-- The first corner of a rectangle is above and to the left of the last one, and every cell of it
fits a word. -/
structure IsUpright (range : CellRange) : Prop where
  columns : range.first.column ≤ range.last.column
  rows : range.first.row ≤ range.last.row
  lastColumn : range.last.column + 1 < UInt64.size
  lastRow : range.last.row + 1 < UInt64.size

private theorem isUpright_of_parse? (read : parse? text = some range) : range.IsUpright := by
  obtain ⟨left, right, a, b, -, first, second, rfl⟩ := parse?_eq_some_iff.mp read
  have left := Cell.bounds_of_parse? first
  have right := Cell.bounds_of_parse? second
  have wide : 26 + 26 * 26 + 26 * 26 * 26 < UInt64.size := by decide
  constructor <;> simp only [spanning] <;> omega

/-- The sides of the colon may change places. -/
theorem exists_swapped (read : parse? text = some range) :
    ∃ left right, text = left ++ ':' :: right ∧ ':' ∉ left ∧ ':' ∉ right ∧
      parse? (right ++ ':' :: left) = some range := by
  obtain ⟨left, right, a, b, ⟨whole, absent⟩, first, second, same⟩ := parse?_eq_some_iff.mp read
  have free := Cell.colon_not_mem_of_parse? second
  refine ⟨left, right, whole, absent, free, parse?_eq_some_iff.mpr ?_⟩
  exact ⟨right, left, b, a, ⟨rfl, free⟩, second, first, (spanning_comm b a).trans same⟩

private theorem length_cells (range : CellRange) : range.cells.length = range.size := by
  simp [cells, firstCells]

private theorem cellAt_of_offsets {right down : Nat} (short : down < range.rows) :
    range.cellAt (right * range.rows + down) =
      ⟨range.first.column + right, range.first.row + down⟩ := by
  have positive : 0 < range.rows := Nat.succ_pos _
  rw [cellAt, Nat.mul_comm, Nat.mul_add_div positive, Nat.div_eq_of_lt short, Nat.add_zero,
    Nat.mul_add_mod, Nat.mod_eq_of_lt short]

private theorem place_lt_size {right down : Nat} (narrow : right < range.columns)
    (short : down < range.rows) : right * range.rows + down < range.size :=
  calc right * range.rows + down
      < right * range.rows + range.rows := Nat.add_lt_add_left short _
    _ = (right + 1) * range.rows := (Nat.succ_mul _ _).symm
    _ ≤ range.size := Nat.mul_le_mul_right _ narrow

/-- The cells of a range are those between its corners. -/
private theorem mem_cells_iff (upright : range.IsUpright) :
    cell ∈ range.cells ↔
      (range.first.column ≤ cell.column ∧ cell.column ≤ range.last.column) ∧
        range.first.row ≤ cell.row ∧ cell.row ≤ range.last.row := by
  have positive : 0 < range.rows := Nat.succ_pos _
  have width : range.columns = range.last.column - range.first.column + 1 := rfl
  have height : range.rows = range.last.row - range.first.row + 1 := rfl
  have columns := upright.columns
  have rows := upright.rows
  simp only [cells, firstCells, Nat.min_self, List.mem_map, List.mem_range]
  constructor
  · rintro ⟨place, inside, rfl⟩
    have narrow : place / range.rows < range.columns :=
      (Nat.div_lt_iff_lt_mul positive).mpr inside
    have short : place % range.rows < range.rows := Nat.mod_lt _ positive
    rw [← Nat.div_add_mod' place range.rows, cellAt_of_offsets short]
    dsimp only
    exact ⟨⟨Nat.le_add_right .., by omega⟩, Nat.le_add_right .., by omega⟩
  · rintro ⟨⟨left, right⟩, top, bottom⟩
    have narrow : cell.column - range.first.column < range.columns := by omega
    have short : cell.row - range.first.row < range.rows := by omega
    refine ⟨_, place_lt_size narrow short, ?_⟩
    rw [cellAt_of_offsets short, Nat.add_sub_cancel' left, Nat.add_sub_cancel' top]

private theorem pairwise_cells (range : CellRange) : range.cells.Pairwise Cell.Precedes := by
  have positive : 0 < range.rows := Nat.succ_pos _
  rw [cells, firstCells, List.pairwise_map]
  refine List.pairwise_lt_range.imp ?_
  intro place later before
  have split := Nat.div_add_mod place range.rows
  have laterSplit := Nat.div_add_mod later range.rows
  have order : place / range.rows ≤ later / range.rows := Nat.div_le_div_right (Nat.le_of_lt before)
  rcases Nat.lt_or_eq_of_le order with less | same
  · exact .inl (Nat.add_lt_add_left less _)
  · rw [same] at split
    exact .inr ⟨congrArg (range.first.column + ·) same, Nat.add_lt_add_left (by omega) _⟩

/-- `count?` in words.  A difference or a number of columns or rows that leaves its range gives
nothing at all. -/
def countWithin? (range : CellRange) : Option (Option Nat) := do
  let columns ← within? UInt64.size ((← difference? range.last.column range.first.column) + 1)
  let rows ← within? UInt64.size ((← difference? range.last.row range.first.row) + 1)
  return within? UInt64.size (columns * rows)

private theorem countWithin?_eq (upright : range.IsUpright) :
    range.countWithin? = some range.count? := by
  obtain ⟨columns, rows, lastColumn, lastRow⟩ := upright
  simp only [countWithin?, difference?_eq_some columns, difference?_eq_some rows,
    Option.bind_eq_bind, Option.bind_some]
  rw [within?_eq_some (by omega), within?_eq_some (by omega)]
  rfl

private theorem count?_eq_some_iff {number : Nat} :
    range.count? = some number ↔ range.cells.length = number ∧ number < UInt64.size := by
  rw [count?, length_cells]
  split
  · rename_i fits
    rw [Option.some.injEq]
    exact ⟨fun same => ⟨same, same ▸ fits⟩, And.left⟩
  · rename_i large
    simp only [reduceCtorEq, false_iff]
    rintro ⟨rfl, fits⟩
    exact large fits

private theorem count?_eq_none_iff : range.count? = none ↔ UInt64.size ≤ range.cells.length := by
  rw [count?, length_cells, ite_eq_right_iff]
  simp only [reduceCtorEq, imp_false, Nat.not_lt]
  rfl

/-- The two sides of a range may change places, its number of cells is exact where it fits a word
and is computed without leaving the range of words, and its cells are listed once each, in order. -/
theorem parse?_rectangle (read : parse? text = some range) :
    (∃ left right, text = left ++ ':' :: right ∧ ':' ∉ left ∧ ':' ∉ right ∧
      parse? (right ++ ':' :: left) = some range) ∧
    range.countWithin? = some range.count? ∧
    (∀ number, range.count? = some number ↔ range.cells.length = number ∧ number < UInt64.size) ∧
    (range.count? = none ↔ UInt64.size ≤ range.cells.length) ∧
    (∀ cell, cell ∈ range.cells ↔
      (range.first.column ≤ cell.column ∧ cell.column ≤ range.last.column) ∧
        range.first.row ≤ cell.row ∧ cell.row ≤ range.last.row) ∧
    range.cells.Nodup ∧ range.cells.Pairwise Cell.Precedes := by
  have upright := isUpright_of_parse? read
  refine ⟨exists_swapped read, countWithin?_eq upright, fun _ => count?_eq_some_iff,
    count?_eq_none_iff, fun _ => mem_cells_iff upright, ?_, range.pairwise_cells⟩
  refine range.pairwise_cells.imp ?_
  rintro cell _ before rfl
  rcases before with less | ⟨-, less⟩ <;> exact Nat.lt_irrefl _ less

/-- A range from its last corner to its first one, with as many rows as a word can count. -/
theorem parse?_rectangle_tall :
    parse? "$B18446744073709551615:A$1".toList = some ⟨⟨0, 0⟩, ⟨1, 18446744073709551614⟩⟩ ∧
      (CellRange.mk ⟨0, 0⟩ ⟨1, 18446744073709551614⟩).countWithin? =
        some (CellRange.mk ⟨0, 0⟩ ⟨1, 18446744073709551614⟩).count? ∧
      (CellRange.mk ⟨0, 0⟩ ⟨1, 18446744073709551614⟩).count? = none := by
  have read : parse? "$B18446744073709551615:A$1".toList =
      some ⟨⟨0, 0⟩, ⟨1, 18446744073709551614⟩⟩ := by decide
  exact ⟨read, (parse?_rectangle read).2.1, by decide⟩

end CellRange

end SheetFormula
