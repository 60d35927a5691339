import SheetFormula.Proofs.Cell.Numeral

/-!
# Reading and writing references

`Cell.Spells` says which texts are references.  A text is read exactly if it is one, and the cell is
then written with the letters in upper case, without dollar signs and leading zeros; conversely, a
cell whose column has at most three letters is read back from what is written for it.

All this is exact arithmetic on numbers without a bound.  The same reading and writing in machine
words, where every sum and product has to fit, gives the same results (`parseWithin?_eq`,
`columnNameWithin?_eq`, `displayWithin?_eq`).
-/

namespace SheetFormula

/-- The number, if it fits below the limit. -/
def within? (limit n : Nat) : Option Nat :=
  if n < limit then some n else none

/-- The difference of two numbers, if it is not negative. -/
def difference? (a b : Nat) : Option Nat :=
  if b ≤ a then some (a - b) else none

/-- A number below the limit fits. -/
theorem within?_eq_some {limit n : Nat} (fits : n < limit) : within? limit n = some n :=
  if_pos fits

/-- A smaller number can be taken from a larger one. -/
theorem difference?_eq_some {a b : Nat} (fits : b ≤ a) : difference? a b = some (a - b) :=
  if_pos fits

namespace Cell

/-- The text is a reference with the letters and the digits: each may have a dollar sign before it,
and the number of the row is positive and fits a word. -/
structure Spells (letters digits text : List Char) : Prop where
  written : ∃ first ∈ [[], ['$']], ∃ second ∈ [[], ['$']],
    text = first ++ letters ++ second ++ digits
  length : 1 ≤ letters.length ∧ letters.length ≤ 3
  alphabetic : ∀ c ∈ letters, c.isAlpha = true
  numeric : ∀ d ∈ digits, d.isDigit = true
  row : 1 ≤ Nat.ofDigitChars 10 digits 0 ∧ Nat.ofDigitChars 10 digits 0 < UInt64.size

variable {letters digits text : List Char} {cell : Cell}

private theorem dropAnchor_cases (text : List Char) :
    ∃ anchor ∈ [[], ['$']], text = anchor ++ dropAnchor text := by
  unfold dropAnchor
  split
  · exact ⟨['$'], by simp, rfl⟩
  · exact ⟨[], by simp, rfl⟩

private theorem dropAnchor_of_head {text : List Char} (plain : text.head? ≠ some '$') :
    dropAnchor text = text := by
  unfold dropAnchor
  split
  · exact absurd rfl plain
  · rfl

private theorem dropAnchor_append {anchor : List Char} (isAnchor : anchor ∈ [[], ['$']])
    (plain : text.head? ≠ some '$') : dropAnchor (anchor ++ text) = text := by
  simp only [List.mem_cons, List.not_mem_nil, or_false] at isAnchor
  rcases isAnchor with rfl | rfl
  · exact dropAnchor_of_head plain
  · rfl

private theorem ofParts?_eq_some_iff :
    ofParts? letters digits = some cell ↔
      ((1 ≤ letters.length ∧ letters.length ≤ 3) ∧ (∀ d ∈ digits, d.isDigit = true) ∧
        (1 ≤ Text.decimalValue digits ∧ Text.decimalValue digits < countLimit)) ∧
      cell = ⟨lettersValue letters - 1, Text.decimalValue digits - 1⟩ := by
  unfold ofParts?
  split
  · rename_i allowed
    obtain ⟨low, high, _, all⟩ := allowed
    rw [List.all_eq_true] at all
    dsimp only
    split
    · rename_i row
      simp only [Option.some.injEq]
      exact ⟨fun same => ⟨⟨⟨low, high⟩, all, row⟩, same.symm⟩, fun same => same.2.symm⟩
    · rename_i row
      simp only [reduceCtorEq, false_iff]
      exact fun other => row other.1.2.2
  · rename_i refused
    simp only [reduceCtorEq, false_iff]
    rintro ⟨⟨⟨low, high⟩, all, positive, _⟩, -⟩
    refine refused ⟨low, high, ?_, List.all_eq_true.mpr all⟩
    rintro rfl
    exact absurd positive (by decide)

/-- A digit is not a letter of a column. -/
theorem isLetter_of_isDigit {d : Char} (digit : d.isDigit = true) : isLetter d = false := by
  obtain ⟨low, high⟩ : 48 ≤ d.toNat ∧ d.toNat ≤ 57 := Char.isDigit_iff_toNat.mp digit
  rw [← Bool.not_eq_true, isLetter_iff]
  omega

private theorem takeWhile_isLetter (all : ∀ c ∈ letters, isLetter c = true) {rest : List Char}
    (ends : ∀ c ∈ rest.head?, isLetter c = false) :
    (letters ++ rest).takeWhile isLetter = letters ∧
      (letters ++ rest).dropWhile isLetter = rest := by
  rw [List.takeWhile_append_of_pos all, List.dropWhile_append_of_pos all]
  cases rest with
  | nil => simp
  | cons c rest => simp [ends c rfl]

/-- The value of at least one letter is positive. -/
theorem one_le_lettersValue (all : ∀ c ∈ letters, isLetter c = true) (some : 1 ≤ letters.length) :
    1 ≤ lettersValue letters := by
  rcases List.eq_nil_or_concat letters with rfl | ⟨front, c, rfl⟩
  · exact absurd some (by decide)
  · have last := letterValue_cases (all c (by simp))
    rw [List.concat_eq_append, lettersValue_concat]
    omega

namespace Spells

variable (spells : Spells letters digits text)

include spells

/-- The digits of a reference are the number of a row, which is positive and fits a word. -/
theorem row_eq : 1 ≤ Text.decimalValue digits ∧ Text.decimalValue digits < countLimit := by
  rw [Text.decimalValue_eq]
  exact spells.row

private theorem head_ne_dollar (rest : List Char) : (letters ++ rest).head? ≠ some '$' := by
  cases letters with
  | nil => exact absurd spells.length.1 (by decide)
  | cons c _ =>
      rintro first
      obtain rfl : c = '$' := Option.some.inj first
      cases spells.alphabetic '$' List.mem_cons_self

private theorem digits_head_ne_dollar : digits.head? ≠ some '$' := by
  intro first
  cases spells.numeric '$' (List.mem_of_head? first)

private theorem isLetter_head {anchor : List Char} (isAnchor : anchor ∈ [[], ['$']]) :
    ∀ c ∈ (anchor ++ digits).head?, isLetter c = false := by
  intro c first
  simp only [List.mem_cons, List.not_mem_nil, or_false] at isAnchor
  rcases isAnchor with rfl | rfl
  · exact isLetter_of_isDigit (spells.numeric c (List.mem_of_head? first))
  · obtain rfl : '$' = c := Option.some.inj first
    rfl

/-- A reference is read by its letters and its digits. -/
theorem parse?_eq :
    parse? text = some ⟨lettersValue letters - 1, Text.decimalValue digits - 1⟩ := by
  obtain ⟨first, isFirst, second, isSecond, rfl⟩ := spells.written
  obtain ⟨taken, dropped⟩ := takeWhile_isLetter spells.alphabetic (spells.isLetter_head isSecond)
  rw [parse?, List.append_assoc, List.append_assoc,
    dropAnchor_append isFirst (spells.head_ne_dollar _), taken, dropped,
    dropAnchor_append isSecond spells.digits_head_ne_dollar]
  exact ofParts?_eq_some_iff.mpr ⟨⟨spells.length, spells.numeric, spells.row_eq⟩, rfl⟩

/-- What is read is written without dollar signs, in upper case and without leading zeros. -/
theorem display_eq :
    display ⟨lettersValue letters - 1, Text.decimalValue digits - 1⟩ =
      Text.asciiUpper letters ++ digits.dropWhile (· == '0') := by
  have column := one_le_lettersValue spells.alphabetic spells.length.1
  have row := spells.row_eq
  rw [display, columnName, Nat.sub_add_cancel column, Nat.sub_add_cancel row.1,
    lettersOf_lettersValue spells.alphabetic, Text.decimal_decimalValue spells.numeric row.1]

end Spells

/-- Whatever is read is a reference. -/
theorem exists_spells (read : parse? text = some cell) :
    ∃ letters digits, Spells letters digits text := by
  obtain ⟨first, isFirst, whole⟩ := dropAnchor_cases text
  obtain ⟨second, isSecond, back⟩ := dropAnchor_cases ((dropAnchor text).dropWhile isLetter)
  obtain ⟨⟨length, numeric, row⟩, -⟩ := ofParts?_eq_some_iff.mp read
  refine ⟨_, _, ⟨first, isFirst, second, isSecond, ?_⟩, length, fun c => List.mem_takeWhile_imp,
    numeric, by rwa [← Text.decimalValue_eq]⟩
  calc text
      = first ++ dropAnchor text := whole
    _ = first ++ ((dropAnchor text).takeWhile isLetter ++
          (dropAnchor text).dropWhile isLetter) := by rw [List.takeWhile_append_dropWhile]
    _ = _ := by simp only [List.append_assoc, ← back]

/-- What is written for a cell is a reference, as far as the column has three letters at most. -/
theorem spells_display (column : cell.column < 26 + 26 * 26 + 26 * 26 * 26)
    (row : cell.row + 1 < UInt64.size) :
    Spells (columnName cell.column) (Text.decimal (cell.row + 1)) cell.display where
  written := ⟨[], by simp, [], by simp, by simp [display]⟩
  length := by
    refine ⟨?_, length_lettersOf_le (by omega)⟩
    rw [columnName, lettersOf_of_ne_zero (by omega), List.length_append]
    exact Nat.le_add_left ..
  alphabetic c member := by
    have upper := isUpper_iff.mp (isUpper_of_mem_lettersOf _ c member)
    exact isLetter_iff.mpr (.inl upper)
  numeric d := Text.isDigit_of_mem_decimal
  row := by
    rw [← Text.decimalValue_eq, Text.decimalValue_decimal]
    omega

/-- A cell within the bounds is read back from the way it is written. -/
theorem parse?_display (column : cell.column < 26 + 26 * 26 + 26 * 26 * 26)
    (row : cell.row + 1 < UInt64.size) : parse? cell.display = some cell := by
  rw [(spells_display column row).parse?_eq, columnName, lettersValue_lettersOf,
    Text.decimalValue_decimal]
  rfl

/-! ### Machine words -/

/-- `lettersOf` as a loop that puts one letter after the other in front, with its code in a byte. -/
def lettersWithin? (n : Nat) (letters : List Char) : Option (List Char) :=
  if n = 0 then some letters
  else do
    let code ← within? UInt8.size (65 + (n - 1) % 26)
    lettersWithin? ((n - 1) / 26) (Char.ofNat code :: letters)
termination_by n
decreasing_by omega

/-- `columnName` with the number of the column in a word of double size. -/
def columnNameWithin? (column : Nat) : Option (List Char) := do
  lettersWithin? (← within? (UInt64.size * UInt64.size) (column + 1)) []

/-- `display` in words. -/
def displayWithin? (cell : Cell) : Option (List Char) := do
  return (← columnNameWithin? cell.column) ++
    Text.decimal (← within? UInt64.size (cell.row + 1))

/-- `lettersValue` in words. -/
def lettersValueWithin? (letters : List Char) : Option Nat :=
  letters.foldlM (fun value c => do
    within? UInt64.size ((← within? UInt64.size (value * 26)) + letterValue c)) 0

/-- `ofParts?` in words. -/
def ofPartsWithin? (letters digits : List Char) : Option Cell :=
  if 1 ≤ letters.length ∧ letters.length ≤ 3 ∧ digits ≠ [] ∧ digits.all Char.isDigit then do
    let column ← difference? (← lettersValueWithin? letters) 1
    let row ← difference? (← within? UInt64.size (Text.decimalValue digits)) 1
    return ⟨column, row⟩
  else none

/-- `parse?` in words. -/
def parseWithin? (text : List Char) : Option Cell :=
  let name := dropAnchor text
  ofPartsWithin? (name.takeWhile isLetter) (dropAnchor (name.dropWhile isLetter))

private theorem lettersWithin?_eq (n : Nat) (letters : List Char) :
    lettersWithin? n letters = some (lettersOf n ++ letters) := by
  induction n using Nat.strongRecOn generalizing letters with
  | ind n ih =>
      rw [lettersWithin?]
      by_cases empty : n = 0
      · rw [if_pos empty, lettersOf, if_pos empty]
        rfl
      · have fits : 65 + (n - 1) % 26 < UInt8.size := by
          change _ < 256
          omega
        rw [if_neg empty, within?_eq_some fits, lettersOf_of_ne_zero empty, List.append_assoc]
        exact ih _ (by omega) _

private theorem columnNameWithin?_eq {column : Nat} (word : column < UInt64.size) :
    columnNameWithin? column = some (columnName column) := by
  have fits : column + 1 < UInt64.size * UInt64.size := by
    change _ < 18446744073709551616 at word
    change _ < 18446744073709551616 * 18446744073709551616
    omega
  rw [columnNameWithin?, within?_eq_some fits]
  exact (lettersWithin?_eq _ _).trans (congrArg some (List.append_nil _))

private theorem displayWithin?_eq (column : cell.column < UInt64.size)
    (row : cell.row + 1 < UInt64.size) : displayWithin? cell = some cell.display := by
  rw [displayWithin?, columnNameWithin?_eq column, within?_eq_some row]
  rfl

private theorem lettersValueWithin?_concat (letters : List Char) (c : Char) :
    lettersValueWithin? (letters ++ [c]) = (lettersValueWithin? letters).bind fun value =>
      (within? UInt64.size (value * 26)).bind fun shifted =>
        within? UInt64.size (shifted + letterValue c) := by
  simp only [lettersValueWithin?, List.foldlM_append, List.foldlM_cons, List.foldlM_nil, bind_pure]
  rfl

private theorem lettersValueWithin?_eq (fits : lettersValue letters < UInt64.size) :
    lettersValueWithin? letters = some (lettersValue letters) := by
  induction letters using List.reverseRecOn with
  | nil => rfl
  | append_singleton letters c ih =>
      rw [lettersValue_concat, Nat.mul_comm] at fits
      rw [lettersValueWithin?_concat, ih (by omega), lettersValue_concat, Nat.mul_comm,
        Option.bind_some, within?_eq_some (by omega), Option.bind_some, within?_eq_some fits]

/-- At most three letters name a column up to the last one with three letters. -/
theorem lettersValue_le (all : ∀ c ∈ letters, isLetter c = true) (short : letters.length ≤ 3) :
    lettersValue letters ≤ 26 + 26 * 26 + 26 * 26 * 26 := by
  have small (c : Char) (member : c ∈ letters) : letterValue c ≤ 26 :=
    (letterValue_cases (all c member)).2.1
  rw [lettersValue]
  rcases letters with _ | ⟨a, _ | ⟨b, _ | ⟨c, _ | ⟨d, letters⟩⟩⟩⟩
  · exact Nat.zero_le _
  · have first := small a (by simp)
    simp only [List.foldl_cons, List.foldl_nil]
    omega
  · have first := small a (by simp)
    have second := small b (by simp)
    simp only [List.foldl_cons, List.foldl_nil]
    omega
  · have first := small a (by simp)
    have second := small b (by simp)
    have third := small c (by simp)
    simp only [List.foldl_cons, List.foldl_nil]
    omega
  · simp only [List.length_cons] at short
    omega

private theorem ofPartsWithin?_eq (all : ∀ c ∈ letters, isLetter c = true) (digits : List Char) :
    ofPartsWithin? letters digits = ofParts? letters digits := by
  unfold ofPartsWithin? ofParts?
  split
  · rename_i allowed
    have column := lettersValue_le all allowed.2.1
    have fits : lettersValue letters < UInt64.size := by
      change _ < 18446744073709551616
      omega
    rw [lettersValueWithin?_eq fits, Option.bind_eq_bind, Option.bind_some,
      difference?_eq_some (one_le_lettersValue all allowed.1)]
    by_cases row : Text.decimalValue digits < UInt64.size
    · rw [within?_eq_some row]
      by_cases positive : 1 ≤ Text.decimalValue digits
      · rw [if_pos ⟨positive, row⟩]
        simp [difference?_eq_some positive]
      · rw [if_neg fun both => positive both.1]
        simp [difference?, positive]
    · rw [if_neg fun both => row both.2]
      simp [within?, row]
  · rfl

private theorem parseWithin?_eq (text : List Char) : parseWithin? text = parse? text :=
  ofPartsWithin?_eq (fun _ => List.mem_takeWhile_imp) _

/-- References are read and written without loss: exactly the references are read, a cell is written
in the normal form of what it was read from, every cell with a column of three letters at most is
read back, and the letters of every column that fits a word are its numeral.  No step leaves its
range. -/
theorem references_round_trip :
    (∀ text, (∃ cell, parse? text = some cell) ↔ ∃ letters digits, Spells letters digits text) ∧
    (∀ text letters digits, Spells letters digits text → ∃ cell, parse? text = some cell ∧
      cell.display = Text.asciiUpper letters ++ digits.dropWhile (· == '0')) ∧
    (∀ text, parseWithin? text = parse? text) ∧
    (∀ column row, column < 26 + 26 * 26 + 26 * 26 * 26 → row ≤ UInt64.size - 2 →
      displayWithin? ⟨column, row⟩ = some (display ⟨column, row⟩) ∧
        parse? (display ⟨column, row⟩) = some ⟨column, row⟩) ∧
    ∀ column, column < UInt64.size →
      columnNameWithin? column = some (columnName column) ∧
        (∀ c ∈ columnName column, c.isUpper = true) ∧
        Nat.ofDigits 26 ((columnName column).reverse.map fun c => c.toNat - 64) = column + 1 := by
  refine ⟨fun text => ⟨?_, ?_⟩, ?_, parseWithin?_eq, ?_, ?_⟩
  · rintro ⟨cell, read⟩
    exact exists_spells read
  · rintro ⟨letters, digits, spells⟩
    exact ⟨_, spells.parse?_eq⟩
  · intro text letters digits spells
    exact ⟨_, spells.parse?_eq, spells.display_eq⟩
  · intro column row short low
    have fits : row + 1 < UInt64.size := by
      change row ≤ 18446744073709551614 at low
      change _ < 18446744073709551616
      omega
    have word : column < UInt64.size := by
      change _ < 18446744073709551616
      omega
    exact ⟨displayWithin?_eq word fits, parse?_display short fits⟩
  · intro column word
    exact ⟨columnNameWithin?_eq word, isUpper_of_mem_lettersOf _, ofDigits_lettersOf _⟩

/-- A reference with dollar signs, small letters and leading zeros, the last cell of all, and the
last column. -/
theorem references_round_trip_extreme :
    (∃ cell, parse? "$xfD$0070".toList = some cell ∧ cell.display = "XFD70".toList) ∧
      parse? (display ⟨18277, 18446744073709551614⟩) = some ⟨18277, 18446744073709551614⟩ ∧
      Nat.ofDigits 26 ((columnName 18446744073709551615).reverse.map fun c => c.toNat - 64) =
        18446744073709551616 := by
  have spells : Spells "xfD".toList "0070".toList "$xfD$0070".toList := by
    refine ⟨⟨['$'], by simp, ['$'], by simp, rfl⟩, by decide, ?_, ?_, by decide⟩
    · simp
    · simp
  obtain ⟨-, normal, -, back, numeral⟩ := references_round_trip
  exact ⟨normal _ _ _ spells, (back _ _ (by decide) (by decide)).2, (numeral _ (by decide)).2.2⟩

end Cell

end SheetFormula
