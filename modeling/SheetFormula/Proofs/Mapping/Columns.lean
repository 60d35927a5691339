import SheetFormula.Mapping.Table
import SheetFormula.Proofs.Scanner.Reading
import Mathlib.Data.Fin.VecNotation
import Mathlib.Data.List.FinRange
import Mathlib.Data.List.Forall2

/-!
# Mapping tables without the order of their columns

The columns of a mapping table are found by their names, so a table is described by what its rows
hold under which name (`Table.Holds`).  If no name of a mapping is borne by two columns, this
decides the mappings, and also which error is found first (`ofRecords_reordered`).
-/

namespace SheetFormula.Mapping

/-- The header is the given name, whatever blanks surround it and in any case of letters. -/
def Names (header : List Char) (wanted : String) : Prop :=
  Text.equalFold (Text.trim header) wanted.toList = true

instance (header : List Char) (wanted : String) : Decidable (Names header wanted) :=
  inferInstanceAs (Decidable (_ = true))

/-- The names of the columns that a mapping is read from. -/
def columnNames : List String :=
  ["field", "location", "name", "let_name"]

/-- A table whose rows all have as many cells as its header. -/
structure Table (width : Nat) where
  header : Fin width → List Char
  rows : List (Fin width → List Char)

section Record

variable {headers record : List (List Char)} {columns : Columns} {row : Nat} {mapping : Mapping}

/-- The cell of a record under the first header with a given name, if it is not blank. -/
def under? (headers record : List (List Char)) (wanted : String) : Option (List Char) :=
  (column? headers wanted).bind (cell? record)

/-- The mapping consists of the cells of the record under the four names. -/
structure Reads (headers record : List (List Char)) (mapping : Mapping) : Prop where
  field : under? headers record "field" = some mapping.field
  location : under? headers record "location" = some mapping.location
  name : under? headers record "name" = mapping.name
  letName : under? headers record "let_name" = mapping.letName

private theorem column_eq_ok {wanted : String} {place : Nat} :
    column headers wanted = .ok place ↔ column? headers wanted = some place := by
  unfold column
  cases column? headers wanted <;> simp

private theorem ofHeaders_eq_ok :
    Columns.ofHeaders headers = .ok columns ↔
      column? headers "field" = some columns.field ∧
        column? headers "location" = some columns.location ∧
        column? headers "name" = columns.name ∧ column? headers "let_name" = columns.letName := by
  simp only [Columns.ofHeaders, bind_eq_ok, column_eq_ok, pure_eq_ok]
  constructor
  · rintro ⟨field, isField, location, isLocation, rfl⟩
    exact ⟨isField, isLocation, rfl, rfl⟩
  · rintro ⟨isField, isLocation, isName, isLetName⟩
    exact ⟨_, isField, _, isLocation, by rw [isName, isLetName]⟩

private theorem ofHeaders_eq_error {error : TableError} :
    Columns.ofHeaders headers = .error error ↔
      column? headers "field" = none ∧ error = .missingColumn "field" ∨
        column? headers "field" ≠ none ∧ column? headers "location" = none ∧
          error = .missingColumn "location" := by
  unfold Columns.ofHeaders column
  cases column? headers "field" <;> cases column? headers "location" <;>
    simp [bind, Except.bind, pure, Except.pure, eq_comm]

/-- Two headers with the same names lack the same column, or neither lacks one. -/
theorem ofHeaders_cases {others : List (List Char)}
    (same : ∀ wanted, column? others wanted = none ↔ column? headers wanted = none) :
    (∃ error, Columns.ofHeaders others = .error error ∧
      Columns.ofHeaders headers = .error error) ∨
    ∃ moved columns, Columns.ofHeaders others = .ok moved ∧
      Columns.ofHeaders headers = .ok columns := by
  have errors (error : TableError) :
      Columns.ofHeaders others = .error error ↔ Columns.ofHeaders headers = .error error := by
    simp only [ofHeaders_eq_error, ne_eq, same]
  cases read : Columns.ofHeaders headers with
  | error error => exact .inl ⟨error, (errors error).mpr read, rfl⟩
  | ok columns =>
      cases moved : Columns.ofHeaders others with
      | error error => rw [(errors error).mp moved] at read; cases read
      | ok placed => exact .inr ⟨placed, columns, rfl, rfl⟩

private theorem required_eq_ok {wanted : String} {value : Option (List Char)} {text : List Char} :
    required row wanted value = .ok text ↔ value = some text := by
  cases value <;> simp [required]

/-- A cell of a record counts without the blanks around it, and only if anything else is in it. -/
theorem cell?_eq_some {place : Nat} {value : List Char} :
    cell? record place = some value ↔
      ∃ cell, record[place]? = some cell ∧ Text.trim cell = value ∧ value ≠ [] := by
  simp only [cell?, Option.filter_eq_some_iff, Option.map_eq_some_iff]
  grind

/-- The mapping of a record is made from what it holds under the four names. -/
theorem ofRecord_eq (named : Columns.ofHeaders headers = .ok columns) :
    ofRecord columns row record = (do
      let field ← required row "field" (under? headers record "field")
      let location ← required row "location" (under? headers record "location")
      return {
        field, location
        name := under? headers record "name"
        letName := under? headers record "let_name" }) := by
  obtain ⟨isField, isLocation, isName, isLetName⟩ := ofHeaders_eq_ok.mp named
  simp only [under?, isField, isLocation, isName, isLetName, Option.bind_some]
  rfl

private theorem ofRecord_eq_ok (named : Columns.ofHeaders headers = .ok columns) :
    ofRecord columns row record = .ok mapping ↔ Reads headers record mapping := by
  simp only [ofRecord_eq named, bind_eq_ok, required_eq_ok, pure_eq_ok]
  constructor
  · rintro ⟨field, isField, location, isLocation, rfl⟩
    exact ⟨isField, isLocation, rfl, rfl⟩
  · intro reads
    exact ⟨_, reads.field, _, reads.location, by rw [reads.name, reads.letName]⟩

/-- The mappings of records are those of the records that are not blank, in their order. -/
theorem ofRows_eq_ok (named : Columns.ofHeaders headers = .ok columns)
    {records : List (List (List Char))} {mappings : List Mapping} :
    ofRows columns row records = .ok mappings ↔
      List.Forall₂ (Reads headers)
        (records.filter fun record => !record.all Text.isBlankText) mappings := by
  induction records generalizing row mappings with
  | nil => simp [ofRows, eq_comm]
  | cons record rest ih =>
      rw [ofRows]
      by_cases blank : record.all Text.isBlankText = true
      · rw [if_pos blank, ih, List.filter_cons_of_neg (by simp [blank])]
      · rw [if_neg blank, List.filter_cons_of_pos (by simp [blank]), List.forall₂_cons_left_iff]
        simp only [bind_eq_ok, pure_eq_ok, ofRecord_eq_ok named, ih, exists_and_left,
          @eq_comm _ mappings]

/-- Records that agree on being blank and on their mappings, or on why they have none, are the same
table. -/
theorem ofRows_congr {moved : Columns} {records others : List (List (List Char))}
    (agree : List.Forall₂ (fun record other =>
      record.all Text.isBlankText = other.all Text.isBlankText ∧
        ∀ row, ofRecord columns row record = ofRecord moved row other) records others) :
    ofRows columns row records = ofRows moved row others := by
  induction agree generalizing row with
  | nil => rfl
  | cons own _ ih => rw [ofRows, ofRows, own.1, own.2, ih]

private theorem ofRecords_cons (headers : List (List Char)) (records : List (List (List Char))) :
    ofRecords (headers :: records) =
      (do ofRows (← Columns.ofHeaders headers) 2 records) :=
  rfl

end Record

namespace Table

variable {width : Nat} {table : Table width} {order : Equiv.Perm (Fin width)}
  {row : Fin width → List Char} {wanted : String}

/-- The records of the table, of which the first is the header. -/
def records (table : Table width) : List (List (List Char)) :=
  List.ofFn table.header :: table.rows.map List.ofFn

/-- The table with its columns in another order. -/
def reordered (table : Table width) (order : Equiv.Perm (Fin width)) : Table width where
  header := table.header ∘ order
  rows := table.rows.map (· ∘ order)

/-- No two columns bear the same of the names that a mapping is read from. -/
def NamesOnce (table : Table width) : Prop :=
  ∀ wanted ∈ columnNames, ∀ first second,
    Names (table.header first) wanted → Names (table.header second) wanted → first = second

/-- The table has a column of the given name. -/
def HasColumn (table : Table width) (wanted : String) : Prop :=
  ∃ place, Names (table.header place) wanted

/-- The row holds the value, which is not empty, in a column of the given name. -/
def Holds (table : Table width) (row : Fin width → List Char) (wanted : String)
    (value : List Char) : Prop :=
  ∃ place, Names (table.header place) wanted ∧ Text.trim (row place) = value ∧ value ≠ []

/-- The rows with a cell that is not blank. -/
def filledRows (table : Table width) : List (Fin width → List Char) :=
  table.rows.filter fun row => ∃ place, Text.isBlankText (row place) = false

/-- The mapping consists of what the row holds under the four names. -/
structure Describes (table : Table width) (row : Fin width → List Char) (mapping : Mapping) :
    Prop where
  field : table.Holds row "field" mapping.field
  location : table.Holds row "location" mapping.location
  name (value : List Char) : mapping.name = some value ↔ table.Holds row "name" value
  letName (value : List Char) : mapping.letName = some value ↔ table.Holds row "let_name" value

private theorem hasColumn_reordered :
    (table.reordered order).HasColumn wanted ↔ table.HasColumn wanted :=
  (order.surjective.exists (p := fun place => Names (table.header place) wanted)).symm

private theorem holds_reordered {value : List Char} :
    (table.reordered order).Holds (row ∘ order) wanted value ↔ table.Holds row wanted value :=
  (order.surjective.exists (p := fun place =>
    Names (table.header place) wanted ∧ Text.trim (row place) = value ∧ value ≠ [])).symm

private theorem NamesOnce.reordered (once : table.NamesOnce) :
    (table.reordered order).NamesOnce := by
  intro wanted known first second named other
  exact order.injective (once wanted known _ _ named other)

private theorem column?_eq_none :
    column? (List.ofFn table.header) wanted = none ↔ ¬table.HasColumn wanted := by
  simp [column?, List.findIdx?_eq_none_iff, HasColumn, Names]

private theorem column?_eq_some (once : table.NamesOnce) (known : wanted ∈ columnNames)
    {place : Nat} :
    column? (List.ofFn table.header) wanted = some place ↔
      ∃ column : Fin width, column.val = place ∧ Names (table.header column) wanted := by
  rw [column?, List.findIdx?_eq_some_iff_getElem]
  constructor
  · rintro ⟨bound, named, _⟩
    rw [List.getElem_ofFn] at named
    exact ⟨⟨place, by simpa using bound⟩, rfl, named⟩
  · rintro ⟨column, rfl, named⟩
    -- The search stops at the first column of the name; an earlier one would be a second one.
    refine ⟨by simp, by rwa [List.getElem_ofFn], fun before earlier namedToo => ?_⟩
    rw [List.getElem_ofFn] at namedToo
    have same := once wanted known _ _ namedToo named
    exact absurd (congrArg Fin.val same) (Nat.ne_of_lt earlier)

private theorem under?_eq_some (once : table.NamesOnce) (known : wanted ∈ columnNames)
    {value : List Char} :
    under? (List.ofFn table.header) (List.ofFn row) wanted = some value ↔
      table.Holds row wanted value := by
  simp only [under?, Option.bind_eq_some_iff, column?_eq_some once known, cell?_eq_some]
  constructor
  · rintro ⟨_, ⟨place, rfl, named⟩, cell, own, trimmed, filled⟩
    rw [List.getElem?_ofFn] at own
    obtain rfl : row place = cell := by simpa using own
    exact ⟨place, named, trimmed, filled⟩
  · rintro ⟨place, named, trimmed, filled⟩
    exact ⟨place, ⟨place, rfl, named⟩, row place, by simp, trimmed, filled⟩

private theorem under?_reordered (once : table.NamesOnce) (known : wanted ∈ columnNames) :
    under? (List.ofFn (table.reordered order).header) (List.ofFn (row ∘ order)) wanted =
      under? (List.ofFn table.header) (List.ofFn row) wanted := by
  ext value
  rw [under?_eq_some once.reordered known, under?_eq_some once known, holds_reordered]

private theorem all_reordered (blank : List Char → Bool) :
    (List.ofFn (row ∘ order)).all blank = (List.ofFn row).all blank :=
  (order.ofFn_comp_perm row).all_eq

private theorem records_reordered :
    (table.reordered order).records =
      List.ofFn (table.reordered order).header ::
        table.rows.map fun row => List.ofFn (row ∘ order) := by
  simp [records, reordered]

private theorem under?_eq (once : table.NamesOnce) (known : wanted ∈ columnNames)
    (held : Option (List Char)) :
    under? (List.ofFn table.header) (List.ofFn row) wanted = held ↔
      ∀ value, held = some value ↔ table.Holds row wanted value := by
  rw [Option.ext_iff]
  refine forall_congr' fun value => ?_
  rw [under?_eq_some once known]
  exact Iff.comm

/-- What is read from a row is what it holds. -/
theorem reads_iff (once : table.NamesOnce) {mapping : Mapping} :
    Reads (List.ofFn table.header) (List.ofFn row) mapping ↔ table.Describes row mapping := by
  constructor
  · rintro ⟨field, location, name, letName⟩
    rw [under?_eq_some once (by decide)] at field location
    rw [under?_eq once (by decide)] at name letName
    exact ⟨field, location, name, letName⟩
  · rintro ⟨field, location, name, letName⟩
    rw [← under?_eq_some once (by decide)] at field location
    rw [← under?_eq once (by decide)] at name letName
    exact ⟨field, location, name, letName⟩

private theorem ofHeaders_isOk :
    (∃ columns, Columns.ofHeaders (List.ofFn table.header) = .ok columns) ↔
      table.HasColumn "field" ∧ table.HasColumn "location" := by
  have named (wanted : String) : (∃ place, column? (List.ofFn table.header) wanted = some place) ↔
      table.HasColumn wanted := by
    rw [← Option.ne_none_iff_exists', ne_eq, column?_eq_none, not_not]
  rw [← named, ← named]
  constructor
  · rintro ⟨columns, read⟩
    obtain ⟨field, location, _⟩ := ofHeaders_eq_ok.mp read
    exact ⟨⟨_, field⟩, ⟨_, location⟩⟩
  · rintro ⟨⟨field, isField⟩, ⟨location, isLocation⟩⟩
    exact ⟨⟨field, location, _, _⟩, ofHeaders_eq_ok.mpr ⟨isField, isLocation, rfl, rfl⟩⟩

private theorem filter_records :
    (table.rows.map List.ofFn).filter (fun record => !record.all Text.isBlankText) =
      table.filledRows.map List.ofFn := by
  rw [List.filter_map, filledRows]
  congr 2
  ext row
  rw [Bool.eq_iff_iff]
  simp

/-- The mappings of a table are what its rows hold, one for each row that is not blank. -/
theorem ofRecords_eq_ok (once : table.NamesOnce) {mappings : List Mapping} :
    ofRecords table.records = .ok mappings ↔
      table.HasColumn "field" ∧ table.HasColumn "location" ∧
        List.Forall₂ table.Describes table.filledRows mappings := by
  have rows {columns : Columns} (read : Columns.ofHeaders (List.ofFn table.header) = .ok columns) :
      ofRows columns 2 (table.rows.map List.ofFn) = .ok mappings ↔
        List.Forall₂ table.Describes table.filledRows mappings := by
    rw [ofRows_eq_ok read, filter_records, List.forall₂_map_left_iff]
    simp only [reads_iff once]
  rw [← and_assoc, ← ofHeaders_isOk, records, ofRecords_cons, bind_eq_ok]
  constructor
  · rintro ⟨columns, read, result⟩
    exact ⟨⟨columns, read⟩, (rows read).mp result⟩
  · rintro ⟨⟨columns, read⟩, described⟩
    exact ⟨columns, read, (rows read).mpr described⟩

private theorem ofRecords_reordered_eq (once : table.NamesOnce) :
    ofRecords (table.reordered order).records = ofRecords table.records := by
  have same (wanted : String) :
      column? (List.ofFn (table.reordered order).header) wanted = none ↔
        column? (List.ofFn table.header) wanted = none := by
    rw [column?_eq_none, column?_eq_none, hasColumn_reordered]
  rw [records_reordered, records, ofRecords_cons, ofRecords_cons]
  rcases ofHeaders_cases same with ⟨error, moved, read⟩ | ⟨placed, columns, moved, read⟩
  · rw [moved, read]
    rfl
  · rw [moved, read]
    apply ofRows_congr
    rw [List.forall₂_map_left_iff, List.forall₂_map_right_iff, List.forall₂_same]
    intro cells _
    refine ⟨all_reordered _, fun row => ?_⟩
    rw [ofRecord_eq moved, ofRecord_eq read, under?_reordered once (by decide),
      under?_reordered once (by decide), under?_reordered once (by decide),
      under?_reordered once (by decide)]

end Table

variable {width : Nat} {table : Table width}

/-- The order of the columns does not matter, neither for the mappings nor for the error: what the
rows hold under the names of the columns decides. -/
theorem ofRecords_reordered (once : table.NamesOnce) (order : Equiv.Perm (Fin width)) :
    ofRecords (table.reordered order).records = ofRecords table.records ∧
      (∀ mappings, ofRecords table.records = .ok mappings ↔
        table.HasColumn "field" ∧ table.HasColumn "location" ∧
          List.Forall₂ table.Describes table.filledRows mappings) ∧
      ∀ text other, Csv.records text = table.records →
        Csv.records other = (table.reordered order).records → ofCsv other = ofCsv text := by
  refine ⟨Table.ofRecords_reordered_eq once, fun mappings => Table.ofRecords_eq_ok once, ?_⟩
  intro text other isTable isReordered
  rw [ofCsv, ofCsv, isTable, isReordered, Table.ofRecords_reordered_eq once]

/-- A row without a field, behind a blank row and before one without a location. -/
theorem ofRecords_reordered_first_defect :
    ofCsv "Field,Note,LOCATION\nRegion,x,B:B\n , ,\n,y,C:C\nZone,,\n".toList =
        .error (.missingValue 4 "field") ∧
      ofCsv "Note,LOCATION,Field\nx,B:B,Region\n ,, \ny,C:C,\n,,Zone\n".toList =
        ofCsv "Field,Note,LOCATION\nRegion,x,B:B\n , ,\n,y,C:C\nZone,,\n".toList := by
  have once : Table.NamesOnce ⟨!["Field".toList, "Note".toList, "LOCATION".toList],
      [!["Region".toList, "x".toList, "B:B".toList], ![" ".toList, " ".toList, []],
        ![[], "y".toList, "C:C".toList], !["Zone".toList, [], []]]⟩ := by
    unfold Table.NamesOnce
    decide
  refine ⟨by rfl, (ofRecords_reordered once ⟨![1, 2, 0], ![2, 0, 1], ?_, ?_⟩).2.2 _ _
    (by rfl) (by rfl)⟩
  · unfold Function.LeftInverse
    decide
  · unfold Function.RightInverse Function.LeftInverse
    decide

end SheetFormula.Mapping
