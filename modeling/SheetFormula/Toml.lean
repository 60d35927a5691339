import SheetFormula.Text.Search

/-!
# Tables of a TOML document

A document is a tree of tables.  A table remembers how it came about, because that decides how it
may grow: a header opens a table once, dotted keys extend only tables that no header has opened,
and inline tables are closed.
-/

namespace SheetFormula.Toml

/-- A value that is not composed of others.  Floats and times are kept as they are written. -/
inductive Scalar where
  | string (text : List Char)
  | integer (value : Int)
  | boolean (value : Bool)
  | float (written : List Char)
  | dateTime (written : List Char)
  deriving DecidableEq, Repr

/-- How a table came about. -/
inductive Origin where
  /-- On the way to a table that a header opens. -/
  | implied
  /-- By a header of its own. -/
  | header
  /-- On the way to a value with a dotted key. -/
  | dotted
  /-- Between braces. -/
  | inline
  deriving DecidableEq, Repr

/-- What a key of a table stands for. -/
inductive Node where
  | scalar (value : Scalar)
  | array (items : List Node)
  | table (origin : Origin) (entries : List (List Char × Node))
  /-- The tables that headers with double brackets have opened, latest first. -/
  | tables (items : List (List (List Char × Node)))

/-- The entries of a table, in the order of their definition. -/
abbrev Table := List (List Char × Node)

namespace Table

/-- What a key stands for. -/
def find? (table : Table) (key : List Char) : Option Node :=
  table.lookup key

/-- The table with what a key stands for replaced. -/
def replace (table : Table) (key : List Char) (node : Node) : Table :=
  table.map fun entry => if entry.1 = key then (key, node) else entry

/-- The table with a further key. -/
def add (table : Table) (key : List Char) (node : Node) : Table :=
  table ++ [(key, node)]

/-- Define a dotted key.  It must be new, and the tables on the way must not be closed or opened by
a header. -/
def define : (path : List (List Char)) → Node → Table → Option Table
  | [], _, _ => none
  | [key], node, table => if (table.find? key).isNone then some (table.add key node) else none
  | key :: path, node, table =>
      match table.find? key with
      | none => (define path node []).map fun inner => table.add key (.table .dotted inner)
      | some (.table .dotted inner) =>
          (define path node inner).map fun inner => table.replace key (.table .dotted inner)
      | some (.table .implied inner) =>
          (define path node inner).map fun inner => table.replace key (.table .implied inner)
      | some _ => none

/-- Open the table of a header with single brackets. -/
def openTable : (path : List (List Char)) → Table → Option Table
  | [], _ => none
  | [key], table =>
      match table.find? key with
      | none => some (table.add key (.table .header []))
      | some (.table .implied inner) => some (table.replace key (.table .header inner))
      | some _ => none
  | key :: path, table =>
      match table.find? key with
      | none => (openTable path []).map fun inner => table.add key (.table .implied inner)
      | some (.table .inline _) => none
      | some (.table origin inner) =>
          (openTable path inner).map fun inner => table.replace key (.table origin inner)
      | some (.tables (latest :: earlier)) =>
          (openTable path latest).map fun latest => table.replace key (.tables (latest :: earlier))
      | some _ => none

/-- Open the table of a header with double brackets. -/
def openItem : (path : List (List Char)) → Table → Option Table
  | [], _ => none
  | [key], table =>
      match table.find? key with
      | none => some (table.add key (.tables [[]]))
      | some (.tables items) => some (table.replace key (.tables ([] :: items)))
      | some _ => none
  | key :: path, table =>
      match table.find? key with
      | none => (openItem path []).map fun inner => table.add key (.table .implied inner)
      | some (.table .inline _) => none
      | some (.table origin inner) =>
          (openItem path inner).map fun inner => table.replace key (.table origin inner)
      | some (.tables (latest :: earlier)) =>
          (openItem path latest).map fun latest => table.replace key (.tables (latest :: earlier))
      | some _ => none

/-- Change the table that a header has opened. -/
def within (change : Table → Option Table) : (path : List (List Char)) → Table → Option Table
  | [], table => change table
  | key :: path, table =>
      match table.find? key with
      | some (.table origin inner) =>
          (within change path inner).map fun inner => table.replace key (.table origin inner)
      | some (.tables (latest :: earlier)) =>
          (within change path latest).map fun latest =>
            table.replace key (.tables (latest :: earlier))
      | _ => none

end Table

end SheetFormula.Toml
