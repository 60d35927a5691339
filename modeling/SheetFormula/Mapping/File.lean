import SheetFormula.File
import SheetFormula.Mapping.Json
import SheetFormula.Mapping.Table

/-!
# Mapping files

A file whose name has the extension `json`, in any case of letters, holds JSON; every other file
holds comma-separated records.
-/

namespace SheetFormula

/-- Why a mapping file cannot be used. -/
inductive MappingFileError where
  | unreadable (fault : FileFault)
  | table (error : TableError)
  deriving DecidableEq, Repr

/-- The wording of the error. -/
def MappingFileError.message : MappingFileError → List Char
  | unreadable fault => "IO error: ".toList ++ fault.message
  | table error => error.message

namespace Mapping

/-- The path names a file of JSON. -/
def isJsonPath (path : List Char) : Bool :=
  match extension? path with
  | some ext => Text.equalFold ext "json".toList
  | none => false

/-- The mappings of the file found under a path. -/
def ofFile (path : List Char) (entry : FileEntry) : Except MappingFileError (List Mapping) := do
  let text ← entry.read.mapError .unreadable
  (if isJsonPath path then ofJson text else ofCsv text).mapError .table

end Mapping

end SheetFormula
