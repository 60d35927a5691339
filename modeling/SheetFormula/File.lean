import SheetFormula.Text.Search

/-!
# Files

What is found under a path, and why it cannot be read as text.
-/

namespace SheetFormula

/-- Why a path leads to nothing. -/
inductive PathFault where
  /-- A part of the path does not exist. -/
  | notFound
  /-- The path goes on behind a file. -/
  | notDirectory
  /-- The path, or one of its parts, has too many bytes. -/
  | nameTooLong
  deriving DecidableEq, Repr

/-- The wording of the fault. -/
def PathFault.message : PathFault → List Char
  | notFound => "No such file or directory (os error 2)".toList
  | notDirectory => "Not a directory (os error 20)".toList
  | nameTooLong => "File name too long (os error 36)".toList

/-- Why a file cannot be read as text. -/
inductive FileFault where
  | path (fault : PathFault)
  | isDirectory
  | notUtf8
  deriving DecidableEq, Repr

/-- The wording of the fault. -/
def FileFault.message : FileFault → List Char
  | path fault => fault.message
  | isDirectory => "Is a directory (os error 21)".toList
  | notUtf8 => "stream did not contain valid UTF-8".toList

/-- What is found under a path. -/
inductive FileEntry where
  | absent (fault : PathFault)
  | directory
  | contents (bytes : ByteArray)

namespace FileEntry

/-- The text of the entry. -/
def read : FileEntry → Except FileFault (List Char)
  | absent fault => .error (.path fault)
  | directory => .error .isDirectory
  | contents bytes =>
      match String.fromUTF8? bytes with
      | some text => .ok text.toList
      | none => .error .notUtf8

/-- The number of bytes of the entry; a directory has none of its own. -/
def size : FileEntry → Nat
  | contents bytes => bytes.size
  | _ => 0

end FileEntry

/-- The parts of a path between slashes, without empty parts and those that name the directory they
stand in. -/
def pathParts (path : List Char) : List (List Char) :=
  (path.splitOn '/').filter fun part => !part.isEmpty && part != ['.']

/-- The extension of the file that a path names: what follows the last point of its name, unless the
name has no other point than its first character. -/
def extension? (path : List Char) : Option (List Char) := do
  let name ← (pathParts path).getLast?
  if name = "..".toList then none
  else
    match name.reverse.dropWhile (· != '.') with
    | _ :: _ :: _ => some (name.reverse.takeWhile (· != '.')).reverse
    | _ => none

end SheetFormula
