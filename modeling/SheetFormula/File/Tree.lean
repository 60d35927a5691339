import SheetFormula.File

/-!
# Files in memory

A tree holds files and directories, so that an invocation can be run without a file system.  A path
is followed part by part, from the top if it starts with a slash and from the working directory
otherwise.  Every part but the last has to lead to a directory; a slash at the end makes the last
part a directory too.
-/

namespace SheetFormula

/-- Files and directories, each with the parts of its path from the top, and the directory in which
relative paths start. -/
structure FileTree where
  workingDirectory : List (List Char)
  entries : List (List (List Char) × FileEntry)

namespace FileTree

/-- The largest number of bytes of a path. -/
def pathLimit : Nat :=
  4095

/-- The largest number of bytes of one part of a path. -/
def partLimit : Nat :=
  255

/-- What is found at a place, given by the parts of its path from the top.  What lies above an entry
or above the working directory is a directory. -/
def entryAt (tree : FileTree) (place : List (List Char)) : FileEntry :=
  match tree.entries.lookup place with
  | some entry => entry
  | none =>
      if place.isPrefixOf tree.workingDirectory ||
          tree.entries.any fun entry => place.isPrefixOf entry.1 then
        .directory
      else .absent .notFound

/-- Enter a directory by the name of one of its entries. -/
def enter (tree : FileTree) (place : List (List Char)) (name : List Char) :
    Except PathFault (List (List Char)) :=
  if partLimit < Text.byteCount name then .error .nameTooLong
  else
    match tree.entryAt (place ++ [name]) with
    | .absent fault => .error fault
    | _ => .ok (place ++ [name])

/-- Follow one part of a path from a place.  Two points lead one level up, and from the top nowhere
else. -/
def follow (tree : FileTree) (place : List (List Char)) (part : List Char) :
    Except PathFault (List (List Char)) :=
  match tree.entryAt place with
  | .absent fault => .error fault
  | .contents _ => .error .notDirectory
  | .directory =>
      if part.isEmpty ∨ part = ".".toList then .ok place
      else if part = "..".toList then .ok place.dropLast
      else tree.enter place part

/-- The place where a path starts. -/
def start (tree : FileTree) (path : List Char) : List (List Char) :=
  if path.head? = some '/' then [] else tree.workingDirectory

/-- The place that a path leads to. -/
def locate (tree : FileTree) (path : List Char) : Except PathFault (List (List Char)) :=
  (path.splitOn '/').foldlM tree.follow (tree.start path)

/-- What is found under a path. -/
def find (tree : FileTree) (path : List Char) : FileEntry :=
  if path.isEmpty then .absent .notFound
  else if pathLimit < Text.byteCount path then .absent .nameTooLong
  else
    match tree.locate path with
    | .ok place => tree.entryAt place
    | .error fault => .absent fault

end FileTree

end SheetFormula
