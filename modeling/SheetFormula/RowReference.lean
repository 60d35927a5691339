import SheetFormula.Text.Word

/-!
# References to fields of the current row

A formula of a row-based sheet names a field of the current row as `[Field Name]@row`, or without
brackets if the name is a word.  Texts between double quotes hold no references, so a formula is
first divided into the stretches outside and inside of quotes.
-/

namespace SheetFormula

/-- A stretch of a formula. -/
inductive Segment where
  /-- A stretch without double quotes. -/
  | outside (text : List Char)
  /-- A stretch between double quotes, with the quotes it has. -/
  | quoted (text : List Char)
  deriving DecidableEq, Repr

namespace Segment

/-- The text of the stretch. -/
def text : Segment → List Char
  | outside text => text
  | quoted text => text

/-- Divide what follows the stretch `held`, whose last character comes first. -/
def divideFrom : (inQuotes : Bool) → (held : List Char) → List Char → List Segment
  | false, held, [] => if held.isEmpty then [] else [outside held.reverse]
  | true, held, [] => [quoted held.reverse]
  | false, held, c :: rest =>
      if c = '"' then outside held.reverse :: divideFrom true [c] rest
      else divideFrom false (c :: held) rest
  | true, held, c :: rest =>
      if c = '"' then quoted (c :: held).reverse :: divideFrom false [] rest
      else divideFrom true (c :: held) rest

/-- Divide a text at its double quotes. -/
def divide (text : List Char) : List Segment :=
  divideFrom false [] text

/-- Change the stretch if it lies outside of quotes. -/
def changeM {m : Type → Type} [Monad m] (change : List Char → m (List Char)) :
    Segment → m (List Char)
  | outside stretch => change stretch
  | quoted stretch => pure stretch

/-- Change the stretches outside of quotes, from the left, and keep the others.  The change may keep
a state from one stretch to the next. -/
def mapOutsideM {m : Type → Type} [Monad m] (change : List Char → m (List Char))
    (text : List Char) : m (List Char) := do
  let written ← (divide text).mapM (changeM change)
  return written.flatten

/-- Change each stretch outside of quotes by itself and keep the others. -/
def mapOutside (change : List Char → List Char) (text : List Char) : List Char :=
  Id.run (mapOutsideM (fun stretch => pure (change stretch)) text)

end Segment

/-- A reference to a field of the current row: how it is written, and the name in it. -/
structure RowReference where
  written : List Char
  field : List Char
  deriving DecidableEq, Repr

namespace RowReference

/-- The first character of a name without brackets. -/
def startsName (c : Char) : Bool :=
  c.isAlpha || c == '_'

/-- A character of a name without brackets. -/
def continuesName (c : Char) : Bool :=
  c.isAlpha || c.isDigit || c == '_' || c == '.'

/-- The row mark at the start of a text, as it is written.  A word character must not follow it. -/
def rowMark? : List Char → Option (List Char)
  | sign :: r :: o :: w :: rest =>
      if sign = '@' ∧ r.toLower = 'r' ∧ o.toLower = 'o' ∧ w.toLower = 'w' ∧
          ¬ Text.isWordNeighbour rest.head? then
        some [sign, r, o, w]
      else none
  | _ => none

/-- A reference in brackets, whose opening bracket has been read. -/
def bracketed? (text : List Char) : Option RowReference :=
  let field := text.takeWhile fun c => c != ']'
  match text.dropWhile fun c => c != ']' with
  | [] => none
  | close :: rest =>
      if field.isEmpty then none
      else (rowMark? rest).map fun mark => ⟨'[' :: field ++ [close] ++ mark, field⟩

/-- A reference without brackets, at the start of a text. -/
def bare? (text : List Char) : Option RowReference :=
  let field := text.takeWhile continuesName
  (rowMark? (text.dropWhile continuesName)).map fun mark => ⟨field ++ mark, field⟩

/-- The reference at the start of a text that follows the character `previous`.  A name without
brackets has to start a word. -/
def at? (previous : Option Char) : List Char → Option RowReference
  | [] => none
  | c :: rest =>
      if c = '[' then bracketed? rest
      else if startsName c && !Text.isWordNeighbour previous then bare? (c :: rest)
      else none

end RowReference

/-- A piece of a formula: a reference, or a character that belongs to none. -/
inductive Piece where
  | char (c : Char)
  | reference (found : RowReference)
  deriving DecidableEq, Repr

namespace Piece

/-- The piece as it is written. -/
def written : Piece → List Char
  | char c => [c]
  | reference found => found.written

/-- The reference, if the piece is one. -/
def reference? : Piece → Option RowReference
  | char _ => none
  | reference found => some found

/-- The pieces of a stretch that follows the character `previous`, of which the first `skipped`
characters belong to a reference already found. -/
def ofStretchFrom (previous : Option Char) : (skipped : Nat) → List Char → List Piece
  | _, [] => []
  | skipped + 1, c :: rest => ofStretchFrom (some c) skipped rest
  | 0, c :: rest =>
      match RowReference.at? previous (c :: rest) with
      | some found => reference found :: ofStretchFrom (some c) (found.written.length - 1) rest
      | none => char c :: ofStretchFrom (some c) 0 rest

/-- The pieces of a stretch outside of quotes: its references from the left, none overlapping the
one before, and the characters between them. -/
def ofStretch (text : List Char) : List Piece :=
  ofStretchFrom none 0 text

/-- The pieces of a formula.  Characters between quotes belong to no reference. -/
def ofFormula (text : List Char) : List Piece :=
  (Segment.divide text).flatMap fun
    | .outside stretch => ofStretch stretch
    | .quoted stretch => stretch.map char

end Piece

end SheetFormula
