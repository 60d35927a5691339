import SheetFormula.Toml.Scalar

/-!
# Reading a TOML document

A document is a sequence of lines: comments, headers, and keys with values.  Any fault makes the
whole document unreadable.
-/

namespace SheetFormula.Toml

/-- The text without leading blanks. -/
def skipSpace (text : List Char) : List Char :=
  text.dropWhile isSpace

/-- A character of a key without quotes. -/
def isKeyChar (c : Char) : Bool :=
  c.isAlphanum || c == '_' || c == '-'

/-- Read one part of a key. -/
def readKeyPart : List Char → Option (List Char × List Char)
  | '"' :: rest => readQuotedLine ('"' :: rest)
  | '\'' :: rest => readQuotedLine ('\'' :: rest)
  | text =>
      let key := text.takeWhile isKeyChar
      if key.isEmpty then none else some (key, text.dropWhile isKeyChar)

/-- Read a key with parts divided by points, blanks before and behind it included. -/
def readKey : (fuel : Nat) → List Char → Option (List (List Char) × List Char)
  | 0, _ => none
  | fuel + 1, text => do
      let (part, rest) ← readKeyPart (skipSpace text)
      match skipSpace rest with
      | '.' :: rest =>
          let (parts, rest) ← readKey fuel rest
          return (part :: parts, rest)
      | rest => return ([part], rest)

/-- The rest of a text behind a comment up to the end of its line. -/
def skipComment : List Char → List Char
  | '#' :: rest => rest.dropWhile isTextChar
  | text => text

/-- The rest of a text behind blanks, a comment if there is one, and the end of the line. -/
def endLine? (text : List Char) : Option (List Char) :=
  match skipComment (skipSpace text) with
  | [] => some []
  | rest => dropLineEnd? rest

/-- The rest of a text behind blanks, comments and line ends, `inComment` or not. -/
def skipLines : (inComment : Bool) → List Char → Option (List Char)
  | _, [] => some []
  | _, '\n' :: rest => skipLines false rest
  | _, '\r' :: '\n' :: rest => skipLines false rest
  | true, c :: rest => if isTextChar c then skipLines true rest else none
  | false, c :: rest =>
      if isSpace c then skipLines false rest
      else if c = '#' then skipLines true rest
      else some (c :: rest)

/-- Read a value that is not composed of others. -/
def readScalar (text : List Char) : Option (Scalar × List Char) :=
  if text.head? = some '"' ∨ text.head? = some '\'' then
    (readQuoted text).map fun (value, rest) => (.string value, rest)
  else readPlain text

mutual

/-- Read a value.  Each call of a reader uses up one unit of fuel. -/
def readNode : (fuel : Nat) → List Char → Option (Node × List Char)
  | 0, _ => none
  | fuel + 1, text =>
      match text with
      | '[' :: rest => (readItems fuel rest).map fun (items, rest) => (.array items, rest)
      | '{' :: rest =>
          match skipSpace rest with
          | '}' :: rest => some (.table .inline [], rest)
          | rest =>
              (readEntries fuel [] rest).map fun (entries, rest) => (.table .inline entries, rest)
      | text => (readScalar text).map fun (value, rest) => (.scalar value, rest)

/-- Read the items of an array to behind its closing bracket.  A comma may follow the last item. -/
def readItems : (fuel : Nat) → List Char → Option (List Node × List Char)
  | 0, _ => none
  | fuel + 1, text => do
      match ← skipLines false text with
      | ']' :: rest => return ([], rest)
      | text =>
          let (item, rest) ← readNode fuel text
          match ← skipLines false rest with
          | ',' :: rest =>
              let (items, rest) ← readItems fuel rest
              return (item :: items, rest)
          | ']' :: rest => return ([item], rest)
          | _ => none

/-- Read the entries of an inline table, one at least, to behind its closing brace. -/
def readEntries : (fuel : Nat) → Table → List Char → Option (Table × List Char)
  | 0, _, _ => none
  | fuel + 1, table, text => do
      let (path, rest) ← readKey fuel text
      match rest with
      | '=' :: rest =>
          let (node, rest) ← readNode fuel (skipSpace rest)
          let table ← table.define path node
          match skipSpace rest with
          | ',' :: rest => readEntries fuel table rest
          | '}' :: rest => return (table, rest)
          | _ => none
      | _ => none

end

/-- A document as far as it has been read: its tables, and the header that the next key stands
under. -/
structure Document where
  root : Table := []
  header : List (List Char) := []

namespace Document

/-- Read the key and the value of a line. -/
def readEntry (document : Document) (fuel : Nat) (text : List Char) :
    Option (Document × List Char) := do
  let (path, rest) ← readKey fuel text
  match rest with
  | '=' :: rest =>
      let (node, rest) ← readNode (2 * fuel) (skipSpace rest)
      let root ← document.root.within (Table.define path node) document.header
      return ({ document with root }, rest)
  | _ => none

/-- Read a header from behind its opening bracket. -/
def readTableHeader (document : Document) (fuel : Nat) (text : List Char) :
    Option (Document × List Char) := do
  match ← readKey fuel text with
  | (path, ']' :: rest) => return ({ root := ← document.root.openTable path, header := path }, rest)
  | _ => none

/-- Read a header from behind its two opening brackets. -/
def readItemHeader (document : Document) (fuel : Nat) (text : List Char) :
    Option (Document × List Char) := do
  match ← readKey fuel text with
  | (path, ']' :: ']' :: rest) =>
      return ({ root := ← document.root.openItem path, header := path }, rest)
  | _ => none

/-- Read the part of a line that is neither blank nor a comment. -/
def readLine (document : Document) (fuel : Nat) : List Char → Option (Document × List Char)
  | '[' :: '[' :: rest => document.readItemHeader fuel rest
  | '[' :: rest => document.readTableHeader fuel rest
  | text => document.readEntry fuel text

/-- Read the lines of a document.  Each line uses up one unit of fuel and at least one character, so
what is left over is fuel enough for the readers within the line. -/
def readLines : (fuel : Nat) → Document → List Char → Option Document
  | 0, _, _ => none
  | fuel + 1, document, text => do
      match ← skipLines false text with
      | [] => return document
      | text =>
          let (document, rest) ← document.readLine (fuel + 1) text
          readLines fuel document (← endLine? rest)

end Document

/-- The tables of a document, if all of its lines can be read. -/
def parse? (text : List Char) : Option Table :=
  let text := Text.dropMark text
  (Document.readLines (text.length + 1) {} text).map Document.root

end SheetFormula.Toml
