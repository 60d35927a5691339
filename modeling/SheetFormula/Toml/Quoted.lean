import SheetFormula.Json

/-!
# Quoted texts of a TOML document

A text between double quotes has escapes and a text between single quotes has none.  Three quotes
open a text that may run over several lines.  A quoted text is first cut out of the document, and
then its escapes and line ends are resolved.
-/

namespace SheetFormula.Toml

/-- A blank within a line. -/
def isSpace (c : Char) : Bool :=
  c == ' ' || c == '\t'

/-- A character that may stand in a text or in a comment. -/
def isTextChar (c : Char) : Bool :=
  c == '\t' || (0x20 ≤ c.toNat && c.toNat != 0x7F)

/-- The rest of the document behind a line end. -/
def dropLineEnd? : List Char → Option (List Char)
  | '\n' :: rest => some rest
  | '\r' :: '\n' :: rest => some rest
  | _ => none

/-- Cut out a text on one line, up to its closing quote.  With escapes, a backslash protects the
character after it, unless that is a line end.  The characters cut out are held latest first. -/
def cutLine (quote : Char) (escapes : Bool) (held : List Char) :
    List Char → Option (List Char × List Char)
  | [] => none
  | [c] => if c = quote then some (held.reverse, []) else none
  | c :: d :: rest =>
      if c = quote then some (held.reverse, d :: rest)
      else if c = '\n' ∨ c = '\r' then none
      else if escapes ∧ c = '\\' then
        if d = '\n' then none else cutLine quote escapes (d :: c :: held) rest
      else cutLine quote escapes (c :: held) (d :: rest)

/-- Cut out a text over several lines, up to its closing quotes, of which `run` have been read.  Up
to two quotes before the closing three belong to the text. -/
def cutLines (quote : Char) (escapes : Bool) (held : List Char) :
    (run : Nat) → List Char → Option (List Char × List Char)
  | run, [] => if 3 ≤ run then some ((held.drop 3).reverse, []) else none
  | run, [c] =>
      if c = quote ∧ run < 5 then
        if 3 ≤ run + 1 then some (((c :: held).drop 3).reverse, []) else none
      else if 3 ≤ run then some ((held.drop 3).reverse, [c])
      else none
  | run, c :: d :: rest =>
      if c = quote ∧ run < 5 then cutLines quote escapes (c :: held) (run + 1) (d :: rest)
      else if 3 ≤ run then some ((held.drop 3).reverse, c :: d :: rest)
      else if escapes ∧ c = '\\' then cutLines quote escapes (d :: c :: held) 0 rest
      else cutLines quote escapes (c :: held) 0 (d :: rest)

/-- The character of a code point, if there is one. -/
def charOf? (code : Nat) : Option Char :=
  if code.isValidChar then some (Char.ofNat code) else none

/-- The character that a letter after a backslash stands for. -/
def shortEscape? (c : Char) : Option Char :=
  if c = 'b' then some '\x08'
  else if c = 't' then some '\t'
  else if c = 'n' then some '\n'
  else if c = 'f' then some '\x0c'
  else if c = 'r' then some '\r'
  else if c = '"' then some '"'
  else if c = '\\' then some '\\'
  else none

/-- Nothing but blanks stands before the next line end. -/
def atLineEnd (text : List Char) : Bool :=
  (dropLineEnd? (text.dropWhile isSpace)).isSome

/-- Resolve the escapes and line ends of a text cut out between double quotes.  A backslash at the
end of a line removes all blanks and line ends up to the next character, which `joining` follows. -/
def unescape : (joining : Bool) → List Char → Option (List Char)
  | _, [] => some []
  | joining, '\r' :: '\n' :: rest =>
      if joining then unescape true rest else (unescape false rest).map ('\n' :: ·)
  | joining, '\n' :: rest =>
      if joining then unescape true rest else (unescape false rest).map ('\n' :: ·)
  | _, '\\' :: 'u' :: a :: b :: c :: d :: rest => do
      let code ← Json.hexCode? a b c d
      return (← charOf? code) :: (← unescape false rest)
  | _, '\\' :: 'U' :: a :: b :: c :: d :: e :: f :: g :: h :: rest => do
      let high ← Json.hexCode? a b c d
      let low ← Json.hexCode? e f g h
      return (← charOf? (high * 0x10000 + low)) :: (← unescape false rest)
  | joining, c :: d :: rest =>
      if joining ∧ isSpace c then unescape true (d :: rest)
      else if c = '\\' then
        if atLineEnd (d :: rest) then unescape true (d :: rest)
        else do return (← shortEscape? d) :: (← unescape false rest)
      else if isTextChar c then (unescape false (d :: rest)).map (c :: ·)
      else none
  | joining, [c] =>
      if joining ∧ isSpace c then some []
      else if c = '\\' then none
      else if isTextChar c then some [c]
      else none

/-- Resolve the line ends of a text cut out between single quotes. -/
def joinLines : List Char → Option (List Char)
  | [] => some []
  | '\r' :: '\n' :: rest => (joinLines rest).map ('\n' :: ·)
  | c :: rest => if isTextChar c || c == '\n' then (joinLines rest).map (c :: ·) else none

/-- The rest of the document behind one line end, if it starts with one. -/
def dropFirstLineEnd (text : List Char) : List Char :=
  (dropLineEnd? text).getD text

/-- Read a text on one line, in quotes of either kind. -/
def readQuotedLine : List Char → Option (List Char × List Char)
  | '"' :: rest => do
      let (raw, rest) ← cutLine '"' true [] rest
      return (← unescape false raw, rest)
  | '\'' :: rest => do
      let (raw, rest) ← cutLine '\'' false [] rest
      return (← joinLines raw, rest)
  | _ => none

/-- Read a quoted text. -/
def readQuoted : List Char → Option (List Char × List Char)
  | '"' :: '"' :: '"' :: rest => do
      let (raw, rest) ← cutLines '"' true [] 0 (dropFirstLineEnd rest)
      return (← unescape false raw, rest)
  | '\'' :: '\'' :: '\'' :: rest => do
      let (raw, rest) ← cutLines '\'' false [] 0 (dropFirstLineEnd rest)
      return (← joinLines raw, rest)
  | text => readQuotedLine text

end SheetFormula.Toml
