import SheetFormula.Token

/-!
# Token listings

A token stream as indented JSON: an array of objects with the text, the kind and the role of each
token, in this order.
-/

namespace SheetFormula.Listing

/-- A control character by its code point. -/
def controlEscape (c : Char) : List Char :=
  let digits := Nat.toDigits 16 c.toNat
  ['\\', 'u'] ++ List.replicate (4 - digits.length) '0' ++ digits

/-- A character inside a JSON string. -/
def stringChar (c : Char) : List Char :=
  if c = '"' then ['\\', '"']
  else if c = '\\' then ['\\', '\\']
  else if c = '\x08' then ['\\', 'b']
  else if c = '\t' then ['\\', 't']
  else if c = '\n' then ['\\', 'n']
  else if c = '\x0c' then ['\\', 'f']
  else if c = '\r' then ['\\', 'r']
  else if c.toNat < 0x20 then controlEscape c
  else [c]

/-- A JSON string. -/
def string (text : List Char) : List Char :=
  '"' :: text.flatMap stringChar ++ ['"']

/-- A line of an object: a key and its value, indented by four blanks. -/
def member (key : String) (value : List Char) : List Char :=
  "    ".toList ++ string key.toList ++ ": ".toList ++ value

/-- The object of a token, indented by two blanks. -/
def object (token : Token) : List Char :=
  let role := match token.role with
    | none => "null".toList
    | some role => string role.name.toList
  "  ".toList ++ ['\x7b', '\n'] ++
    member "value" (string token.value) ++ ",\n".toList ++
    member "type" (string token.kind.name.toList) ++ ",\n".toList ++
    member "subtype" role ++ "\n  ".toList ++ ['\x7d']

end SheetFormula.Listing

namespace SheetFormula

/-- The stream as indented JSON. -/
def tokenListing (tokens : List Token) : List Char :=
  if tokens.isEmpty then "[]".toList
  else "[\n".toList ++ ",\n".toList.intercalate (tokens.map Listing.object) ++ "\n]".toList

end SheetFormula
