import SheetFormula.Operand

/-!
# Reading JSON

The strict grammar: no comments, no trailing commas, no control characters in strings.  Numbers are
kept as they are written.  A string can escape half of a surrogate pair and then denotes no text.
-/

namespace SheetFormula

/-- A JSON value. -/
inductive Json where
  | null
  | bool (value : Bool)
  | number (written : List Char)
  /-- A string with its text, if it denotes one. -/
  | string (text : Option (List Char))
  | array (items : List Json)
  | object (members : List (Option (List Char) × Json))

namespace Json

/-- A unit of a string: a character, or the sixteen bits of an escape. -/
inductive Unit16 where
  | char (c : Char)
  | code (n : Nat)
  deriving DecidableEq, Repr

/-- The first half of a surrogate pair. -/
def isHighHalf (n : Nat) : Bool :=
  0xD800 ≤ n && n < 0xDC00

/-- The second half of a surrogate pair. -/
def isLowHalf (n : Nat) : Bool :=
  0xDC00 ≤ n && n < 0xE000

/-- The text that units denote, unless half of a surrogate pair stands alone. -/
def textOf : List Unit16 → Option (List Char)
  | [] => some []
  | .char c :: rest => (textOf rest).map (c :: ·)
  | .code high :: .code low :: rest =>
      if isHighHalf high then
        if isLowHalf low then
          (textOf rest).map (Char.ofNat (0x10000 + (high - 0xD800) * 0x400 + (low - 0xDC00)) :: ·)
        else none
      else if isLowHalf high then none
      else (textOf (.code low :: rest)).map (Char.ofNat high :: ·)
  | .code n :: rest =>
      if isHighHalf n || isLowHalf n then none else (textOf rest).map (Char.ofNat n :: ·)

/-- The value of a hexadecimal digit. -/
def hexValue? (c : Char) : Option Nat :=
  if c.isDigit then some (c.toNat - 48)
  else if 'a' ≤ c && c ≤ 'f' then some (c.toNat - 87)
  else if 'A' ≤ c && c ≤ 'F' then some (c.toNat - 55)
  else none

/-- The value of four hexadecimal digits. -/
def hexCode? (a b c d : Char) : Option Nat := do
  let a ← hexValue? a
  let b ← hexValue? b
  let c ← hexValue? c
  let d ← hexValue? d
  return ((a * 16 + b) * 16 + c) * 16 + d

/-- The character that a letter after a backslash stands for. -/
def shortEscape? (c : Char) : Option Char :=
  if c = '"' then some '"'
  else if c = '\\' then some '\\'
  else if c = '/' then some '/'
  else if c = 'b' then some '\x08'
  else if c = 'f' then some '\x0c'
  else if c = 'n' then some '\n'
  else if c = 'r' then some '\r'
  else if c = 't' then some '\t'
  else none

/-- Read a string from behind its opening quote to behind its closing quote.  The units read are
held latest first. -/
def readUnits (units : List Unit16) : List Char → Option (List Unit16 × List Char)
  | [] => none
  | '"' :: rest => some (units.reverse, rest)
  | '\\' :: 'u' :: a :: b :: c :: d :: rest =>
      match hexCode? a b c d with
      | some n => readUnits (.code n :: units) rest
      | none => none
  | '\\' :: letter :: rest =>
      match shortEscape? letter with
      | some c => readUnits (.char c :: units) rest
      | none => none
  | c :: rest =>
      if c.toNat < 0x20 || c == '\\' then none else readUnits (.char c :: units) rest

/-- Read a string from behind its opening quote. -/
def readString (text : List Char) : Option (Option (List Char) × List Char) :=
  (readUnits [] text).map fun (units, rest) => (textOf units, rest)

/-- A blank of the grammar. -/
def isSpace (c : Char) : Bool :=
  c == ' ' || c == '\n' || c == '\t' || c == '\r'

/-- The text without leading blanks. -/
def skipSpace (text : List Char) : List Char :=
  text.dropWhile isSpace

/-- Read one or more digits. -/
def readDigits (text : List Char) : Option (List Char × List Char) :=
  let digits := text.takeWhile Char.isDigit
  if digits.isEmpty then none else some (digits, text.dropWhile Char.isDigit)

/-- Read the whole part of a number, which has no leading zero. -/
def readWhole : List Char → Option (List Char × List Char)
  | '0' :: rest => some (['0'], rest)
  | text => readDigits text

/-- Read the fraction of a number, if there is one. -/
def readFraction : List Char → Option (List Char × List Char)
  | '.' :: rest => (readDigits rest).map fun (digits, rest) => ('.' :: digits, rest)
  | text => some ([], text)

/-- The sign at the start of an exponent, if there is one, and the rest. -/
def splitSign : List Char → List Char × List Char
  | '+' :: rest => (['+'], rest)
  | '-' :: rest => (['-'], rest)
  | text => ([], text)

/-- Read the exponent of a number, if there is one. -/
def readExponent : List Char → Option (List Char × List Char)
  | [] => some ([], [])
  | c :: rest =>
      if Operand.isExponentMark c then
        let (sign, rest) := splitSign rest
        (readDigits rest).map fun (digits, rest) => (c :: sign ++ digits, rest)
      else some ([], c :: rest)

/-- Read a number without its sign. -/
def readUnsigned (text : List Char) : Option (List Char × List Char) := do
  let (whole, rest) ← readWhole text
  let (fraction, rest) ← readFraction rest
  let (exponent, rest) ← readExponent rest
  return (whole ++ fraction ++ exponent, rest)

/-- Read a value that is not composed of others. -/
def readScalar : List Char → Option (Json × List Char)
  | 'n' :: 'u' :: 'l' :: 'l' :: rest => some (null, rest)
  | 't' :: 'r' :: 'u' :: 'e' :: rest => some (bool true, rest)
  | 'f' :: 'a' :: 'l' :: 's' :: 'e' :: rest => some (bool false, rest)
  | '"' :: rest => (readString rest).map fun (text, rest) => (string text, rest)
  | '-' :: rest => (readUnsigned rest).map fun (written, rest) => (number ('-' :: written), rest)
  | text => (readUnsigned text).map fun (written, rest) => (number written, rest)

mutual

/-- Read a value, blanks before it included.  Each call of a reader uses up one unit of fuel. -/
def readValue : (fuel : Nat) → List Char → Option (Json × List Char)
  | 0, _ => none
  | fuel + 1, text =>
      match skipSpace text with
      | '[' :: rest =>
          match skipSpace rest with
          | ']' :: rest => some (array [], rest)
          | rest => (readItems fuel rest).map fun (items, rest) => (array items, rest)
      | '{' :: rest =>
          match skipSpace rest with
          | '}' :: rest => some (object [], rest)
          | rest => (readMembers fuel rest).map fun (members, rest) => (object members, rest)
      | rest => readScalar rest

/-- Read the items of an array, one at least, to behind its closing bracket. -/
def readItems : (fuel : Nat) → List Char → Option (List Json × List Char)
  | 0, _ => none
  | fuel + 1, text => do
      let (item, rest) ← readValue fuel text
      match skipSpace rest with
      | ',' :: rest =>
          let (items, rest) ← readItems fuel rest
          return (item :: items, rest)
      | ']' :: rest => return ([item], rest)
      | _ => none

/-- Read the members of an object, one at least, to behind its closing brace. -/
def readMembers : (fuel : Nat) → List Char → Option (List (Option (List Char) × Json) × List Char)
  | 0, _ => none
  | fuel + 1, text =>
      match skipSpace text with
      | '"' :: rest => do
          let (key, rest) ← readString rest
          match skipSpace rest with
          | ':' :: rest =>
              let (value, rest) ← readValue fuel rest
              match skipSpace rest with
              | ',' :: rest =>
                  let (members, rest) ← readMembers fuel rest
                  return ((key, value) :: members, rest)
              | '}' :: rest => return ([(key, value)], rest)
              | _ => none
          | _ => none
      | _ => none

end

/-- The value that a whole text denotes.  Every two calls of a reader pass at least one character,
so twice the length of the text is fuel enough. -/
def parse? (text : List Char) : Option Json :=
  match readValue (2 * text.length + 2) text with
  | some (value, rest) => if (skipSpace rest).isEmpty then some value else none
  | none => none

end Json

end SheetFormula
