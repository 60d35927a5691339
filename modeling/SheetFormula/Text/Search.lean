/-!
# Searching and comparing texts

A text is a list of characters.  Searches return what stands around the pattern, so that the text
can be put together again from the pieces.
-/

namespace SheetFormula.Text

/-- What follows `start` in a text that begins with it. -/
def dropStart? : (start text : List Char) → Option (List Char)
  | [], text => some text
  | _ :: _, [] => none
  | s :: start, c :: text => if s = c then dropStart? start text else none

/-- What precedes `ending` in a text that ends with it. -/
def dropEnd? (ending text : List Char) : Option (List Char) :=
  (dropStart? ending.reverse text.reverse).map List.reverse

/-- The texts before and after the first occurrence of `pattern`. -/
def splitOnce? (pattern : List Char) : List Char → Option (List Char × List Char)
  | [] => if pattern = [] then some ([], []) else none
  | c :: text =>
      match dropStart? pattern (c :: text) with
      | some after => some ([], after)
      | none => (splitOnce? pattern text).map fun parts => (c :: parts.1, parts.2)

/-- The pattern occurs somewhere in the text. -/
def contains (pattern text : List Char) : Bool :=
  (splitOnce? pattern text).isSome

/-- The text without a byte order mark at its start. -/
def dropMark : List Char → List Char
  | '\uFEFF' :: rest => rest
  | text => text

/-- The text with every `old` character exchanged for `new`. -/
def replaceChar (old new : Char) (text : List Char) : List Char :=
  text.map fun c => if c = old then new else c

/-- The text with its ASCII letters in upper case. -/
def asciiUpper (text : List Char) : List Char :=
  text.map Char.toUpper

/-- The text with its ASCII letters in lower case. -/
def asciiLower (text : List Char) : List Char :=
  text.map Char.toLower

/-- The two texts differ at most in the case of their ASCII letters. -/
def equalFold (left right : List Char) : Bool :=
  asciiLower left == asciiLower right

/-- The number of bytes that the text takes in UTF-8. -/
def byteCount (text : List Char) : Nat :=
  text.foldr (fun c count => c.utf8Size + count) 0

/-- The decimal digits of a number, without leading zeros. -/
def decimal (n : Nat) : List Char :=
  Nat.toDigits 10 n

/-- The value of a text of ASCII digits, read in base ten. -/
def decimalValue (digits : List Char) : Nat :=
  digits.foldl (fun value d => value * 10 + (d.toNat - 48)) 0

/-- The copies of a text one after the other. -/
def repeated (count : Nat) (text : List Char) : List Char :=
  (List.replicate count text).flatten

end SheetFormula.Text
