import SheetFormula.Toml
import SheetFormula.Toml.Quoted

/-!
# Numbers, truth values and times of a TOML document

A value without quotes is a run of letters, digits and signs, and its spelling decides what it is.
-/

namespace SheetFormula.Toml

/-- Digits of a class, with single underscores between them, `after` a digit or not. -/
def isDigitRun (isDigit : Char → Bool) : (after : Bool) → List Char → Bool
  | after, [] => after
  | after, c :: rest =>
      if c = '_' then after && isDigitRun isDigit false rest
      else isDigit c && isDigitRun isDigit true rest

/-- One or more digits of a class, with single underscores between them. -/
def isDigits (isDigit : Char → Bool) (text : List Char) : Bool :=
  isDigitRun isDigit false text

/-- The value of digits in a base, underscores left out. -/
def digitsValue (base : Nat) (text : List Char) : Nat :=
  text.foldl (fun value c => match Json.hexValue? c with
    | some digit => value * base + digit
    | none => value) 0

/-- Digits without a leading zero, unless there is one digit only. -/
def isWhole (text : List Char) : Bool :=
  isDigits Char.isDigit text && (text.head? != some '0' || text.length == 1)

/-- A hexadecimal digit. -/
def isHexDigit (c : Char) : Bool :=
  (Json.hexValue? c).isSome

/-- An integer that fits into sixty-four bits. -/
def bounded (value : Int) : Option Int :=
  if Int64.minValue.toInt ≤ value ∧ value ≤ Int64.maxValue.toInt then some value else none

/-- The sign of a number and what follows it. -/
def splitSign : List Char → Option Char × List Char
  | '+' :: rest => (some '+', rest)
  | '-' :: rest => (some '-', rest)
  | text => (none, text)

/-- A binary digit. -/
def isBinaryDigit (c : Char) : Bool :=
  c == '0' || c == '1'

/-- An octal digit. -/
def isOctalDigit (c : Char) : Bool :=
  '0' ≤ c && c ≤ '7'

/-- The integer that a text spells, in base ten with an optional sign or in another base with its
mark. -/
def integer? : List Char → Option Int
  | '0' :: 'x' :: digits =>
      if isDigits isHexDigit digits then bounded (digitsValue 16 digits) else none
  | '0' :: 'o' :: digits =>
      if isDigits isOctalDigit digits then bounded (digitsValue 8 digits) else none
  | '0' :: 'b' :: digits =>
      if isDigits isBinaryDigit digits then bounded (digitsValue 2 digits) else none
  | text =>
      let (sign, digits) := splitSign text
      if isWhole digits then
        bounded (if sign = some '-' then -(digitsValue 10 digits : Int) else digitsValue 10 digits)
      else none

/-- The exponent of a float, from behind its mark. -/
def isExponent (text : List Char) : Bool :=
  isDigits Char.isDigit (splitSign text).2

/-- What follows the whole part of a float: a fraction, an exponent, or both. -/
def isFloatTail : List Char → Bool
  | [] => false
  | c :: rest =>
      if c = '.' then
        isDigits Char.isDigit (rest.takeWhile fun c => c != 'e' && c != 'E') &&
          match rest.dropWhile fun c => c != 'e' && c != 'E' with
          | [] => true
          | _ :: exponent => isExponent exponent
      else (c == 'e' || c == 'E') && isExponent rest

/-- The text spells a float. -/
def isFloat (text : List Char) : Bool :=
  let unsigned := (splitSign text).2
  let whole := unsigned.takeWhile fun c => c.isDigit || c == '_'
  unsigned == "inf".toList || unsigned == "nan".toList ||
    (isWhole whole && isFloatTail (unsigned.dropWhile fun c => c.isDigit || c == '_'))

/-- The number of days of a month. -/
def daysIn (year month : Nat) : Nat :=
  if month = 2 then (if year % 4 = 0 ∧ (year % 100 ≠ 0 ∨ year % 400 = 0) then 29 else 28)
  else if month ∈ [4, 6, 9, 11] then 30
  else 31

/-- A calendar date, from its ten characters. -/
def isDate : List Char → Bool
  | [y1, y2, y3, y4, '-', m1, m2, '-', d1, d2] =>
      let year := Text.decimalValue [y1, y2, y3, y4]
      let month := Text.decimalValue [m1, m2]
      let day := Text.decimalValue [d1, d2]
      [y1, y2, y3, y4, m1, m2, d1, d2].all Char.isDigit && 1 ≤ month && month ≤ 12 && 1 ≤ day &&
        day ≤ daysIn year month
  | _ => false

/-- Hours and minutes. -/
def isClock (h1 h2 m1 m2 : Char) : Bool :=
  [h1, h2, m1, m2].all Char.isDigit && Text.decimalValue [h1, h2] < 24 &&
    Text.decimalValue [m1, m2] < 60

/-- What follows the seconds of a time: nothing, or a fraction. -/
def isSecondsTail : List Char → Bool
  | [] => true
  | '.' :: rest => Operand.isDigits rest
  | _ => false

/-- A time of day. -/
def isTime : List Char → Bool
  | h1 :: h2 :: ':' :: m1 :: m2 :: ':' :: s1 :: s2 :: rest =>
      isClock h1 h2 m1 m2 && [s1, s2].all Char.isDigit && Text.decimalValue [s1, s2] ≤ 60 &&
        isSecondsTail rest
  | _ => false

/-- The distance of a time from the meridian. -/
def isOffset : List Char → Bool
  | [c] => c == 'Z' || c == 'z'
  | [sign, h1, h2, ':', m1, m2] => (sign == '+' || sign == '-') && isClock h1 h2 m1 m2
  | _ => false

/-- A character that belongs to a time of day and not to its offset. -/
def isTimeChar (c : Char) : Bool :=
  c.isDigit || c == ':' || c == '.'

/-- A date, a time, or both with or without an offset. -/
def isDateTime (text : List Char) : Bool :=
  isDate text || isTime text ||
    match text.drop 10 with
    | mark :: time =>
        isDate (text.take 10) && (mark == 'T' || mark == 't' || mark == ' ') &&
          isTime (time.takeWhile isTimeChar) &&
          (time.all isTimeChar || isOffset (time.dropWhile isTimeChar))
    | [] => false

/-- The value that a text without quotes spells. -/
def plainScalar? (text : List Char) : Option Scalar :=
  if text = "true".toList then some (.boolean true)
  else if text = "false".toList then some (.boolean false)
  else
    match integer? text with
    | some value => some (.integer value)
    | none =>
        if isFloat text then some (.float text)
        else if isDateTime text then some (.dateTime text)
        else none

/-- A character of a value without quotes. -/
def isPlainChar (c : Char) : Bool :=
  c.isAlphanum || c == '_' || c == '+' || c == '-' || c == '.' || c == ':'

/-- The blank between a date and a time, and the time, if they stand at the start of a text. -/
def spacedTime : List Char → List Char
  | ' ' :: h :: rest => if h.isDigit then ' ' :: (h :: rest).takeWhile isPlainChar else []
  | _ => []

/-- Read a value without quotes. -/
def readPlain (text : List Char) : Option (Scalar × List Char) :=
  let word := text.takeWhile isPlainChar
  let time := if isDate word then spacedTime (text.drop word.length) else []
  (plainScalar? (word ++ time)).map fun value => (value, text.drop (word ++ time).length)

end SheetFormula.Toml
