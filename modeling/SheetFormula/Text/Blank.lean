/-!
# Blank characters

Blanks are the characters of the Unicode property `White_Space`.  Trimming removes them from the
ends of a text and nowhere else.
-/

namespace SheetFormula.Text

/-- The character is a space of any kind, a tab, or a line or paragraph end. -/
def isBlank (c : Char) : Bool :=
  let n := c.toNat
  (0x09 ≤ n && n ≤ 0x0D) || n == 0x20 || n == 0x85 || n == 0xA0 || n == 0x1680 ||
    (0x2000 ≤ n && n ≤ 0x200A) || n == 0x2028 || n == 0x2029 || n == 0x202F || n == 0x205F ||
    n == 0x3000

/-- The text without the blanks at its start. -/
def trimStart (text : List Char) : List Char :=
  text.dropWhile isBlank

/-- The text without the blanks at its end. -/
def trimEnd (text : List Char) : List Char :=
  (text.reverse.dropWhile isBlank).reverse

/-- The text without the blanks at either end. -/
def trim (text : List Char) : List Char :=
  trimEnd (trimStart text)

/-- The text holds nothing but blanks. -/
def isBlankText (text : List Char) : Bool :=
  text.all isBlank

end SheetFormula.Text
