import SheetFormula.Text.Hidden

/-!
# Quoted text for messages

A message shows a text between double quotes, in one line and without hidden characters, so that
two different texts never look the same.
-/

namespace SheetFormula.Text

/-- How one character is shown between the quotes. -/
def shownChar (c : Char) : List Char :=
  if c = '\x00' then ['\\', '0']
  else if c = '\t' then ['\\', 't']
  else if c = '\r' then ['\\', 'r']
  else if c = '\n' then ['\\', 'n']
  else if c = '"' then ['\\', '"']
  else if c = '\\' then ['\\', '\\']
  else if isHidden c then ['\\', 'u', '\x7b'] ++ Nat.toDigits 16 c.toNat ++ ['\x7d']
  else [c]

/-- The text between double quotes, with quotes, backslashes and hidden characters escaped. -/
def quoted (text : List Char) : List Char :=
  '"' :: text.flatMap shownChar ++ ['"']

end SheetFormula.Text
