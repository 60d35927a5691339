/-!
# Escaping token text

Token text that goes into markup or into a string literal is escaped, so that it can neither end
the literal nor open a tag.
-/

namespace SheetFormula.Text

/-- A character of markup text as an entity, where it has one. -/
def markupChar (c : Char) : List Char :=
  if c = '&' then "&amp;".toList
  else if c = '<' then "&lt;".toList
  else if c = '>' then "&gt;".toList
  else if c = '"' then "&quot;".toList
  else if c = '\'' then "&#39;".toList
  else [c]

/-- The text as it stands in markup. -/
def markup (text : List Char) : List Char :=
  text.flatMap markupChar

/-- A character as it stands inside a string literal. -/
def literalChar (c : Char) : List Char :=
  if c = '\\' then ['\\', '\\']
  else if c = '"' then ['\\', '"']
  else if c = '\n' then ['\\', 'n']
  else if c = '\r' then ['\\', 'r']
  else [c]

/-- The string literal that denotes the text. -/
def stringLiteral (text : List Char) : List Char :=
  '"' :: text.flatMap literalChar ++ ['"']

/-- The text with each double quote written twice, as a formula writes it. -/
def doubleQuotes (text : List Char) : List Char :=
  text.flatMap fun c => if c = '"' then ['"', '"'] else [c]

/-- How token text is escaped before a template takes it. -/
inductive Escape where
  | verbatim
  | markup
  deriving DecidableEq, Repr

/-- The escaped text. -/
def Escape.apply : Escape → List Char → List Char
  | verbatim, text => text
  | markup, text => Text.markup text

end SheetFormula.Text
