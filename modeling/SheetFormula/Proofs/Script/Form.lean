import SheetFormula.Proofs.Stream.Nesting
import SheetFormula.Script

/-!
# Scripts by the nesting of scopes

The script of a formula, read off the forest of its tokens.  Each scope has a form that its start
alone decides: a ternary, a chain of an operator, a bracketed list or a call.  The form decides what
stands before, between and after the parts of the scope, and how the cells of a range directly in it
are joined.  All other tokens are translated one by one.
-/

namespace SheetFormula

/-- The forest holds no token at all. -/
def Forest.isEmpty : Forest → Bool
  | .nil => true
  | .leaf _ _ | .scope _ _ _ _ => false

/-- What a scope becomes in a script. -/
inductive ScriptForm where
  /-- A condition in parentheses with its branches. -/
  | ternary
  /-- The arguments in parentheses, joined by an operator. -/
  | chain (joiner : Joiner)
  /-- An array, or a row of one. -/
  | brackets
  /-- A call under a name, or a group under none. -/
  | call (name : List Char)
  deriving DecidableEq, Repr

namespace ScriptForm

/-- The names that do not stand for themselves. -/
def named : List (List Char × ScriptForm) :=
  [("IF".toList, ternary), ("AND".toList, chain .and), ("OR".toList, chain .or),
    ("SUM".toList, chain .plus), ("NOT".toList, call "!".toList),
    ("MIN".toList, call "Math.min".toList), ("MAX".toList, call "Math.max".toList),
    ("ABS".toList, call "Math.abs".toList), ("SQRT".toList, call "Math.sqrt".toList),
    ("POWER".toList, call "Math.pow".toList), ("ARRAY".toList, brackets),
    ("ARRAYROW".toList, brackets)]

/-- The form of the scope that a start opens.  The case of ASCII letters in its name does not
matter. -/
def ofStart (start : Token) : ScriptForm :=
  if start.kind = .subexpression then call []
  else (named.lookup (Text.asciiUpper start.value)).getD (call start.value)

/-- The text before the content of a scope. -/
def opening : ScriptForm → List Char
  | ternary | chain _ => "(".toList
  | brackets => "[".toList
  | call name => name ++ "(".toList

/-- The text after the content of a scope. -/
def closing (form : ScriptForm) (content : Forest) : List Char :=
  match form with
  | ternary => if content.separators = 1 then ":false)".toList else ")".toList
  | chain .and => if content.isEmpty then "true)".toList else ")".toList
  | chain .or => if content.isEmpty then "false)".toList else ")".toList
  | chain .plus => if content.isEmpty then "0)".toList else ")".toList
  | brackets => "]".toList
  | call _ => ")".toList

/-- The text of a separator directly in a scope, after `seen` others. -/
def separator : ScriptForm → (seen : Nat) → List Char
  | ternary, 0 => "?".toList
  | ternary, 1 => ":".toList
  | chain .and, _ => "&&".toList
  | chain .or, _ => "||".toList
  | chain .plus, _ => "+".toList
  | _, _ => ",".toList

/-- The cells of a range directly in a scope, one after the other. -/
def cells (form : ScriptForm) (range : CellRange) : List Char :=
  match form with
  | chain .and => "&&".toList.intercalate (range.cells.map Cell.display)
  | chain .or => "||".toList.intercalate (range.cells.map Cell.display)
  | chain .plus => "+".toList.intercalate (range.cells.map Cell.display)
  | _ => "[".toList ++ ",".toList.intercalate (range.cells.map Cell.display) ++ "]".toList

/-- The text of a range operand directly in a scope. -/
def rangeText (form : ScriptForm) (text : List Char) : List Char :=
  match CellRange.parse? text with
  | some range => if range.size ≤ 1024 then form.cells range else text
  | none =>
      match Cell.parse? text with
      | some cell => if '$' ∈ text then cell.display else text
      | none => text

end ScriptForm

/-- The operators that have another spelling in a script. -/
def scriptOperators : List (List Char × List Char) :=
  [("=".toList, "===".toList), ("<>".toList, "!==".toList), ("&".toList, "+".toList),
    ("^".toList, "**".toList)]

/-- The text of a token that is neither a boundary of a scope nor a separator nor a range. -/
def Token.scripted (convention : Convention) (token : Token) : List Char :=
  match token.kind, token.role with
  | .operand, some .text => Text.stringLiteral token.value
  | .operand, some .logical =>
      if Text.equalFold token.value "TRUE".toList then "true".toList else "false".toList
  | .operand, some .number => Operand.withPoint convention token.value
  | .infixOperator, some .intersect => " ".toList
  | .infixOperator, some .union => token.value
  | .infixOperator, _ => (scriptOperators.lookup token.value).getD token.value
  | .postfixOperator, _ => if token.value = ['%'] then "/100".toList else token.value
  | _, _ => token.value

/-- The text of a token directly in a scope of the form. -/
def ScriptForm.leaf (form : ScriptForm) (convention : Convention) (token : Token) : List Char :=
  match token.kind, token.role with
  | .operand, some .range => form.rangeText token.value
  | _, _ => token.scripted convention

/-- The script of a forest directly in a scope of the form, after `seen` separators of it. -/
def Forest.script (convention : Convention) (form : ScriptForm) (seen : Nat) : Forest → List Char
  | .nil => []
  | .leaf token rest =>
      if token.isArgument then form.separator seen ++ rest.script convention form (seen + 1)
      else form.leaf convention token ++ rest.script convention form seen
  | .scope start content _ rest =>
      let own := ScriptForm.ofStart start
      own.opening ++ (content.script convention own 0 ++
        (own.closing content ++ rest.script convention form seen))

end SheetFormula
