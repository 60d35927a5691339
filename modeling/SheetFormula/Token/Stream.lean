import SheetFormula.Token.Scanner

/-!
# Finished token streams

Three passes finish the raw tokens.  A blank between two values is the intersection operator and any
other blank is dropped; a sign without a value before it is a prefix, and a prefix plus is
discarded; operands and comparisons get their roles.
-/

namespace SheetFormula

/-- The operator that a blank between two values stands for. -/
def intersection : Token :=
  { value := [' '], kind := .infixOperator, role := some .intersect }

/-- A blank between the two tokens is an intersection. -/
def intersects : (previous next : Option Token) → Bool
  | some previous, some next => previous.endsValue && next.beginsValue
  | _, _ => false

/-- Replace the blanks of a stream that follows the token `previous`. -/
def resolveBlanks (previous : Option Token) : List Token → List Token
  | [] => []
  | token :: rest =>
      if token.kind = .blank then
        if intersects previous rest.head? then intersection :: resolveBlanks (some token) rest
        else resolveBlanks (some token) rest
      else token :: resolveBlanks (some token) rest

/-- The comparison operators. -/
def comparisons : List (List Char) :=
  ["=".toList, "<".toList, ">".toList, "<=".toList, ">=".toList, "<>".toList]

/-- A sign after this token stands between two values. -/
def precedesInfixSign : Option Token → Bool
  | none => false
  | some previous => previous.endsValue || previous.kind == .postfixOperator

/-- The token as it stands after the finished token `previous`: signs are infix, prefix or
discarded, comparisons are logical, and operands have a sort. -/
def resolveToken (convention : Convention) (previous : Option Token) (token : Token) : Token :=
  if token.kind = .infixOperator then
    if token.value = ['+'] ∨ token.value = ['-'] then
      if precedesInfixSign previous then token
      else { token with kind := if token.value = ['-'] then .prefixOperator else .discarded }
    else if token.role = none ∧ token.value ∈ comparisons then { token with role := some .logical }
    else token
  else if token.kind = .operand ∧ token.role = none then
    { token with role := some (Operand.classify convention token.value) }
  else token

/-- Resolve the tokens of a stream that follows the resolved token `previous`. -/
def resolveTokens (convention : Convention) (previous : Option Token) : List Token → List Token
  | [] => []
  | token :: rest =>
      let resolved := resolveToken convention previous token
      resolved :: resolveTokens convention (some resolved) rest

/-- Finish a raw stream. -/
def finishStream (convention : Convention) (raw : List Token) : List Token :=
  (resolveTokens convention none (resolveBlanks none raw)).filter fun token =>
    token.kind != .discarded

/-- The tokens of a formula, or the closing character that matches no open scope. -/
def tokenize (convention : Convention) (formula : List Char) :
    Except FormulaError (List Token) := do
  let scanner ← scanFormula convention formula
  return finishStream convention scanner.finish.toList

end SheetFormula
