import SheetFormula.Scope
import SheetFormula.Text.Search

/-!
# Render cases and placeholders

Each token falls under one of twenty-two cases, and each case has a template of its own.  Which
case it is depends on the token and, for separators, on the innermost open scope.
-/

namespace SheetFormula

/-- The situations that a template set tells apart. -/
inductive RenderCase where
  | functionStart
  | functionStop
  | arrayStart
  | arrayStop
  | arrayRowStart
  | arrayRowStop
  | arrayItemSeparator
  | arrayRowSeparator
  | subexpressionStart
  | subexpressionStop
  | argument
  | operandText
  | operandNumber
  | operandLogical
  | operandError
  | operandRange
  | operatorPrefix
  | operatorInfix
  | operatorIntersect
  | operatorUnion
  | operatorPostfix
  | unknown
  deriving DecidableEq, Repr

namespace RenderCase

/-- Every case, in the order of declaration. -/
def all : List RenderCase :=
  [functionStart, functionStop, arrayStart, arrayStop, arrayRowStart, arrayRowStop,
    arrayItemSeparator, arrayRowSeparator, subexpressionStart, subexpressionStop, argument,
    operandText, operandNumber, operandLogical, operandError, operandRange, operatorPrefix,
    operatorInfix, operatorIntersect, operatorUnion, operatorPostfix, unknown]

/-- The name of a case in settings files and messages. -/
def name : RenderCase → String
  | functionStart => "function_start"
  | functionStop => "function_stop"
  | arrayStart => "array_start"
  | arrayStop => "array_stop"
  | arrayRowStart => "array_row_start"
  | arrayRowStop => "array_row_stop"
  | arrayItemSeparator => "array_item_separator"
  | arrayRowSeparator => "array_row_separator"
  | subexpressionStart => "subexpression_start"
  | subexpressionStop => "subexpression_stop"
  | argument => "argument"
  | operandText => "operand_text"
  | operandNumber => "operand_number"
  | operandLogical => "operand_logical"
  | operandError => "operand_error"
  | operandRange => "operand_range"
  | operatorPrefix => "operator_prefix"
  | operatorInfix => "operator_infix"
  | operatorIntersect => "operator_intersect"
  | operatorUnion => "operator_union"
  | operatorPostfix => "operator_postfix"
  | unknown => "unknown"

/-- The case of a given name, spelled exactly. -/
def ofName? (text : List Char) : Option RenderCase :=
  all.find? fun case => case.name.toList == text

/-- The case of a start of a call or an array. -/
def ofFunctionStart (value : List Char) : RenderCase :=
  if value = arrayName then arrayStart
  else if value = arrayRowName then arrayRowStart
  else functionStart

/-- The case of a stop of a call or an array. -/
def ofFunctionStop (value : List Char) : RenderCase :=
  if value = arrayStopName then arrayStop
  else if value = arrayRowStopName then arrayRowStop
  else functionStop

/-- The case of a separator, by the innermost open scope. -/
def ofSeparator : Option ScopeKind → RenderCase
  | some .arrayRow => arrayItemSeparator
  | some .array => arrayRowSeparator
  | _ => argument

/-- The case of an operand, by its sort. -/
def ofOperand : Option TokenRole → RenderCase
  | some .text => operandText
  | some .number => operandNumber
  | some .logical => operandLogical
  | some .error => operandError
  | _ => operandRange

/-- The case of an operator between two operands. -/
def ofInfix : Option TokenRole → RenderCase
  | some .intersect => operatorIntersect
  | some .union => operatorUnion
  | _ => operatorInfix

/-- The case under which a token is rendered when `innermost` is the scope around it. -/
def of (token : Token) (innermost : Option ScopeKind) : RenderCase :=
  match token.kind, token.role with
  | .function, some .start => ofFunctionStart token.value
  | .function, some .stop => ofFunctionStop token.value
  | .subexpression, some .start => subexpressionStart
  | .subexpression, some .stop => subexpressionStop
  | .argument, _ => ofSeparator innermost
  | .operand, role => ofOperand role
  | .prefixOperator, _ => operatorPrefix
  | .infixOperator, role => ofInfix role
  | .postfixOperator, _ => operatorPostfix
  | _, _ => unknown

end RenderCase

/-- The marks in a template source that stand for something else. -/
inductive Placeholder where
  | newline
  | autoindent
  | token
  | autolinebreak
  deriving DecidableEq, Repr

namespace Placeholder

/-- The word inside the braces. -/
def word : Placeholder → String
  | newline => "newline"
  | autoindent => "autoindent"
  | token => "token"
  | autolinebreak => "autolinebreak"

/-- The placeholder as it is written in a template source. -/
def text (placeholder : Placeholder) : List Char :=
  ['\x7b', '\x7b'] ++ placeholder.word.toList ++ ['\x7d', '\x7d']

end Placeholder

/-- Why a template source is refused. -/
inductive TemplateFault where
  /-- The token is asked for twice. -/
  | repeatedToken
  /-- A placeholder stands where it has no meaning. -/
  | misplaced (placeholder : Placeholder)
  deriving DecidableEq, Repr

/-- The wording of a fault. -/
def TemplateFault.message : TemplateFault → List Char
  | repeatedToken => Placeholder.token.text ++ " may appear only once".toList
  | misplaced placeholder => placeholder.text ++ " is out of place".toList

end SheetFormula
