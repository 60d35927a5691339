import SheetFormula.Cell.Range
import SheetFormula.Operand
import SheetFormula.Render
import SheetFormula.Text.Escape

/-!
# Formulas as script expressions

A formula is written as an expression of JavaScript or TypeScript.  Conditions become ternaries,
conjunctions, disjunctions and sums become chains of their operator, small ranges become arrays or
chains, and some functions have a counterpart under another name.  What a separator turns into
depends on the call around it, so the calls that are open are kept as frames.
-/

namespace SheetFormula

/-- The language an expression is written in.  Both write the same expressions. -/
inductive ScriptLanguage where
  | javaScript
  | typeScript
  deriving DecidableEq, Repr

/-- The name of the language. -/
def ScriptLanguage.name : ScriptLanguage → String
  | javaScript => "javascript"
  | typeScript => "typescript"

/-- The operator that joins the arguments of a call. -/
inductive Joiner where
  | and
  | or
  | plus
  deriving DecidableEq, Repr

namespace Joiner

/-- The operator as it is written. -/
def operator : Joiner → List Char
  | and => "&&".toList
  | or => "||".toList
  | plus => "+".toList

/-- The value of a call without arguments. -/
def neutral : Joiner → List Char
  | and => "true".toList
  | or => "false".toList
  | plus => "0".toList

end Joiner

/-- What an open scope becomes. -/
inductive Frame where
  /-- A ternary, with the number of separators met so far. -/
  | conditional (separators : Nat)
  /-- A chain of an operator, and whether it is still empty. -/
  | chain (joiner : Joiner) (empty : Bool)
  /-- A call. -/
  | call
  /-- A pair of parentheses. -/
  | group
  /-- An array, or a row of one. -/
  | array
  deriving DecidableEq, Repr

namespace Script

/-- The largest number of cells that a range is written out for. -/
def expansionLimit : Nat :=
  1024

/-- The functions that have a counterpart under another name. -/
def counterparts : List (List Char × List Char) :=
  [("MIN".toList, "Math.min".toList), ("MAX".toList, "Math.max".toList),
    ("ABS".toList, "Math.abs".toList), ("SQRT".toList, "Math.sqrt".toList),
    ("POWER".toList, "Math.pow".toList)]

/-- The frame and the rendition of a call, by the name of its function in upper case. -/
def openCall (name : List Char) : Frame × Rendition :=
  if name = arrayName ∨ name = arrayRowName then (.array, .literal "[".toList)
  else if name = "IF".toList then (.conditional 0, .literal "(".toList)
  else if name = "AND".toList then (.chain .and true, .literal "(".toList)
  else if name = "OR".toList then (.chain .or true, .literal "(".toList)
  else if name = "SUM".toList then (.chain .plus true, .literal "(".toList)
  else if name = "NOT".toList then (.call, .literal "!(".toList)
  else
    match counterparts.lookup name with
    | some counterpart => (.call, .token counterpart)
    | none => (.call, .plain)

/-- The rendition of the stop of a scope with a given frame.  A ternary with one separator gets its
missing branch, and an empty chain its value. -/
def closeRendition : Option Frame → Rendition
  | some .array => .literal "]".toList
  | some (.conditional 1) => .literal ":false)".toList
  | some (.chain joiner true) => .literal (joiner.neutral ++ ")".toList)
  | _ => .plain

/-- The text of a separator directly in a frame, where a ternary has met `separators` before. -/
def separatorText : Option Frame → List Char
  | some (.conditional 0) => "?".toList
  | some (.conditional 1) => ":".toList
  | some (.chain joiner _) => joiner.operator
  | _ => ",".toList

/-- The frames after a separator. -/
def countSeparator : List Frame → List Frame
  | .conditional separators :: outer => .conditional (separators + 1) :: outer
  | frames => frames

/-- The cells of a range, written out: joined by the operator of a chain directly around it, and as
an array elsewhere. -/
def expandedRange (frame : Option Frame) (range : CellRange) : List Char :=
  let cells := range.cells.map Cell.display
  match frame with
  | some (.chain joiner _) => joiner.operator.intercalate cells
  | _ => "[".toList ++ ",".toList.intercalate cells ++ "]".toList

/-- The rendition of a range operand directly in a frame.  A range of more cells than the limit is
kept, and a single cell loses its dollar signs. -/
def rangeRendition (frame : Option Frame) (text : List Char) : Rendition :=
  match CellRange.parse? text with
  | some range =>
      if range.size ≤ expansionLimit then .literal (expandedRange frame range) else .plain
  | none =>
      match Cell.parse? text with
      | some cell => if '$' ∈ text then .token cell.display else .plain
      | none => .plain

/-- The rendition of an operator between two operands. -/
def infixRendition (text : List Char) : Rendition :=
  if text = "=".toList then .token "===".toList
  else if text = "<>".toList then .token "!==".toList
  else if text = "&".toList then .token "+".toList
  else if text = "^".toList then .token "**".toList
  else .plain

/-- The rendition of an operand directly in a frame. -/
def operandRendition (convention : Convention) (frame : Option Frame) (token : Token) : Rendition :=
  match token.role with
  | some .text => .literal (Text.stringLiteral token.value)
  | some .logical =>
      .token (if Text.equalFold token.value "TRUE".toList then "true".toList else "false".toList)
  | some .number =>
      match convention with
      | .us => .plain
      | .eu => .token (Operand.withPoint convention token.value)
  | some .range => rangeRendition frame token.value
  | _ => .plain

/-- Note that the chain directly around a token is not empty. -/
def noteContent (token : Token) : List Frame → List Frame
  | .chain joiner empty :: outer => .chain joiner (empty && token.isStop) :: outer
  | frames => frames

/-- The rendition of a token between open frames, and the frames after it. -/
def renditionStep (convention : Convention) (frames : List Frame) (token : Token) :
    Rendition × List Frame :=
  let frames := noteContent token frames
  match token.kind, token.role with
  | .function, some .start =>
      let (frame, rendition) := openCall (Text.asciiUpper token.value)
      (rendition, frame :: frames)
  | .subexpression, some .start => (.plain, .group :: frames)
  | .function, some .stop => (closeRendition frames.head?, frames.tail)
  | .subexpression, some .stop => (closeRendition frames.head?, frames.tail)
  | .argument, _ => (.literal (separatorText frames.head?), countSeparator frames)
  | .operand, _ => (operandRendition convention frames.head? token, frames)
  | .infixOperator, some .intersect => (.plain, frames)
  | .infixOperator, some .union => (.plain, frames)
  | .infixOperator, _ => (infixRendition token.value, frames)
  | .postfixOperator, _ =>
      (if token.value = ['%'] then .literal "/100".toList else .plain, frames)
  | _, _ => (.plain, frames)

/-- The renditions of tokens between open frames. -/
def renditionsFrom (convention : Convention) (frames : List Frame) : List Token → List Rendition
  | [] => []
  | token :: rest =>
      let (rendition, frames) := renditionStep convention frames token
      rendition :: renditionsFrom convention frames rest

/-- The renditions of the tokens of a formula. -/
def renditions (convention : Convention) (tokens : List Token) : List Rendition :=
  renditionsFrom convention [] tokens

end Script

end SheetFormula
