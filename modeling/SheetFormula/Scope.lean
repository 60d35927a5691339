import SheetFormula.Token

/-!
# Scopes

Parentheses and braces open scopes.  A brace opens two: the array and its first row.  The scopes
open at a place of the formula form a stack, innermost first, and each remembers the index of the
token that opened it.
-/

namespace SheetFormula

/-- The text of the token that opens an array. -/
def arrayName : List Char := "ARRAY".toList

/-- The text of the token that opens a row of an array. -/
def arrayRowName : List Char := "ARRAYROW".toList

/-- The text of the token that closes an array. -/
def arrayStopName : List Char := "ARRAYSTOP".toList

/-- The text of the token that closes a row of an array. -/
def arrayRowStopName : List Char := "ARRAYROWSTOP".toList

/-- What a scope encloses. -/
inductive ScopeKind where
  | function
  | subexpression
  | array
  | arrayRow
  deriving DecidableEq, Repr

namespace ScopeKind

/-- Every kind of scope, in the order of declaration. -/
def all : List ScopeKind :=
  [function, subexpression, array, arrayRow]

/-- The name of the kind. -/
def name : ScopeKind → String
  | function => "Function"
  | subexpression => "Subexpression"
  | array => "Array"
  | arrayRow => "ArrayRow"

/-- The kind of a given name. -/
def ofName? (text : String) : Option ScopeKind :=
  all.find? fun kind => kind.name == text

/-- A separator directly in the scope divides arguments; elsewhere it is the union operator. -/
def takesArguments : ScopeKind → Bool
  | subexpression => false
  | _ => true

/-- The kind of the tokens that open and close the scope. -/
def tokenKind : ScopeKind → TokenKind
  | subexpression => .subexpression
  | _ => .function

/-- The text of the token that closes the scope. -/
def stopValue : ScopeKind → List Char
  | function => []
  | subexpression => []
  | array => arrayStopName
  | arrayRow => arrayRowStopName

/-- The token that opens the scope under a given text. -/
def startToken (kind : ScopeKind) (value : List Char) : Token :=
  { value := value, kind := kind.tokenKind, role := some .start }

/-- The token that closes the scope. -/
def stopToken (kind : ScopeKind) : Token :=
  { value := kind.stopValue, kind := kind.tokenKind, role := some .stop }

/-- The kind of scope that a start token opens, read off the token alone. -/
def ofStart (token : Token) : ScopeKind :=
  match token.kind with
  | .subexpression => subexpression
  | .function =>
      if token.value = arrayName then array
      else if token.value = arrayRowName then arrayRow
      else function
  | _ => function

end ScopeKind

/-- An open scope and the index of the token that opened it. -/
structure OpenScope where
  kind : ScopeKind
  start : Nat
  deriving DecidableEq, Repr

/-- The open scopes, innermost first. -/
abbrev ScopeStack := List OpenScope

namespace ScopeStack

/-- The kind of the innermost scope. -/
def innermost? (scopes : ScopeStack) : Option ScopeKind :=
  scopes.head?.map OpenScope.kind

/-- The innermost scope takes arguments. -/
def inArguments (scopes : ScopeStack) : Bool :=
  match scopes.innermost? with
  | none => false
  | some kind => kind.takesArguments

end ScopeStack

end SheetFormula
