import SheetFormula.Text.Quoted

/-!
# Tokens

A formula is a stream of tokens.  A token has its text, a kind, and for some kinds a role within
it: starts and stops of scopes, the sorts of operand, and the two operators that are written with a
blank or a separator.
-/

namespace SheetFormula

/-- What a token is. -/
inductive TokenKind where
  | operand
  | function
  | subexpression
  | argument
  | prefixOperator
  | infixOperator
  | postfixOperator
  | blank
  | discarded
  | unknown
  deriving DecidableEq, Repr

/-- The part a token plays among those of its kind. -/
inductive TokenRole where
  | start
  | stop
  | text
  | number
  | logical
  | error
  | range
  | intersect
  | union
  deriving DecidableEq, Repr

namespace TokenKind

/-- Every kind, in the order of declaration. -/
def all : List TokenKind :=
  [operand, function, subexpression, argument, prefixOperator, infixOperator, postfixOperator,
    blank, discarded, unknown]

/-- The name under which token listings show the kind. -/
def name : TokenKind → String
  | operand => "Operand"
  | function => "Function"
  | subexpression => "Subexpression"
  | argument => "Argument"
  | prefixOperator => "OperatorPrefix"
  | infixOperator => "OperatorInfix"
  | postfixOperator => "OperatorPostfix"
  | blank => "WhiteSpace"
  | discarded => "Noop"
  | unknown => "Unknown"

/-- The kind of a given name. -/
def ofName? (text : String) : Option TokenKind :=
  all.find? fun kind => kind.name == text

end TokenKind

namespace TokenRole

/-- Every role, in the order of declaration. -/
def all : List TokenRole :=
  [start, stop, text, number, logical, error, range, intersect, union]

/-- The name under which token listings show the role. -/
def name : TokenRole → String
  | start => "Start"
  | stop => "Stop"
  | text => "Text"
  | number => "Number"
  | logical => "Logical"
  | error => "Error"
  | range => "Range"
  | intersect => "Intersect"
  | union => "Union"

/-- The role of a given name. -/
def ofName? (text : String) : Option TokenRole :=
  all.find? fun role => role.name == text

end TokenRole

/-- A piece of a formula: its text, what it is, and its role where the kind has one. -/
structure Token where
  value : List Char
  kind : TokenKind
  role : Option TokenRole := none
  deriving DecidableEq, Repr

namespace Token

/-- The token opens a scope. -/
def isStart (token : Token) : Bool :=
  token.role == some .start

/-- The token closes a scope. -/
def isStop (token : Token) : Bool :=
  token.role == some .stop

/-- The token is an operand. -/
def isOperand (token : Token) : Bool :=
  token.kind == .operand

/-- The token separates arguments. -/
def isArgument (token : Token) : Bool :=
  token.kind == .argument

/-- A value ends with this token: an operand, or the stop of a scope. -/
def endsValue (token : Token) : Bool :=
  token.isOperand || token.isStop

/-- A value begins with this token: an operand, or the start of a scope. -/
def beginsValue (token : Token) : Bool :=
  token.isOperand || token.isStart

/-- The token in one line: kind, role if any, and the quoted text. -/
def display (token : Token) : List Char :=
  token.kind.name.toList ++
    (match token.role with
      | none => []
      | some role => '/' :: role.name.toList) ++
    ['('] ++ Text.quoted token.value ++ [')']

end Token

/-- Starts and stops pair up: reading from the left, the number of open scopes never goes below
zero, and it ends at zero. -/
def balancedFrom : (depth : Nat) → List Token → Bool
  | depth, [] => depth == 0
  | depth, token :: rest =>
      if token.isStart then balancedFrom (depth + 1) rest
      else if token.isStop then
        match depth with
        | 0 => false
        | outer + 1 => balancedFrom outer rest
      else balancedFrom depth rest

/-- The starts and stops of the stream pair up. -/
def isBalanced (tokens : List Token) : Bool :=
  balancedFrom 0 tokens

end SheetFormula
