import SheetFormula.Token

/-!
# A cursor over a token stream

A cursor starts ahead of the first token, moves forward one token at a time, and stays behind the
last token once it has passed it.  Only on a token does it see neighbours.
-/

namespace SheetFormula

/-- A place in a token stream.  The tokens already passed are held latest first. -/
inductive Cursor where
  | fresh (tokens : List Token)
  | on (passed : List Token) (current : Token) (coming : List Token)
  | behind

namespace Cursor

/-- Move to the first of the tokens that are still to come. -/
def enter (passed : List Token) : List Token → Cursor
  | [] => behind
  | token :: coming => on passed token coming

/-- Move forward by one token. -/
def advance : Cursor → Cursor
  | fresh tokens => enter [] tokens
  | on passed current coming => enter (current :: passed) coming
  | behind => behind

/-- The index of the token under the cursor. -/
def index? : Cursor → Option Nat
  | on passed _ _ => some passed.length
  | _ => none

/-- The token under the cursor. -/
def current? : Cursor → Option Token
  | on _ current _ => some current
  | _ => none

/-- The token before the one under the cursor. -/
def previous? : Cursor → Option Token
  | on passed _ _ => passed.head?
  | _ => none

/-- The token after the one under the cursor. -/
def next? : Cursor → Option Token
  | on _ _ coming => coming.head?
  | _ => none

/-- The cursor is on a token. -/
def isOnToken : Cursor → Bool
  | on _ _ _ => true
  | _ => false

/-- The cursor is on the first token. -/
def atFirst : Cursor → Bool
  | on passed _ _ => passed.isEmpty
  | _ => false

/-- The cursor is on the last token. -/
def atLast : Cursor → Bool
  | on _ _ coming => coming.isEmpty
  | _ => false

end Cursor

end SheetFormula
