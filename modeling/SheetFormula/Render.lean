import SheetFormula.Template.Set
import SheetFormula.Text.Blank

/-!
# Rendering

Rendering writes the tokens of a stream one after the other, each through the template of its case.
A token can be given another text, or a text that goes around its template: its rendition.
-/

namespace SheetFormula

/-- What is written for a token. -/
inductive Rendition where
  /-- The token's own text, through its template. -/
  | plain
  /-- Another text, through the token's template. -/
  | token (text : List Char)
  /-- A text as it is, in place of the template. -/
  | literal (text : List Char)
  deriving DecidableEq, Repr

/-- The state of rendering between two tokens. -/
structure Page where
  /-- The output so far, last character first. -/
  written : List Char := []
  /-- The next token stands at the start of a line. -/
  lineStart : Bool := true
  /-- The open scopes, innermost first. -/
  scopes : List ScopeKind := []

namespace Page

/-- The output so far. -/
def text (page : Page) : List Char :=
  page.written.reverse

/-- Write a text. -/
def write (page : Page) (text : List Char) : Page :=
  { page with written := text.reverse ++ page.written }

/-- The output ends with the given text. -/
def endsWith (page : Page) (text : List Char) : Bool :=
  text.reverse.isPrefixOf page.written

/-- Leave the innermost scope before a stop token. -/
def leave (page : Page) (token : Token) : Page :=
  if token.isStop then { page with scopes := page.scopes.tail } else page

/-- Enter the scope of a start token. -/
def enter (page : Page) (token : Token) : Page :=
  if token.isStart then { page with scopes := ScopeKind.ofStart token :: page.scopes } else page

/-- Start a fresh line unless the page is empty or already at the end of a line. -/
def freshLine (page : Page) (newline : List Char) : Page :=
  if page.written.isEmpty || page.endsWith newline then page else page.write newline

end Page

namespace TemplateSet

/-- The escaped text of a token; a text operand has its quotes doubled. -/
def tokenText (style : TemplateSet) (case : RenderCase) (token : Token) : List Char :=
  style.escape.apply (if case = .operandText then Text.doubleQuotes token.value else token.value)

/-- The indentation of a token: none in the middle of a line, and one unit for each open scope at
its start.  A stop token is always indented, to the level outside its scope. -/
def indentation (style : TemplateSet) (page : Page) (token : Token) : List Char :=
  if token.isStop || page.lineStart then Text.repeated page.scopes.length style.indentUnit else []

/-- The line break that a template may write: a line end if a separator comes next. -/
def lineBreak (style : TemplateSet) (next : Option Token) : List Char :=
  if next.any Token.isArgument then style.newline else []

/-- Write a token text through the template of a case. -/
def writeThrough (style : TemplateSet) (page : Page) (case : RenderCase) (token : Token)
    (next : Option Token) (text : List Char) : Except FormulaError Page := do
  let template ← style.get case
  let placed := if template.freshLine then page.freshLine style.newline else page
  return placed.write (template.apply text (style.indentation page token) (style.lineBreak next))

/-- Write the rendition of a token on a page that has left the token's scope if it closes one. -/
def writeToken (style : TemplateSet) (page : Page) (token : Token) (rendition : Rendition)
    (next : Option Token) : Except FormulaError Page :=
  let case := RenderCase.of token page.scopes.head?
  match rendition with
  | .literal text => .ok (page.write text)
  | .token text => style.writeThrough page case token next text
  | .plain => style.writeThrough page case token next (style.tokenText case token)

/-- Render one token and set the page up for the next. -/
def renderToken (style : TemplateSet) (page : Page) (token : Token) (rendition : Rendition)
    (next : Option Token) : Except FormulaError Page := do
  let written ← style.writeToken (page.leave token) token rendition next
  let entered := written.enter token
  return { entered with lineStart := token.isStop || entered.endsWith style.newline }

/-- Render tokens with their renditions onto a page. -/
def renderOnto (style : TemplateSet) (page : Page) :
    List (Token × Rendition) → Except FormulaError Page
  | [] => .ok page
  | (token, rendition) :: rest => do
      let written ← style.renderToken page token rendition (rest.head?.map Prod.fst)
      style.renderOnto written rest

/-- Render tokens with their renditions.  The output is trimmed before the opening and closing texts
of the style are put around it. -/
def render (style : TemplateSet) (tokens : List (Token × Rendition)) :
    Except FormulaError (List Char) := do
  let page ← style.renderOnto {} tokens
  return style.opening ++ Text.trim page.text ++ style.closing

/-- Render tokens in their own texts. -/
def renderPlain (style : TemplateSet) (tokens : List Token) : Except FormulaError (List Char) :=
  style.render (tokens.map fun token => (token, .plain))

end TemplateSet

end SheetFormula
