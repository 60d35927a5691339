import SheetFormula.Error
import SheetFormula.Operand
import SheetFormula.Scope
import SheetFormula.Text.Blank

/-!
# Scanning a formula into raw tokens

The scanner reads one character after the other.  Its state says what the character continues, which
text is pending, which scopes are open and which tokens have been emitted.  Since a step looks at
nothing but the state and one character, the scan of a text is the scan of its second part after the
scan of its first part.

The raw tokens still hold blanks, and neither signs nor operands are sorted out.
-/

namespace SheetFormula

/-- What the next character continues. -/
inductive Reading where
  /-- Nothing in particular: operators, names and numbers. -/
  | formula
  /-- A run of blanks whose token has been emitted. -/
  | blanks
  /-- A comparison whose first character, `<` or `>`, may be joined by a second one. -/
  | comparison (first : Char)
  /-- A text between double quotes. -/
  | text
  /-- A text after a double quote, which ends it unless another one follows. -/
  | textQuote
  /-- A path between single quotes. -/
  | path
  /-- A path after a single quote, which ends it unless another one follows. -/
  | pathQuote
  /-- A reference between square brackets. -/
  | bracket
  /-- An error code, from its number sign on. -/
  | errorCode
  deriving DecidableEq, Repr

/-- The error codes that end as soon as they are complete. -/
def errorCodes : List (List Char) :=
  ["#NULL!".toList, "#DIV/0!".toList, "#VALUE!".toList, "#REF!".toList, "#NAME?".toList,
    "#NUM!".toList, "#N/A".toList, "#SPILL!".toList, "#CALC!".toList, "#GETTING_DATA".toList]

/-- The operators that are a single character between two operands. -/
def infixCharacters : List Char :=
  ['+', '-', '*', '/', '^', '&', '=', '>', '<']

/-- The state of the scanner between two characters. -/
structure Scanner where
  /-- The number of bytes before the next character. -/
  position : Nat
  /-- What the next character continues. -/
  reading : Reading := .formula
  /-- The characters read since the last token, latest first. -/
  pending : List Char := []
  /-- The open scopes. -/
  scopes : ScopeStack := []
  /-- The raw tokens so far. -/
  emitted : Array Token := #[]

namespace Scanner

/-- Add a character to the pending text. -/
def push (scanner : Scanner) (c : Char) : Scanner :=
  { scanner with pending := c :: scanner.pending }

/-- Go on reading in a given way. -/
def continueAs (scanner : Scanner) (reading : Reading) : Scanner :=
  { scanner with reading := reading }

/-- Emit a token. -/
def emit (scanner : Scanner) (token : Token) : Scanner :=
  { scanner with emitted := scanner.emitted.push token }

/-- Emit the pending text, even if it is empty, as a token of the given kind and role. -/
def emitPending (scanner : Scanner) (kind : TokenKind) (role : Option TokenRole) : Scanner :=
  { scanner with
    pending := []
    emitted := scanner.emitted.push ⟨scanner.pending.reverse, kind, role⟩ }

/-- Emit the pending text, if there is any, as a token of the given kind. -/
def flush (scanner : Scanner) (kind : TokenKind) : Scanner :=
  if scanner.pending.isEmpty then scanner else scanner.emitPending kind none

/-- Open a scope with a start token of the given text. -/
def openScope (scanner : Scanner) (kind : ScopeKind) (value : List Char) : Scanner :=
  { scanner with
    scopes := ⟨kind, scanner.emitted.size⟩ :: scanner.scopes
    emitted := scanner.emitted.push (kind.startToken value) }

/-- Close the innermost scope, which has to be of one of the given kinds.  The character found is
blamed otherwise. -/
def closeScope (scanner : Scanner) (found : Char) (kinds : List ScopeKind) :
    Except FormulaError Scanner :=
  match scanner.scopes with
  | scope :: outer =>
      if scope.kind ∈ kinds then
        .ok { scanner with
          scopes := outer
          emitted := scanner.emitted.push scope.kind.stopToken }
      else .error (.unbalanced scanner.position found)
  | [] => .error (.unbalanced scanner.position found)

/-- End the text between double quotes. -/
def endText (scanner : Scanner) : Scanner :=
  (scanner.emitPending .operand (some .text)).continueAs .formula

/-- An opening parenthesis calls the pending name, or groups if there is none. -/
def openParenthesis (scanner : Scanner) : Scanner :=
  if scanner.pending.isEmpty then scanner.openScope .subexpression []
  else { scanner with pending := [] }.openScope .function scanner.pending.reverse

/-- A separator divides arguments where the innermost scope takes them, and is the union operator
elsewhere. -/
def separate (scanner : Scanner) (c : Char) : Scanner :=
  if scanner.scopes.inArguments then scanner.emit { value := [c], kind := .argument }
  else scanner.emit { value := [c], kind := .infixOperator, role := some .union }

/-- A semicolon that does not separate arguments ends a row of an array and begins the next one.
Elsewhere it has no meaning. -/
def nextRow (scanner : Scanner) : Except FormulaError Scanner :=
  if scanner.scopes.innermost? = some .arrayRow then do
    let closed ← scanner.closeScope ';' [.arrayRow]
    return (closed.emit { value := [';'], kind := .argument }).openScope .arrayRow arrayRowName
  else .ok (scanner.emit { value := [';'], kind := .unknown })

/-- Read a character that continues nothing but the pending text. -/
def readFormula (convention : Convention) (scanner : Scanner) (c : Char) :
    Except FormulaError Scanner :=
  if (c = '+' ∨ c = '-') ∧ Operand.awaitsExponent scanner.pending.reverse then .ok (scanner.push c)
  else if c = '"' then .ok ((scanner.flush .unknown).continueAs .text)
  else if c = '\'' then .ok (((scanner.flush .unknown).push c).continueAs .path)
  else if c = '[' then .ok ((scanner.push c).continueAs .bracket)
  else if c = '#' then .ok (((scanner.flush .unknown).push c).continueAs .errorCode)
  else if c = '{' then
    .ok (((scanner.flush .unknown).openScope .array arrayName).openScope .arrayRow arrayRowName)
  else if c = '}' then do
    let row ← (scanner.flush .operand).closeScope c [.arrayRow]
    row.closeScope c [.array]
  else if Text.isBlank c then
    .ok (((scanner.flush .operand).emit { value := [' '], kind := .blank }).continueAs .blanks)
  else if c = '<' ∨ c = '>' then .ok ((scanner.flush .operand).continueAs (.comparison c))
  else if c ∈ infixCharacters then
    .ok ((scanner.flush .operand).emit { value := [c], kind := .infixOperator })
  else if c = '%' then
    .ok ((scanner.flush .operand).emit { value := [c], kind := .postfixOperator })
  else if c = '(' then .ok scanner.openParenthesis
  else if c = ')' then (scanner.flush .operand).closeScope c [.function, .subexpression]
  else if c = convention.separator then .ok ((scanner.flush .operand).separate c)
  else if c = ';' then (scanner.flush .operand).nextRow
  else .ok (scanner.push c)

/-- The two characters form one comparison operator. -/
def isComparisonPair (first second : Char) : Bool :=
  (first == '<' && (second == '=' || second == '>')) || (first == '>' && second == '=')

/-- Read one character. -/
def read (convention : Convention) (scanner : Scanner) (c : Char) : Except FormulaError Scanner :=
  match scanner.reading with
  | .formula => scanner.readFormula convention c
  | .blanks =>
      if Text.isBlank c then .ok scanner else (scanner.continueAs .formula).readFormula convention c
  | .comparison first =>
      if isComparisonPair first c then
        .ok ((scanner.emit { value := [first, c], kind := .infixOperator }).continueAs .formula)
      else
        ((scanner.emit { value := [first], kind := .infixOperator }).continueAs
          .formula).readFormula convention c
  | .text => .ok (if c = '"' then scanner.continueAs .textQuote else scanner.push c)
  | .textQuote =>
      if c = '"' then .ok ((scanner.push c).continueAs .text)
      else scanner.endText.readFormula convention c
  | .path => .ok (if c = '\'' then (scanner.push c).continueAs .pathQuote else scanner.push c)
  | .pathQuote =>
      if c = '\'' then .ok ((scanner.push c).continueAs .path)
      else (scanner.continueAs .formula).readFormula convention c
  | .bracket => .ok (if c = ']' then (scanner.push c).continueAs .formula else scanner.push c)
  | .errorCode =>
      let extended := scanner.push c
      .ok (if errorCodes.any fun code => code.reverse == extended.pending then
          (extended.emitPending .operand (some .error)).continueAs .formula
        else extended)

/-- Read one character and move past it. -/
def step (convention : Convention) (scanner : Scanner) (c : Char) :
    Except FormulaError Scanner := do
  let scanned ← scanner.read convention c
  return { scanned with position := scanned.position + c.utf8Size }

/-- Emit what the end of the formula leaves open: the pending text and the stops of all scopes,
innermost first. -/
def finish (scanner : Scanner) : Array Token :=
  let ended := match scanner.reading with
    | .text | .textQuote => scanner.endText
    | .errorCode => scanner.emitPending .operand (some .error)
    | .comparison first => scanner.emit { value := [first], kind := .infixOperator }
    | _ => scanner.flush .operand
  ended.scopes.foldl (fun tokens scope => tokens.push scope.kind.stopToken) ended.emitted

/-- Read a text from a given state. -/
def run (convention : Convention) (scanner : Scanner) (text : List Char) :
    Except FormulaError Scanner :=
  text.foldlM (step convention) scanner

end Scanner

/-- The formula without the blanks before it and without one equals sign after them. -/
def formulaBody (formula : List Char) : List Char :=
  match Text.trimStart formula with
  | '=' :: rest => rest
  | text => text

/-- The scanner at the start of the body of a formula. -/
def Scanner.start (formula : List Char) : Scanner :=
  { position := Text.byteCount formula - Text.byteCount (formulaBody formula) }

/-- The state in which the scan of a formula ends. -/
def scanFormula (convention : Convention) (formula : List Char) : Except FormulaError Scanner :=
  (Scanner.start formula).run convention (formulaBody formula)

end SheetFormula
