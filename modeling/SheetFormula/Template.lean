import SheetFormula.Error

/-!
# Templates

A template says how the text of a token is set: whether it starts on a fresh line, whether it is
indented, which texts surround it, and whether a line break may follow.  In settings files templates
are written with placeholders; `Template.parse` reads that form and `Template.display` writes it.
-/

namespace SheetFormula

/-- How a token is set. -/
structure Template where
  /-- Start a new line unless the output stands at the start of one. -/
  freshLine : Bool := false
  /-- Write the indentation first. -/
  indent : Bool := false
  /-- The text before the token. -/
  before : List Char := []
  /-- Write the token itself. -/
  token : Bool := false
  /-- The text after the token. -/
  after : List Char := []
  /-- Write the line break, where there is one, last. -/
  lineBreak : Bool := false
  deriving DecidableEq, Repr

namespace Template

/-- The template that writes a fixed text in place of the token. -/
def literal (text : List Char) : Template :=
  { before := text }

/-- The template that writes the token between two texts. -/
def wrap (before after : List Char) : Template :=
  { before := before, token := true, after := after }

/-- The template that writes the token alone. -/
def bare : Template :=
  wrap [] []

/-- The template with indentation. -/
def indented (template : Template) : Template :=
  { template with indent := true }

/-- The template on a fresh line. -/
def onFreshLine (template : Template) : Template :=
  { template with freshLine := true }

/-- The template with a line break. -/
def withLineBreak (template : Template) : Template :=
  { template with lineBreak := true }

/-- The text if the flag is set, and nothing otherwise. -/
def optional (flag : Bool) (text : List Char) : List Char :=
  if flag then text else []

/-- The template as it is written with placeholders. -/
def display (template : Template) : List Char :=
  optional template.freshLine Placeholder.newline.text ++
    optional template.indent Placeholder.autoindent.text ++
    template.before ++
    optional template.token Placeholder.token.text ++
    template.after ++
    optional template.lineBreak Placeholder.autolinebreak.text

/-- What the template writes for a token text, an indentation and a line break. -/
def apply (template : Template) (token indent lineBreak : List Char) : List Char :=
  optional template.indent indent ++ template.before ++ optional template.token token ++
    template.after ++ optional template.lineBreak lineBreak

/-- Take a text off the start, and say whether it was there. -/
def takeStart (start text : List Char) : Bool × List Char :=
  match Text.dropStart? start text with
  | some rest => (true, rest)
  | none => (false, text)

/-- Take a text off the end, and say whether it was there. -/
def takeEnd (ending text : List Char) : Bool × List Char :=
  match Text.dropEnd? ending text with
  | some rest => (true, rest)
  | none => (false, text)

/-- The first placeholder that makes a surrounding text invalid. -/
def fault? (text : List Char) : Option TemplateFault :=
  if Text.contains Placeholder.token.text text then some .repeatedToken
  else
    ([.newline, .autoindent, .autolinebreak].find? fun placeholder : Placeholder =>
      Text.contains placeholder.text text).map .misplaced

/-- The template that a source with placeholders describes, before its surrounding texts are
checked. -/
def ofSource (source : List Char) : Template :=
  let (freshLine, rest) := takeStart Placeholder.newline.text source
  let (indent, rest) := takeStart Placeholder.autoindent.text rest
  let (lineBreak, rest) := takeEnd Placeholder.autolinebreak.text rest
  match Text.splitOnce? Placeholder.token.text rest with
  | some (before, after) => ⟨freshLine, indent, before, true, after, lineBreak⟩
  | none => ⟨freshLine, indent, rest, false, [], lineBreak⟩

/-- Read a template written with placeholders.  The placeholders have fixed places and stand in
each at most once. -/
def parse (source : List Char) : Except FormulaError Template :=
  let template := ofSource source
  match (fault? template.before).or (fault? template.after) with
  | some fault => .error (.invalidTemplate source fault)
  | none => .ok template

end Template

end SheetFormula
