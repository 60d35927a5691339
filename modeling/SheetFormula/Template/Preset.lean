import SheetFormula.Template.Set

/-!
# Ready-made template sets

The layout with one argument to a line, the layout without optional blanks, its variant for
scripts, and the first layout as markup.
-/

namespace SheetFormula

/-- The unit of indentation. -/
inductive Indent where
  | spaces (width : Nat)
  | tabs
  deriving DecidableEq, Repr

/-- The text of one level of indentation. -/
def Indent.unit : Indent → List Char
  | spaces width => List.replicate width ' '
  | tabs => ['\t']

/-- How a formula is laid out over lines. -/
structure Layout where
  /-- The unit of indentation. -/
  indent : Indent := .spaces 4
  /-- Separators begin lines instead of ending them. -/
  commaFirst : Bool := false
  deriving DecidableEq, Repr

namespace TemplateSet

/-- The cases after which a separator that begins a line has to break the line. -/
def breaksBeforeSeparator : RenderCase → Bool
  | .functionStop | .subexpressionStop | .arrayStop | .operandText | .operandNumber
  | .operandLogical | .operandError | .operandRange | .operatorPostfix | .unknown => true
  | _ => false

/-- One argument to a line, with separators at the ends of lines. -/
def multilineTemplate : RenderCase → Template
  | .functionStart => (Template.wrap [] "(\n".toList).indented
  | .functionStop => (Template.literal ")".toList).onFreshLine.indented
  | .subexpressionStart => (Template.literal "(\n".toList).indented
  | .subexpressionStop => (Template.literal ")".toList).onFreshLine.indented
  | .arrayStart => (Template.literal ['\x7b']).indented
  | .arrayStop => Template.literal ['\x7d']
  | .arrayRowStart => Template.literal []
  | .arrayRowStop => Template.literal []
  | .arrayItemSeparator => Template.bare
  | .arrayRowSeparator => Template.bare
  | .argument => Template.wrap [] "\n".toList
  | .operandText => (Template.wrap "\"".toList "\"".toList).indented
  | .operandNumber => Template.bare.indented
  | .operandLogical => Template.bare.indented
  | .operandError => Template.bare.indented
  | .operandRange => Template.bare.indented
  | .operatorPrefix => Template.bare.indented
  | .operatorInfix => Template.wrap " ".toList " ".toList
  | .operatorIntersect => Template.literal " ".toList
  | .operatorUnion => Template.wrap [] " ".toList
  | .operatorPostfix => Template.bare
  | .unknown => Template.bare.indented

/-- One argument to a line, with separators at the starts of lines. -/
def commaFirstTemplate (case : RenderCase) : Template :=
  if case = .argument then (Template.wrap [] " ".toList).indented
  else if breaksBeforeSeparator case then (multilineTemplate case).withLineBreak
  else multilineTemplate case

/-- The layout with one argument to a line. -/
def beautify (layout : Layout) : TemplateSet where
  templates case :=
    some (if layout.commaFirst then commaFirstTemplate case else multilineTemplate case)
  indentUnit := layout.indent.unit
  newline := "\n".toList
  opening := "=".toList

/-- Everything on one line without optional blanks. -/
def inlineTemplate : RenderCase → Template
  | .functionStart => Template.wrap [] "(".toList
  | .functionStop => Template.literal ")".toList
  | .subexpressionStart => Template.literal "(".toList
  | .subexpressionStop => Template.literal ")".toList
  | .arrayStart => Template.literal ['\x7b']
  | .arrayStop => Template.literal ['\x7d']
  | .arrayRowStart => Template.literal []
  | .arrayRowStop => Template.literal []
  | .operandText => Template.wrap "\"".toList "\"".toList
  | .operatorIntersect => Template.literal " ".toList
  | _ => Template.bare

/-- The layout without optional blanks. -/
def minify : TemplateSet where
  templates case := some (inlineTemplate case)
  opening := "=".toList

/-- The layout of scripts: as without optional blanks, and without the equals sign. -/
def script : TemplateSet :=
  { minify with opening := [] }

/-- The opening tag of a span of a class. -/
def spanTag (className : String) : List Char :=
  "<span class=\"".toList ++ className.toList ++ "\">".toList

/-- The closing tag of a span. -/
def spanEnd : List Char :=
  "</span>".toList

/-- The token in a span of a class. -/
def span (className : String) : Template :=
  Template.wrap (spanTag className) spanEnd

/-- A fixed text in a span of a class. -/
def spanLiteral (className : String) (text : List Char) : Template :=
  Template.literal (spanTag className ++ text ++ spanEnd)

/-- A line end in markup. -/
def markupNewline : List Char :=
  "<br />\n".toList

/-- One argument to a line, as markup. -/
def markupTemplate : RenderCase → Template
  | .functionStart =>
      (Template.wrap (spanTag "function")
        (spanEnd ++ spanTag "function-start" ++ "(".toList ++ spanEnd ++ markupNewline)).indented
  | .functionStop => (spanLiteral "function-stop" ")".toList).onFreshLine.indented
  | .subexpressionStart =>
      (Template.literal
        (spanTag "subexpression-start" ++ "(".toList ++ spanEnd ++ markupNewline)).indented
  | .subexpressionStop => (spanLiteral "subexpression-stop" ")".toList).onFreshLine.indented
  | .arrayStart => (spanLiteral "array" ['\x7b']).indented
  | .arrayStop => spanLiteral "array" ['\x7d']
  | .arrayRowStart => Template.literal []
  | .arrayRowStop => Template.literal []
  | .arrayItemSeparator => span "array-separator"
  | .arrayRowSeparator => span "array-separator"
  | .argument => Template.wrap (spanTag "argument") (spanEnd ++ markupNewline)
  | .operandText =>
      (Template.wrap (spanTag "text" ++ "&quot;".toList) ("&quot;".toList ++ spanEnd)).indented
  | .operandNumber => (span "number").indented
  | .operandLogical => (span "logical").indented
  | .operandError => (span "error").indented
  | .operandRange => (span "range").indented
  | .operatorPrefix => (span "operator-prefix").indented
  | .operatorInfix => Template.wrap (" ".toList ++ spanTag "operator") (spanEnd ++ " ".toList)
  | .operatorIntersect => Template.literal " ".toList
  | .operatorUnion => Template.wrap (spanTag "operator-union") (spanEnd ++ " ".toList)
  | .operatorPostfix => span "operator-postfix"
  | .unknown => (span "unknown").indented

/-- The layout with one argument to a line as markup, indented by a number of hard spaces. -/
def html (width : Nat) : TemplateSet where
  templates case := some (markupTemplate case)
  indentUnit := Text.repeated width "&nbsp;".toList
  newline := markupNewline
  opening := "=".toList
  escape := .markup

end TemplateSet

end SheetFormula
