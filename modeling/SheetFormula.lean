import SheetFormula.File.Tree
import SheetFormula.Main
import SheetFormula.Proofs.Binding.Names
import SheetFormula.Proofs.Binding.Outcome
import SheetFormula.Proofs.Binding.Places
import SheetFormula.Proofs.Binding.Spans
import SheetFormula.Proofs.Binding.Structure
import SheetFormula.Proofs.Binding.Texts
import SheetFormula.Proofs.Cell.Numeral
import SheetFormula.Proofs.Render.Beautify
import SheetFormula.Proofs.Render.Blanks
import SheetFormula.Proofs.Render.Content
import SheetFormula.Proofs.Render.Failure
import SheetFormula.Proofs.Render.Markup
import SheetFormula.Proofs.Render.Minify
import SheetFormula.Proofs.Render.PlainText
import SheetFormula.Proofs.Render.Scopes
import SheetFormula.Proofs.Render.Tags
import SheetFormula.Proofs.Scanner.Refusal
import SheetFormula.Proofs.Scanner.Regional
import SheetFormula.Proofs.Script.Parts
import SheetFormula.Proofs.Script.Precedence
import SheetFormula.Proofs.Script.Structure
import SheetFormula.Proofs.Stream.Classified
import SheetFormula.Proofs.Stream.Nesting
import SheetFormula.Proofs.Stream.Separators
import SheetFormula.Proofs.Text.Markup
import SheetFormula.Proofs.Text.Search
import SheetFormula.Token.Cursor
import SheetFormula.Proofs.Cell.Reference
import SheetFormula.Proofs.Cell.Rectangle
import SheetFormula.Proofs.Template.Source
import SheetFormula.Proofs.Arithmetic.Grouping
import SheetFormula.Proofs.Arithmetic.Formula
import SheetFormula.Proofs.Arithmetic.Translation
import SheetFormula.Proofs.Stream.Numbers
import SheetFormula.Proofs.Scanner.Respaced
import SheetFormula.Proofs.Mapping.Columns
import SheetFormula.Proofs.Mapping.Filled
import SheetFormula.Proofs.Script.StringLiteral
import SheetFormula.Proofs.Scanner.Stack
import SheetFormula.Proofs.Render.Lines
import SheetFormula.Proofs.Settings.Entries
import SheetFormula.Proofs.Settings.Defects
