import SheetFormula.Format
import SheetFormula.Proofs.Render.Scopes
import SheetFormula.Proofs.Scanner.Refusal

/-!
# Formatting fails where reading fails

Every ready-made style has a template for each case, and the templates of the options are put over
those of a style without taking any away.  Whatever the mode and the options are, the tokens of a
formula can therefore be written (`FormatOptions.write_total`), and the errors of formatting are
those of reading (`format_eq_error_iff`).
-/

namespace SheetFormula

variable {convention : Convention} {options : FormatOptions} {style : TemplateSet}
  {formula : List Char} {error : FormulaError}

namespace TemplateSet

private theorem render_total (total : ∀ case, style.templates case ≠ none)
    (pairs : List (Token × Rendition)) : ∃ output, style.render pairs = .ok output := by
  obtain ⟨page, written⟩ := @renderOnto_total style {} total pairs
  exact ⟨_, bind_eq_ok.mpr ⟨page, written, rfl⟩⟩

end TemplateSet

namespace FormatOptions

/-- Replacing templates of a style leaves no case without one. -/
theorem overriding_templates (total : ∀ case, style.templates case ≠ none) (case : RenderCase) :
    (options.overriding style).templates case ≠ none := by
  change (options.templates case).or (style.templates case) ≠ none
  intro missing
  exact total case (Option.or_eq_none_iff.mp missing).2

/-- What the options make of the tokens of a formula. -/
def write (options : FormatOptions) (tokens : List Token) : Except FormulaError (List Char) :=
  match options.mode with
  | .beautify => (options.overriding (.beautify options.layout)).renderPlain tokens
  | .minify => TemplateSet.minify.renderPlain tokens
  | .html => (options.overriding (.html options.markupWidth)).renderPlain tokens
  | .script _ =>
      TemplateSet.script.render (tokens.zip (Script.renditions options.convention tokens))
  | .tokens => .ok (tokenListing tokens)

/-- The tokens of a formula can be written in every mode and under all options. -/
theorem write_total (options : FormatOptions) (tokens : List Token) :
    ∃ output, options.write tokens = .ok output := by
  unfold write
  cases options.mode with
  | beautify | html =>
      exact TemplateSet.render_total (overriding_templates fun _ => Option.some_ne_none _) _
  | minify | script language => exact TemplateSet.render_total (fun _ => Option.some_ne_none _) _
  | tokens => exact ⟨_, rfl⟩

end FormatOptions

/-- Formatting reads the formula and writes its tokens. -/
theorem format_eq_bind (options : FormatOptions) (formula : List Char) :
    format options formula = tokenize options.convention formula >>= options.write := by
  unfold format FormatOptions.write
  cases options.mode with
  | tokens => cases tokenize options.convention formula <;> rfl
  | _ => rfl

private theorem format_eq_error_iff :
    format options formula = .error error ↔ tokenize options.convention formula = .error error := by
  rw [format_eq_bind, bind_eq_error]
  refine ⟨fun failed => failed.resolve_right ?_, .inl⟩
  rintro ⟨tokens, _, unwritten⟩
  obtain ⟨output, written⟩ := options.write_total tokens
  rw [written] at unwritten
  cases unwritten

/-- Reading fails at a closing character and nowhere else. -/
theorem unbalanced_of_tokenize (refused : tokenize convention formula = .error error) :
    ∃ position found, error = .unbalanced position found := by
  obtain ⟨_, c, _, middle, _, _, stopped⟩ :=
    Scanner.run_eq_error.mp (tokenize_eq_error.mp refused)
  exact ⟨middle.position, c, (Scanner.step_eq_error stopped).2⟩

/-- In every mode and under all options, formatting fails with an error if and only if reading the
formula fails with this error, which is then the error of a closing character.  No template is ever
missing. -/
theorem format_fails_iff (options : FormatOptions) (formula : List Char) :
    (∀ error, format options formula = .error error ↔
      tokenize options.convention formula = .error error) ∧
    ∀ error, format options formula = .error error →
      ∃ position found, error = .unbalanced position found :=
  ⟨fun _ => format_eq_error_iff, fun _ failed =>
    unbalanced_of_tokenize (format_eq_error_iff.mp failed)⟩

end SheetFormula
