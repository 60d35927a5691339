import SheetFormula.Proofs.Render.Layout

/-!
# Layouts differ in blanks only

The layout with one argument to a line and the style without optional blanks write the same visible
characters in the same order.  This holds of every stream, whatever is unknown in it, whichever
names are called and wherever the formula ends (`beautify_visible`).
-/

namespace SheetFormula

variable {convention : Convention} {layout : Layout} {page after : Page} {tokens : List Token}

namespace Layout

private theorem visible_renderToken {token : Token} {next : Option Token}
    (written : (TemplateSet.beautify layout).renderToken page token .plain next = .ok after) :
    Text.visible after.text = Text.visible page.text ++ Text.visible token.spelled := by
  rw [(renderToken_text written).1, Text.visible_append, Text.visible_append, Text.visible_append,
    Text.visible_of_blank gapBefore_blank, Text.visible_of_blank gapAfter_blank, List.nil_append,
    List.append_nil]

private theorem visible_renderOnto
    (written : (TemplateSet.beautify layout).renderOnto page (tokens.map (·, .plain)) = .ok after) :
    Text.visible after.text =
      Text.visible page.text ++ Text.visible (tokens.flatMap Token.spelled) := by
  induction tokens generalizing page with
  | nil =>
      obtain rfl := Except.ok.inj written
      exact (List.append_nil _).symm
  | cons token rest ih =>
      obtain ⟨one, first, others⟩ := bind_eq_ok.mp written
      rw [ih others, visible_renderToken first, List.flatMap_cons, Text.visible_append,
        List.append_assoc]

/-- Every stream can be laid out, and what is visible of it are the texts of its tokens. -/
theorem renderPlain_visible (layout : Layout) (tokens : List Token) :
    ∃ laid, (TemplateSet.beautify layout).renderPlain tokens = .ok ('=' :: laid) ∧
      Text.visible laid = Text.visible (tokens.flatMap Token.spelled) := by
  obtain ⟨after, written⟩ :=
    @TemplateSet.renderOnto_total (.beautify layout) {} (fun _ => nofun) (tokens.map (·, .plain))
  refine ⟨Text.trim after.text, bind_eq_ok.mpr ⟨after, written, pure_eq_ok.mpr ?_⟩, ?_⟩
  · exact List.append_nil _
  · rw [Text.visible_trim, visible_renderOnto written]
    rfl

end Layout

/-- Laying out a formula and writing it without optional blanks fail with the same error, or give
two texts that are equal once all blanks are deleted from them. -/
theorem beautify_visible (convention : Convention) (layout : Layout) (formula : List Char) :
    (∃ error, beautify convention layout formula = .error error ∧
      minify convention formula = .error error) ∨
    ∃ laid short, beautify convention layout formula = .ok laid ∧
      minify convention formula = .ok short ∧ Text.visible laid = Text.visible short := by
  cases read : tokenize convention formula with
  | error error =>
      exact .inl ⟨error, renderFormula_error read, renderFormula_error read⟩
  | ok tokens =>
      right
      obtain ⟨laid, written, visible⟩ := layout.renderPlain_visible tokens
      refine ⟨_, _, (renderFormula_eq read).trans written,
        (renderFormula_eq read).trans (TemplateSet.renderPlain_minify tokens), ?_⟩
      rw [Text.visible_cons rfl, Text.visible_cons rfl, visible, Text.visible_trim]

end SheetFormula
