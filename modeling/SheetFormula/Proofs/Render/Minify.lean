import SheetFormula.Proofs.Render.Scopes
import SheetFormula.Proofs.Stream.ReadBack

/-!
# The style without optional blanks

Without optional blanks a formula is written as the texts of its tokens and nothing else
(`renderPlain_minify`).  The scanner takes these texts apart again unless two neighbours would be
read as one, so the short form of a formula has the tokens of the formula and is its own short form
(`tokenize_minify`).
-/

namespace SheetFormula

variable {convention : Convention} {tokens : List Token} {formula : List Char}

namespace Page

variable {page : Page} {token : Token}

/-- The case in which the page has the token rendered. -/
def caseOf (page : Page) (token : Token) : RenderCase :=
  .of token (page.leave token).scopes.head?

/-- Leaving a scope writes nothing. -/
@[simp]
theorem leave_written : (page.leave token).written = page.written := by
  unfold leave
  split <;> rfl

/-- Entering a scope writes nothing. -/
@[simp]
theorem enter_written : (page.enter token).written = page.written := by
  unfold enter
  split <;> rfl

/-- What is written on a page stands behind what was there. -/
theorem write_text (text : List Char) : (page.write text).text = page.text ++ text := by
  simp [write, Page.text]

end Page

namespace TemplateSet

variable {style : TemplateSet} {page after : Page} {token : Token} {next : Option Token}
  {template : Template}

/-- The line end that a template may need before the token. -/
def lineEnd (style : TemplateSet) (page : Page) (template : Template) : List Char :=
  Template.optional (template.freshLine && !(page.written.isEmpty || page.endsWith style.newline))
    style.newline

private theorem freshLine_text :
    (if template.freshLine then page.freshLine style.newline else page).text =
      page.text ++ style.lineEnd page template := by
  unfold lineEnd Page.freshLine
  cases template.freshLine with
  | false => simp [Template.optional]
  | true =>
      cases page.written.isEmpty || page.endsWith style.newline with
      | false => exact Page.write_text _
      | true => simp [Template.optional]

/-- What a token adds to the page, and whether the page stands at the start of a line after it. -/
theorem renderToken_text (found : style.templates (page.caseOf token) = some template)
    (written : style.renderToken page token .plain next = .ok after) :
    after.text = page.text ++ (style.lineEnd page template ++
        template.apply (style.tokenText (page.caseOf token) token)
          (style.indentation (page.leave token) token) (style.lineBreak next)) ∧
      after.lineStart = (token.isStop || after.endsWith style.newline) := by
  obtain ⟨placed, result, entered⟩ := bind_eq_ok.mp written
  obtain rfl := pure_eq_ok.mp entered
  obtain ⟨used, get, added⟩ := bind_eq_ok.mp result
  obtain rfl := pure_eq_ok.mp added
  have same : used = template := by
    change style.get (page.caseOf token) = .ok used at get
    rw [TemplateSet.get, found] at get
    exact (Except.ok.inj get).symm
  subst same
  refine ⟨?_, rfl⟩
  have ends : style.lineEnd (page.leave token) used = style.lineEnd page used := by
    simp [lineEnd, Page.endsWith]
  have stays : (page.leave token).text = page.text := by simp [Page.text]
  rw [← stays, ← ends, ← List.append_assoc, ← freshLine_text, ← Page.write_text]
  simp only [Page.text, Page.enter_written]
  rfl

/-- The style without optional blanks uses neither indentation nor line ends. -/
theorem inlineTemplate_apply (case : RenderCase) (text indent lineBreak : List Char) :
    (inlineTemplate case).apply text indent lineBreak = (inlineTemplate case).apply text [] [] := by
  cases case <;> rfl

/-- The scope around a token matters only to separators, and these are bare in every scope. -/
theorem inlineTemplate_scope (token : Token) (innermost : Option ScopeKind) :
    inlineTemplate (.of token innermost) = inlineTemplate (.of token none) ∧
      minify.tokenText (.of token innermost) token = minify.tokenText (.of token none) token := by
  obtain ⟨value, kind, role⟩ := token
  cases kind with
  | argument =>
      cases innermost with
      | none => exact ⟨rfl, rfl⟩
      | some scope => cases scope <;> exact ⟨rfl, rfl⟩
  | function | subexpression =>
      cases role with
      | none => exact ⟨rfl, rfl⟩
      | some role => cases role <;> exact ⟨rfl, rfl⟩
  | _ => exact ⟨rfl, rfl⟩

/-- A token is spelled in the same way in every scope. -/
theorem inlineTemplate_of (token : Token) (innermost : Option ScopeKind) :
    (inlineTemplate (.of token innermost)).apply (minify.tokenText (.of token innermost) token)
      [] [] = token.spelled := by
  obtain ⟨template, text⟩ := inlineTemplate_scope token innermost
  rw [template, text]
  rfl

private theorem minify_renderToken
    (written : minify.renderToken page token .plain next = .ok after) :
    after.text = page.text ++ token.spelled := by
  have found : minify.templates (page.caseOf token) = some (inlineTemplate (page.caseOf token)) :=
    rfl
  have bare : minify.lineEnd page (inlineTemplate (page.caseOf token)) = [] := by
    rw [lineEnd]
    cases page.caseOf token <;> rfl
  rw [(renderToken_text found written).1, bare, inlineTemplate_apply, Page.caseOf,
    inlineTemplate_of, List.nil_append]

private theorem minify_renderOnto
    (written : minify.renderOnto page (tokens.map (·, .plain)) = .ok after) :
    after.text = page.text ++ tokens.flatMap Token.spelled := by
  induction tokens generalizing page with
  | nil =>
      obtain rfl := Except.ok.inj written
      exact (List.append_nil _).symm
  | cons token rest ih =>
      obtain ⟨one, first, others⟩ := bind_eq_ok.mp written
      rw [ih others, minify_renderToken first, List.flatMap_cons, List.append_assoc]

/-- Without optional blanks the tokens are written as their texts, one after the other. -/
theorem renderPlain_minify (tokens : List Token) :
    minify.renderPlain tokens = .ok ('=' :: Text.trim (tokens.flatMap Token.spelled)) := by
  obtain ⟨after, written⟩ :=
    @renderOnto_total minify {} (fun _ => nofun) (tokens.map (·, .plain))
  refine bind_eq_ok.mpr ⟨after, written, pure_eq_ok.mpr ?_⟩
  rw [minify_renderOnto written]
  exact List.append_nil _

end TemplateSet

/-- Tokens of which no two neighbours join are spread over their texts without any gap. -/
theorem spread_spelled {previous : Option Token}
    (apart : tokens.IsChain fun left right => ¬Joins left right)
    (before : ∀ left ∈ previous, ∀ right ∈ tokens.head?, ¬Joins left right) :
    Spread previous tokens (tokens.map Token.raw) (tokens.flatMap Token.spelled) := by
  induction tokens generalizing previous with
  | nil => exact .nil
  | cons token rest ih =>
      obtain ⟨meets, restApart⟩ := List.isChain_cons.mp apart
      refine .tight (fun left member => before left member token rfl) (ih restApart ?_)
      rintro left ⟨⟩ right member
      exact meets right member

/-- A formula that cannot be read cannot be rendered, for the same reason. -/
theorem renderFormula_error {style : TemplateSet} {error : FormulaError}
    (read : tokenize convention formula = .error error) :
    renderFormula convention style formula = .error error := by
  rw [renderFormula, read]
  rfl

/-- A formula is rendered as the tokens that it is read as. -/
theorem renderFormula_eq {style : TemplateSet} (read : tokenize convention formula = .ok tokens) :
    renderFormula convention style formula = style.renderPlain tokens := by
  rw [renderFormula, read]
  rfl

/-- The short form of a formula that is read plainly has the same tokens and is its own short form,
if no two neighbours among the tokens join when nothing stands between them. -/
theorem tokenize_minify (plainly : ReadsPlainly convention formula tokens)
    (apart : tokens.IsChain fun left right => ¬Joins left right) :
    ∃ short, minify convention formula = .ok short ∧ tokenize convention short = .ok tokens ∧
      minify convention short = .ok short := by
  obtain ⟨legible, linked⟩ := plainly.legible
  have spread := @spread_spelled tokens none apart nofun
  have trimmed : Text.trim (tokens.flatMap Token.spelled) = tokens.flatMap Token.spelled := by
    have whole : Text.trim ([] ++ (tokens.flatMap Token.spelled ++ [])) = _ :=
      legible.trim_spread linked spread List.head?_map nofun nofun
    rwa [List.nil_append, List.append_nil] at whole
  have short : TemplateSet.minify.renderPlain tokens =
      .ok ('=' :: tokens.flatMap Token.spelled) := by
    rw [TemplateSet.renderPlain_minify, trimmed]
  have again := legible.tokenize_spread linked spread
  exact ⟨_, (renderFormula_eq plainly.read).trans short, again,
    (renderFormula_eq again).trans short⟩

/-- A formula with a dropped plus, a signed exponent, an intersection and an array left open. -/
theorem tokenize_minify_unclosed :
    ∃ tokens, ReadsPlainly .us " = +SUM( -1E+5 , 'a b'!A1  B2 ) <> \x7b1;\"x\"\"\"".toList tokens ∧
      (tokens.IsChain fun left right => ¬Joins left right) ∧
      ∃ short, minify .us " = +SUM( -1E+5 , 'a b'!A1  B2 ) <> \x7b1;\"x\"\"\"".toList = .ok short ∧
        tokenize .us short = .ok tokens ∧ minify .us short = .ok short := by
  have plainly : ReadsPlainly .us " = +SUM( -1E+5 , 'a b'!A1  B2 ) <> \x7b1;\"x\"\"\"".toList
      [ScopeKind.function.startToken "SUM".toList, ⟨['-'], .prefixOperator, none⟩,
        ⟨"1E+5".toList, .operand, some .number⟩, argumentToken ',',
        ⟨"'a b'!A1".toList, .operand, some .range⟩, intersection,
        ⟨"B2".toList, .operand, some .range⟩, ScopeKind.function.stopToken,
        ⟨"<>".toList, .infixOperator, some .logical⟩, ScopeKind.array.startToken arrayName,
        ScopeKind.arrayRow.startToken arrayRowName, ⟨['1'], .operand, some .number⟩,
        ScopeKind.arrayRow.stopToken, argumentToken ';', ScopeKind.arrayRow.startToken arrayRowName,
        ⟨"x\"".toList, .operand, some .text⟩, ScopeKind.arrayRow.stopToken,
        ScopeKind.array.stopToken] :=
    ⟨rfl, ⟨_, rfl, by decide⟩, by decide, by decide⟩
  exact ⟨_, plainly, by decide, tokenize_minify plainly (by decide)⟩

end SheetFormula
