import SheetFormula.Proofs.Render.Minify

/-!
# The blanks of a layout

The layout with one argument to a line writes the text of every token between blanks: line ends,
indentation and the spaces around operators (`Layout.renderToken_text`).  Which blanks these are
depends on the page and on the case of the token.  The lemmas at the end name the places where there
are none: before a value in the middle of a line, after a value that no separator follows, around an
intersection and around the rows of an array.
-/

namespace SheetFormula

variable {convention : Convention} {layout : Layout} {page : Page} {token : Token}
  {next : Option Token}

namespace Layout

/-- The template of a case, with separators at the starts or at the ends of lines. -/
def template (commaFirst : Bool) (case : RenderCase) : Template :=
  if commaFirst then TemplateSet.commaFirstTemplate case else TemplateSet.multilineTemplate case

/-- The blanks that always stand before a token of the case. -/
def lead : RenderCase → List Char
  | .operatorInfix => [' ']
  | _ => []

/-- The blanks that always stand after a token of the case. -/
def trail (commaFirst : Bool) : RenderCase → List Char
  | .functionStart | .subexpressionStart => ['\n']
  | .argument => if commaFirst then [' '] else ['\n']
  | .operatorInfix | .operatorUnion => [' ']
  | _ => []

/-- The template of a case writes what is written without optional blanks, and blanks around it. -/
theorem template_apply (commaFirst : Bool) (case : RenderCase) (text indent lineBreak : List Char) :
    (template commaFirst case).apply text indent lineBreak =
      (Template.optional (template commaFirst case).indent indent ++ lead case) ++
        ((TemplateSet.inlineTemplate case).apply text [] [] ++
          (trail commaFirst case ++
            Template.optional (template commaFirst case).lineBreak lineBreak)) := by
  cases commaFirst <;> cases case <;>
    simp [template, lead, trail, Template.apply, Template.optional, TemplateSet.commaFirstTemplate,
      TemplateSet.breaksBeforeSeparator, TemplateSet.multilineTemplate, TemplateSet.inlineTemplate,
      Template.wrap, Template.literal, Template.bare, Template.indented, Template.onFreshLine,
      Template.withLineBreak]

/-- The blanks before the text of a token. -/
def gapBefore (layout : Layout) (page : Page) (token : Token) : List Char :=
  (TemplateSet.beautify layout).lineEnd page (template layout.commaFirst (page.caseOf token)) ++
    (Template.optional (template layout.commaFirst (page.caseOf token)).indent
      ((TemplateSet.beautify layout).indentation (page.leave token) token) ++
        lead (page.caseOf token))

/-- The blanks after the text of a token. -/
def gapAfter (layout : Layout) (page : Page) (token : Token) (next : Option Token) : List Char :=
  trail layout.commaFirst (page.caseOf token) ++
    Template.optional (template layout.commaFirst (page.caseOf token)).lineBreak
      ((TemplateSet.beautify layout).lineBreak next)

/-- A token adds its text to the page, with blanks around it. -/
theorem renderToken_text {after : Page}
    (written : (TemplateSet.beautify layout).renderToken page token .plain next = .ok after) :
    after.text = page.text ++
        (layout.gapBefore page token ++ (token.spelled ++ layout.gapAfter page token next)) ∧
      after.lineStart = (token.isStop || after.endsWith ['\n']) := by
  have found : (TemplateSet.beautify layout).templates (page.caseOf token) =
      some (template layout.commaFirst (page.caseOf token)) := rfl
  obtain ⟨text, lineStart⟩ := TemplateSet.renderToken_text found written
  refine ⟨?_, lineStart⟩
  have same : (TemplateSet.inlineTemplate (page.caseOf token)).apply
      ((TemplateSet.beautify layout).tokenText (page.caseOf token) token) [] [] = token.spelled :=
    TemplateSet.inlineTemplate_of token (page.leave token).scopes.head?
  rw [text, template_apply, same, gapBefore, gapAfter, List.append_assoc, List.append_assoc,
    List.append_assoc]

private theorem optional_blank {flag : Bool} {text : List Char}
    (blank : ∀ c ∈ text, Text.isBlank c = true) :
    ∀ c ∈ Template.optional flag text, Text.isBlank c = true := by
  cases flag with
  | false => exact nofun
  | true => exact blank

/-- A space consists of blanks. -/
theorem space_blank : ∀ c ∈ [' '], Text.isBlank c = true :=
  List.forall_mem_singleton.mpr rfl

/-- A line end consists of blanks. -/
theorem newline_blank : ∀ c ∈ ['\n'], Text.isBlank c = true :=
  List.forall_mem_singleton.mpr rfl

private theorem mem_unit {indent : Indent} {c : Char} (member : c ∈ indent.unit) :
    c = ' ' ∨ c = '\t' := by
  cases indent with
  | spaces width => exact .inl (List.eq_of_mem_replicate member)
  | tabs => exact .inr (List.mem_singleton.mp member)

/-- Lines are indented by spaces and tabs only. -/
theorem mem_indentation {c : Char}
    (member : c ∈ (TemplateSet.beautify layout).indentation page token) : c = ' ' ∨ c = '\t' := by
  unfold TemplateSet.indentation at member
  split at member
  · obtain ⟨unit, repeated, inside⟩ := List.mem_flatten.mp member
    obtain rfl := List.eq_of_mem_replicate repeated
    exact mem_unit inside
  · cases member

private theorem indentation_blank :
    ∀ c ∈ (TemplateSet.beautify layout).indentation page token, Text.isBlank c = true := by
  intro c member
  rcases mem_indentation member with rfl | rfl <;> rfl

/-- Only blanks are always written before a token. -/
theorem lead_blank {case : RenderCase} : ∀ c ∈ lead case, Text.isBlank c = true := by
  unfold lead
  split
  · exact space_blank
  · exact nofun

/-- The layout adds only blanks before a token. -/
theorem gapBefore_blank : ∀ c ∈ layout.gapBefore page token, Text.isBlank c = true :=
  List.forall_mem_append.mpr ⟨optional_blank newline_blank,
    List.forall_mem_append.mpr ⟨optional_blank indentation_blank, lead_blank⟩⟩

/-- The layout adds only blanks after a token. -/
theorem gapAfter_blank : ∀ c ∈ layout.gapAfter page token next, Text.isBlank c = true := by
  refine List.forall_mem_append.mpr ⟨?_, optional_blank ?_⟩
  · unfold trail
    split
    case h_1 | h_2 => exact newline_blank
    case h_3 =>
        split
        · exact space_blank
        · exact newline_blank
    case h_4 | h_5 => exact space_blank
    case h_6 => exact nofun
  · unfold TemplateSet.lineBreak
    split
    · exact newline_blank
    · exact nofun

end Layout

namespace RenderCase

/-- A value begins with a token of the case. -/
def beginsValue : RenderCase → Bool
  | functionStart | subexpressionStart | arrayStart | arrayRowStart
  | operandText | operandNumber | operandLogical | operandError | operandRange => true
  | _ => false

/-- A value ends with a token of the case. -/
def endsValue : RenderCase → Bool
  | functionStop | subexpressionStop | arrayStop | arrayRowStop
  | operandText | operandNumber | operandLogical | operandError | operandRange => true
  | _ => false

/-- The case says of a token what its neighbours depend on. -/
structure Fits (case : RenderCase) (token : Token) : Prop where
  begins : token.beginsValue = true → case.beginsValue = true ∧ token.isStop = false
  ends : token.endsValue = true → case.endsValue = true
  intersect : token.role = some .intersect → case = .operatorIntersect
  joins : token.kind = .infixOperator →
    token.value = ['+'] ∨ token.value = ['-'] ∨ token.value ∈ comparisons → case = .operatorInfix
  separates : token.isArgument = true →
    token.beginsValue = false ∧ token.role ≠ some .intersect

private theorem fits_startToken (kind : ScopeKind) (name : List Char)
    (innermost : Option ScopeKind) :
    (of (kind.startToken name) innermost).Fits (kind.startToken name) := by
  have begins : (ofFunctionStart name).beginsValue = true := by
    unfold ofFunctionStart
    split
    · rfl
    · split <;> rfl
  cases kind with
  | subexpression => exact ⟨fun _ => ⟨rfl, rfl⟩, nofun, nofun, nofun, nofun⟩
  | _ => exact ⟨fun _ => ⟨begins, rfl⟩, nofun, nofun, nofun, nofun⟩

private theorem fits_stopToken (kind : ScopeKind) (innermost : Option ScopeKind) :
    (of kind.stopToken innermost).Fits kind.stopToken := by
  cases kind <;> exact ⟨nofun, fun _ => rfl, nofun, nofun, nofun⟩

end RenderCase

private theorem IsFinished.fits {word code : List Char → Prop}
    (finished : IsFinished convention word code token) (innermost : Option ScopeKind) :
    (RenderCase.of token innermost).Fits token := by
  obtain ⟨resolved, kept⟩ := finished
  cases resolved with
  | @word text held =>
      rcases classify_cases convention text with sort | sort | sort <;> rw [sort] <;>
        exact ⟨fun _ => ⟨rfl, rfl⟩, fun _ => rfl, nofun, nofun, nofun⟩
  | text content => exact ⟨fun _ => ⟨rfl, rfl⟩, fun _ => rfl, nofun, nofun, nofun⟩
  | code held => exact ⟨fun _ => ⟨rfl, rfl⟩, fun _ => rfl, nofun, nofun, nofun⟩
  | unknown _ => exact ⟨nofun, nofun, nofun, nofun, nofun⟩
  | plus => exact (kept rfl).elim
  | minus => exact ⟨nofun, nofun, nofun, nofun, nofun⟩
  | percent => exact ⟨nofun, nofun, nofun, nofun, nofun⟩
  | intersection =>
      exact ⟨nofun, nofun, fun _ => rfl, fun _ marks => absurd marks (by decide), nofun⟩
  | _ => exact ⟨nofun, nofun, nofun, fun _ _ => rfl, nofun⟩

/-- Every token of a finished stream is rendered in a case that fits. -/
theorem Leads.fits {word code called : List Char → Prop} {scopes last : List ScopeKind}
    {tokens : List Token}
    (course : Leads convention (IsFinished convention word code) called scopes tokens last) :
    ∀ token ∈ tokens, ∀ innermost, (RenderCase.of token innermost).Fits token := by
  refine course.forall_mem (fun token held => held.fits) ?_ RenderCase.fits_startToken
    RenderCase.fits_stopToken
  intro c separator
  refine ⟨fun innermost => ⟨nofun, nofun, nofun, nofun, fun _ => ⟨rfl, nofun⟩⟩,
    fun innermost => ⟨nofun, nofun, nofun, fun _ marks => absurd marks ?_, nofun⟩⟩
  simp only [List.mem_cons, List.not_mem_nil, or_false] at separator
  rcases separator with rfl | rfl <;> decide

namespace RenderCase

/-- Nothing stands before a token of the case. -/
def beginsTight : RenderCase → Bool
  | arrayStop | arrayRowStart | arrayRowStop | arrayRowSeparator | operatorIntersect => true
  | _ => false

/-- Nothing stands after a token of the case. -/
def endsTight : RenderCase → Bool
  | arrayStart | arrayRowStart | arrayRowStop | arrayRowSeparator | operatorIntersect => true
  | _ => false

end RenderCase

namespace Layout

private theorem template_of_beginsValue (commaFirst : Bool) (case : RenderCase) :
    case.beginsValue = true → (template commaFirst case).freshLine = false ∧ lead case = [] := by
  cases commaFirst <;> cases case <;> decide

/-- A token that begins tight neither begins a line nor is indented, and has no blanks before it. -/
theorem template_of_beginsTight (commaFirst : Bool) (case : RenderCase) :
    case.beginsTight = true → (template commaFirst case).freshLine = false ∧
      (template commaFirst case).indent = false ∧ lead case = [] := by
  cases commaFirst <;> cases case <;> decide

/-- A token that ends tight neither ends a line nor has blanks after it. -/
theorem template_of_endsTight (commaFirst : Bool) (case : RenderCase) :
    case.endsTight = true →
      trail commaFirst case = [] ∧ (template commaFirst case).lineBreak = false := by
  cases commaFirst <;> cases case <;> decide

private theorem trail_of_endsValue (commaFirst : Bool) (case : RenderCase) :
    case.endsValue = true → trail commaFirst case = [] := by
  cases commaFirst <;> cases case <;> decide

/-- On any page, nothing is added before a token that begins tight. -/
theorem gapBefore_of_beginsTight (tight : (page.caseOf token).beginsTight = true) :
    layout.gapBefore page token = [] := by
  obtain ⟨fresh, indent, lead⟩ := template_of_beginsTight layout.commaFirst _ tight
  simp [gapBefore, TemplateSet.lineEnd, Template.optional, fresh, indent, lead]

/-- On any page, nothing is added after a token that ends tight. -/
theorem gapAfter_of_endsTight (tight : (page.caseOf token).endsTight = true) :
    layout.gapAfter page token next = [] := by
  obtain ⟨trail, lineBreak⟩ := template_of_endsTight layout.commaFirst _ tight
  simp [gapAfter, Template.optional, trail, lineBreak]

/-- A value in the middle of a line has nothing before it. -/
theorem gapBefore_of_begins (fits : (page.caseOf token).Fits token)
    (begins : token.beginsValue = true) (midline : page.lineStart = false) :
    layout.gapBefore page token = [] := by
  obtain ⟨isValue, going⟩ := fits.begins begins
  obtain ⟨fresh, lead⟩ := template_of_beginsValue layout.commaFirst _ isValue
  have left : (page.leave token).lineStart = page.lineStart := by
    simp [Page.leave, going]
  simp [gapBefore, TemplateSet.lineEnd, TemplateSet.indentation, Template.optional, fresh, lead,
    going, left, midline]

/-- A value has nothing after it, unless a separator comes next. -/
theorem gapAfter_of_ends (fits : (page.caseOf token).Fits token) (ends : token.endsValue = true)
    (other : next.any Token.isArgument = false) : layout.gapAfter page token next = [] := by
  have trail := trail_of_endsValue layout.commaFirst _ (fits.ends ends)
  simp [gapAfter, TemplateSet.lineBreak, Template.optional, trail, other]

/-- An operator that could join the token before it has a blank before it. -/
theorem gapBefore_of_joins {left : Token} (fits : (page.caseOf token).Fits token)
    (joins : Joins left token) : layout.gapBefore page token ≠ [] := by
  have operator : page.caseOf token = .operatorInfix := by
    obtain ⟨infixKind, ⟨_, _, sign⟩ | ⟨_, _, comparison⟩⟩ := joins
    · exact fits.joins infixKind (sign.imp_right .inl)
    · exact fits.joins infixKind (.inr (.inr comparison))
  simp [gapBefore, operator, lead]

end Layout

end SheetFormula
