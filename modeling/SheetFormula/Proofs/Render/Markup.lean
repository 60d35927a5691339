import SheetFormula.Proofs.Render.Beautify
import SheetFormula.Proofs.Text.Markup

/-!
# Markup shows the layout

The layout as markup is written token by token beside the layout itself.  At every token the two
pages stand in the same scopes and agree on where a line starts, and the markup written so far shows
the text written so far (`Mirrors.step`, `Mirrors.run`).

In the end both are trimmed, and markup keeps an indentation with which it begins.  Only a stop can
begin with one: the stop of a call that is taken for the row of an array, so that nothing is written
for its start.  `overhang` counts the levels of that indentation, and apart from it markup and the
text that it shows begin alike (`beginsAlike_of_renderOnto`).
-/

namespace SheetFormula

open Text (Shows EndsAlike BeginsAlike)

variable {width : Nat} {token : Token} {tokens : List Token}
  {next : Option Token} {marked laid page after laidAfter : Page}

/-- A token of the case writes nothing visible. -/
def RenderCase.isInvisible : RenderCase → Bool
  | arrayRowStart | arrayRowStop | operatorIntersect => true
  | _ => false

namespace TemplateSet

/-- The blanks after a token as markup has them. -/
def markupTrail (trail : List Char) : List Char :=
  if trail = ['\n'] then markupNewline else trail

private theorem shows_span {className : String} {inner shown : List Char}
    (clean : '>' ∉ className.toList) (shows : Shows inner shown) :
    Shows (spanTag className ++ (inner ++ spanEnd)) shown := by
  have opened : '>' ∉ "span class=\"".toList ++ className.toList ++ ['"'] := by
    simp only [List.mem_append, not_or]
    exact ⟨⟨by decide, clean⟩, by decide⟩
  have closed : '>' ∉ "/span".toList := by decide
  have opening : Shows (spanTag className) [] := by
    have tag := Shows.tag opened .nil
    rwa [List.append_assoc, List.append_assoc] at tag
  have closing : Shows spanEnd [] := .tag closed .nil
  have whole := opening.append (shows.append closing)
  rwa [List.nil_append, List.append_nil] at whole

private theorem shows_newline : Shows markupNewline ['\n'] := by
  have closed : '>' ∉ "br /".toList := by decide
  exact .tag closed (.char (by decide) .nil)

/-- The templates of markup begin lines and indent where those over lines do, and have the line ends
after a token in their texts. -/
theorem markupTemplate_flags (case : RenderCase) :
    (markupTemplate case).freshLine = (multilineTemplate case).freshLine ∧
      (markupTemplate case).indent = (multilineTemplate case).indent ∧
      (markupTemplate case).lineBreak = false := by
  cases case <;> exact ⟨rfl, rfl, rfl⟩

/-- What the markup template of a case writes for a text, its indentation apart. -/
def markupContent (case : RenderCase) (text : List Char) : List Char :=
  (markupTemplate case).before ++
    (Template.optional (markupTemplate case).token (Text.markup text) ++
      (markupTemplate case).after)

/-- The core stands between the blanks of the layout in what the markup template of a case writes
for a text, and it shows what is written without optional blanks. -/
structure IsCore (case : RenderCase) (text core : List Char) : Prop where
  shows : Shows core ((inlineTemplate case).apply text [] [])
  invisible : case.isInvisible = true → core = (inlineTemplate case).apply text [] []
  content : markupContent case text =
    Layout.lead case ++ (core ++ markupTrail (Layout.trail false case))

private theorem isCore_markupContent {case : RenderCase} {text : List Char}
    (lead : Layout.lead case = []) (trail : Layout.trail false case = [])
    (visible : case.isInvisible = false)
    (shows : Shows (markupContent case text) ((inlineTemplate case).apply text [] [])) :
    IsCore case text (markupContent case text) := by
  refine ⟨shows, by simp [visible], ?_⟩
  rw [lead, trail]
  exact (List.append_nil _).symm

private theorem shows_spanned (className : String) (clean : '>' ∉ className.toList)
    (text : List Char) :
    Shows (spanTag className ++ (Text.markup text ++ spanEnd))
      (Template.bare.apply text [] []) := by
  rw [bare_apply]
  exact shows_span clean (Text.shows_markup text)

private theorem shows_spanLiteral (className : String) (clean : '>' ∉ className.toList) (c : Char)
    (plain : c ≠ '<' ∧ c ≠ '&') :
    Shows (spanTag className ++ [c] ++ spanEnd ++ ([] ++ [])) [c] := by
  rw [List.append_nil, List.append_nil, List.append_assoc]
  exact shows_span clean (.char plain .nil)

private theorem isCore_text (text : List Char) :
    IsCore .operandText text (markupContent .operandText text) := by
  have clean : '>' ∉ "text".toList := by decide
  have quote : Shows "&quot;".toList ['"'] := Text.shows_markup ['"']
  have shows := shows_span clean (quote.append ((Text.shows_markup text).append quote))
  rw [List.append_assoc, List.append_assoc, ← List.append_assoc] at shows
  refine isCore_markupContent rfl rfl rfl ?_
  have quoted : (inlineTemplate .operandText).apply text [] [] = ['"'] ++ (text ++ ['"']) := by
    simp [inlineTemplate, Template.wrap, Template.apply, Template.optional]
  rw [quoted]
  exact shows

private theorem isCore_call (text : List Char) :
    IsCore .functionStart text (spanTag "function" ++ (Text.markup text ++ spanEnd) ++
      (spanTag "function-start" ++ (['('] ++ spanEnd))) := by
  have clean : '>' ∉ "function".toList := by decide
  have cleanStart : '>' ∉ "function-start".toList := by decide
  have assoc (first second third last : List Char) :
      first ++ (Text.markup text ++ (second ++ third ++ ['('] ++ second ++ last)) =
        first ++ (Text.markup text ++ second) ++ (third ++ (['('] ++ second)) ++ last := by
    simp
  refine ⟨?_, nofun, assoc (spanTag "function") spanEnd (spanTag "function-start") markupNewline⟩
  have called : (inlineTemplate .functionStart).apply text [] [] = text ++ ['('] := by
    simp [inlineTemplate, Template.wrap, Template.apply, Template.optional]
  rw [called]
  exact (shows_span clean (Text.shows_markup text)).append
    (shows_span cleanStart (.char (by decide) .nil))

private theorem isCore_group (text : List Char) :
    IsCore .subexpressionStart text (spanTag "subexpression-start" ++ (['('] ++ spanEnd)) := by
  have clean : '>' ∉ "subexpression-start".toList := by decide
  have assoc (first second last : List Char) :
      first ++ ['('] ++ second ++ last ++ ([] ++ []) = first ++ (['('] ++ second) ++ last := by
    simp
  exact ⟨shows_span clean (.char (by decide) .nil), nofun,
    assoc (spanTag "subexpression-start") spanEnd markupNewline⟩

/-- What markup writes for a token has a core between the blanks of the layout, in every case. -/
private theorem exists_isCore (case : RenderCase) (text : List Char) :
    ∃ core, IsCore case text core := by
  have spaced (first second last : List Char) :
      first ++ (Text.markup text ++ (second ++ last)) =
        first ++ (Text.markup text ++ second) ++ last := by
    simp
  have spanned (className : String) (clean : '>' ∉ className.toList) :=
    shows_spanned className clean text
  cases case with
  | functionStart => exact ⟨_, isCore_call text⟩
  | subexpressionStart => exact ⟨_, isCore_group text⟩
  | operandText => exact ⟨_, isCore_text text⟩
  | arrayRowStart | arrayRowStop => exact ⟨[], .nil, fun _ => rfl, rfl⟩
  | operatorIntersect => exact ⟨[' '], .char (by decide) .nil, fun _ => rfl, rfl⟩
  | argument =>
      exact ⟨_, spanned "argument" (by decide), nofun,
        spaced (spanTag "argument") spanEnd markupNewline⟩
  | operatorUnion =>
      exact ⟨_, spanned "operator-union" (by decide), nofun,
        spaced (spanTag "operator-union") spanEnd [' ']⟩
  | operatorInfix =>
      exact ⟨_, spanned "operator" (by decide), nofun,
        congrArg (' ' :: ·) (spaced (spanTag "operator") spanEnd [' '])⟩
  | functionStop =>
      exact ⟨_, isCore_markupContent rfl rfl rfl
        (shows_spanLiteral "function-stop" (by decide) ')' (by decide))⟩
  | subexpressionStop =>
      exact ⟨_, isCore_markupContent rfl rfl rfl
        (shows_spanLiteral "subexpression-stop" (by decide) ')' (by decide))⟩
  | arrayStart =>
      exact ⟨_, isCore_markupContent rfl rfl rfl
        (shows_spanLiteral "array" (by decide) '\x7b' (by decide))⟩
  | arrayStop =>
      exact ⟨_, isCore_markupContent rfl rfl rfl
        (shows_spanLiteral "array" (by decide) '\x7d' (by decide))⟩
  | arrayItemSeparator | arrayRowSeparator =>
      exact ⟨_, isCore_markupContent rfl rfl rfl (spanned "array-separator" (by decide))⟩
  | operandNumber => exact ⟨_, isCore_markupContent rfl rfl rfl (spanned "number" (by decide))⟩
  | operandLogical => exact ⟨_, isCore_markupContent rfl rfl rfl (spanned "logical" (by decide))⟩
  | operandError => exact ⟨_, isCore_markupContent rfl rfl rfl (spanned "error" (by decide))⟩
  | operandRange => exact ⟨_, isCore_markupContent rfl rfl rfl (spanned "range" (by decide))⟩
  | operatorPrefix =>
      exact ⟨_, isCore_markupContent rfl rfl rfl (spanned "operator-prefix" (by decide))⟩
  | operatorPostfix =>
      exact ⟨_, isCore_markupContent rfl rfl rfl (spanned "operator-postfix" (by decide))⟩
  | unknown => exact ⟨_, isCore_markupContent rfl rfl rfl (spanned "unknown" (by decide))⟩

/-- What markup has before the text of a token: what the layout has, with the line ends and hard
spaces of markup. -/
def markupGap (width : Nat) (page : Page) (token : Token) : List Char :=
  (html width).lineEnd page (multilineTemplate (page.caseOf token)) ++
    (Template.optional (multilineTemplate (page.caseOf token)).indent
      ((html width).indentation (page.leave token) token) ++ Layout.lead (page.caseOf token))

private theorem markupGap_of_beginsTight (tight : (page.caseOf token).beginsTight = true) :
    markupGap width page token = [] := by
  obtain ⟨fresh, indent, lead⟩ := Layout.template_of_beginsTight false _ tight
  change (multilineTemplate (page.caseOf token)).freshLine = false at fresh
  change (multilineTemplate (page.caseOf token)).indent = false at indent
  simp [markupGap, lineEnd, Template.optional, fresh, indent, lead]

/-- A token adds markup to the page that shows its text, with blanks around it. -/
theorem html_renderToken (written : (html width).renderToken page token .plain next = .ok after) :
    ∃ core, Shows core token.spelled ∧
      ((page.caseOf token).isInvisible = true → core = token.spelled) ∧
      after.text = page.text ++ (markupGap width page token ++
        (core ++ markupTrail (Layout.trail false (page.caseOf token)))) ∧
      after.lineStart = (token.isStop || after.endsWith markupNewline) := by
  have found : (html width).templates (page.caseOf token) =
      some (markupTemplate (page.caseOf token)) := rfl
  obtain ⟨text, lineStart⟩ := renderToken_text found written
  obtain ⟨core, isCore⟩ :=
    exists_isCore (page.caseOf token) (minify.tokenText (page.caseOf token) token)
  obtain ⟨fresh, indent, lineBreak⟩ := markupTemplate_flags (page.caseOf token)
  have spelled : (inlineTemplate (page.caseOf token)).apply
      (minify.tokenText (page.caseOf token) token) [] [] = token.spelled :=
    inlineTemplate_of token (page.leave token).scopes.head?
  have lineEnd : (html width).lineEnd page (markupTemplate (page.caseOf token)) =
      (html width).lineEnd page (multilineTemplate (page.caseOf token)) := by
    rw [TemplateSet.lineEnd, fresh, TemplateSet.lineEnd]
  have content : (markupTemplate (page.caseOf token)).apply
      ((html width).tokenText (page.caseOf token) token)
      ((html width).indentation (page.leave token) token) ((html width).lineBreak next) =
        Template.optional (multilineTemplate (page.caseOf token)).indent
          ((html width).indentation (page.leave token) token) ++
            markupContent (page.caseOf token) (minify.tokenText (page.caseOf token) token) := by
    rw [Template.apply, indent, lineBreak, markupContent]
    simp only [List.append_assoc]
    exact congrArg _ (congrArg _ (congrArg _ (List.append_nil _)))
  refine ⟨core, spelled ▸ isCore.shows, fun hidden => spelled ▸ isCore.invisible hidden, ?_,
    lineStart⟩
  rw [text, lineEnd, content, isCore.content, markupGap]
  simp only [List.append_assoc]

end TemplateSet

open TemplateSet (markupNewline markupTrail markupGap)

/-- The layout of which the markup of a width is the markup. -/
def Layout.ofWidth (width : Nat) : Layout :=
  { indent := .spaces width }

private theorem Layout.gapAfter_ofWidth :
    (Layout.ofWidth width).gapAfter page token next =
      Layout.trail false (page.caseOf token) := by
  have lineBreak : (Layout.template false (page.caseOf token)).lineBreak = false := by
    cases page.caseOf token <;> rfl
  simp [gapAfter, ofWidth, Template.optional, lineBreak]

/-- What a page ends with is what its text ends with. -/
theorem Page.endsWith_eq (page : Page) (text : List Char) :
    page.endsWith text = text.isSuffixOf page.text := by
  rw [Page.endsWith, List.isSuffixOf, Page.text, List.reverse_reverse]

private theorem Text.Shows.optional {markup shown : List Char} (shows : Shows markup shown)
    (flag : Bool) : Shows (Template.optional flag markup) (Template.optional flag shown) := by
  cases flag with
  | false => exact .nil
  | true => exact shows

/-- Hard spaces show spaces. -/
theorem shows_spaces (width : Nat) :
    Shows (Text.repeated width "&nbsp;".toList) (List.replicate width ' ') := by
  induction width with
  | zero => exact .nil
  | succ width ih => exact .entity (by simp [Text.entities]) ih

/-- The page of markup shows the page of the layout, and the two agree on what comes next. -/
structure Mirrors (marked laid : Page) : Prop where
  alike : EndsAlike marked.text laid.text
  scopes : marked.scopes = laid.scopes
  lineStart : marked.lineStart = laid.lineStart
  line : marked.endsWith markupNewline = laid.endsWith ['\n']

namespace Mirrors

/-- An empty page of markup shows an empty page. -/
theorem start : Mirrors {} {} :=
  ⟨.blank nofun, rfl, rfl, rfl⟩

private theorem leave_scopes (mirrors : Mirrors marked laid) :
    (marked.leave token).scopes = (laid.leave token).scopes := by
  unfold Page.leave
  split <;> simp only [mirrors.scopes]

private theorem caseOf_eq (mirrors : Mirrors marked laid) :
    marked.caseOf token = laid.caseOf token := by
  rw [Page.caseOf, mirrors.leave_scopes, Page.caseOf]

private theorem isEmpty_eq (mirrors : Mirrors marked laid) :
    marked.written.isEmpty = laid.written.isEmpty := by
  have same := mirrors.alike.eq_nil_iff
  simp only [Page.text, List.reverse_eq_nil_iff] at same
  rw [Bool.eq_iff_iff, List.isEmpty_iff, List.isEmpty_iff, same]

private theorem indentation (mirrors : Mirrors marked laid) :
    Shows ((TemplateSet.html width).indentation (marked.leave token) token)
      ((TemplateSet.beautify (.ofWidth width)).indentation (laid.leave token) token) := by
  have start : (marked.leave token).lineStart = (laid.leave token).lineStart := by
    unfold Page.leave
    split <;> exact mirrors.lineStart
  have unit : Shows (TemplateSet.html width).indentUnit
      (TemplateSet.beautify (.ofWidth width)).indentUnit := shows_spaces width
  unfold TemplateSet.indentation
  rw [start, mirrors.leave_scopes]
  split
  · exact unit.repeated _
  · exact .nil

/-- What stands before the text of a token in markup shows what the layout has there. -/
theorem gap (mirrors : Mirrors marked laid) (width : Nat) (token : Token) :
    Shows (markupGap width marked token) ((Layout.ofWidth width).gapBefore laid token) := by
  have lead : Shows (Layout.lead (laid.caseOf token)) (Layout.lead (laid.caseOf token)) :=
    .of_blank Layout.lead_blank
  have lineEnd : Shows
      ((TemplateSet.html width).lineEnd marked
        (TemplateSet.multilineTemplate (laid.caseOf token)))
      ((TemplateSet.beautify (.ofWidth width)).lineEnd laid
        (TemplateSet.multilineTemplate (laid.caseOf token))) := by
    have line : marked.endsWith (TemplateSet.html width).newline =
        laid.endsWith (TemplateSet.beautify (.ofWidth width)).newline := mirrors.line
    unfold TemplateSet.lineEnd
    rw [mirrors.isEmpty_eq, line]
    exact TemplateSet.shows_newline.optional _
  rw [markupGap, mirrors.caseOf_eq]
  exact lineEnd.append ((mirrors.indentation.optional _).append lead)

end Mirrors

namespace Page

/-- A page whose last character is no line end does not end with a line end. -/
theorem not_endsWith {c : Char} (last : page.text.getLast? = some c) (other : c ≠ '\n')
    (text : List Char) : page.endsWith (text ++ ['\n']) = false := by
  by_contra ends
  rw [Bool.not_eq_false, endsWith_eq, List.isSuffixOf_iff_suffix] at ends
  obtain ⟨front, same⟩ := ends
  rw [← same, ← List.append_assoc, List.getLast?_concat] at last
  exact other (Option.some.inj last).symm

/-- A page ends with what was written on it last. -/
theorem endsWith_of_eq {front text : List Char} (same : page.text = front ++ text) :
    page.endsWith text = true := by
  rw [endsWith_eq, List.isSuffixOf_iff_suffix]
  exact ⟨front, same.symm⟩

end Page

/-- What always stands after a token is nothing, a space or a line end. -/
theorem Layout.trail_cases (commaFirst : Bool) (case : RenderCase) :
    Layout.trail commaFirst case = [] ∨ Layout.trail commaFirst case = [' '] ∨
      Layout.trail commaFirst case = ['\n'] := by
  cases commaFirst <;> cases case <;> decide

/-- A line end of markup is a tag and a line end. -/
theorem markupNewline_eq : markupNewline = "<br />".toList ++ ['\n'] := by
  decide

/-- Neither page ends a line if neither ends with a line end. -/
theorem Page.endsWith_eq_of_last {c d : Char} (last : page.text.getLast? = some c)
    (other : c ≠ '\n') (laidLast : laid.text.getLast? = some d) (laidOther : d ≠ '\n') :
    page.endsWith markupNewline = laid.endsWith ['\n'] := by
  rw [markupNewline_eq, not_endsWith last other]
  exact (not_endsWith laidLast laidOther []).symm

/-- Markup that shows a visible text, written with the blanks after it, ends like this text. -/
theorem Text.Shows.endsAlike {core shown trail : List Char} (shows : Shows core shown)
    (ends : EndsVisibly shown) (sort : trail = [] ∨ trail = [' '] ∨ trail = ['\n']) :
    EndsAlike (core ++ markupTrail trail) (shown ++ trail) := by
  rcases sort with rfl | rfl | rfl
  · exact .visible shows (shows.endsVisibly ends) ends nofun
  · exact .visible shows (shows.endsVisibly ends) ends Layout.space_blank
  · have tag : Shows "<br />".toList [] := by
      have closed : '>' ∉ "br /".toList := by decide
      exact .tag closed .nil
    have whole := shows.append tag
    rw [List.append_nil] at whole
    have line : core ++ markupTrail ['\n'] = core ++ "<br />".toList ++ ['\n'] := by
      rw [List.append_assoc, ← markupNewline_eq]
      rfl
    rw [line]
    exact .visible whole (whole.endsVisibly ends) ends Layout.newline_blank

/-- Pages on which markup and the visible text that it shows are written agree on whether a line
ends there. -/
theorem line_of_visible {front shownFront core shown trail : List Char} (shows : Shows core shown)
    (ends : EndsVisibly shown) (sort : trail = [] ∨ trail = [' '] ∨ trail = ['\n'])
    (written : page.text = front ++ (core ++ markupTrail trail))
    (laidWritten : laid.text = shownFront ++ (shown ++ trail)) :
    page.endsWith markupNewline = laid.endsWith ['\n'] := by
  rcases sort with rfl | rfl | rfl
  · obtain ⟨c, last, other⟩ := ((shows.endsVisibly ends).append_left front).not_newline
    obtain ⟨d, laidLast, laidOther⟩ := (ends.append_left shownFront).not_newline
    rw [show core ++ markupTrail [] = core from List.append_nil core] at written
    rw [List.append_nil] at laidWritten
    exact Page.endsWith_eq_of_last (written ▸ last) other (laidWritten ▸ laidLast) laidOther
  · have space : (' ' : Char) ≠ '\n' := by decide
    rw [← List.append_assoc] at written laidWritten
    refine Page.endsWith_eq_of_last ?_ space ?_ space
    · rw [written]
      exact List.getLast?_concat
    · rw [laidWritten]
      exact List.getLast?_concat
  · rw [← List.append_assoc] at written laidWritten
    rw [Page.endsWith_of_eq laidWritten]
    exact Page.endsWith_of_eq written

/-- A token of an invisible case is spelled as nothing or as a space. -/
theorem spelled_of_isInvisible {innermost : Option ScopeKind}
    (hidden : (RenderCase.of token innermost).isInvisible = true) :
    token.spelled = [] ∨ token.spelled = [' '] := by
  rw [← TemplateSet.inlineTemplate_of token innermost]
  cases case : RenderCase.of token innermost with
  | arrayRowStart => exact .inl rfl
  | arrayRowStop => exact .inl rfl
  | operatorIntersect => exact .inr rfl
  | _ => simp [case, RenderCase.isInvisible] at hidden

private theorem RenderCase.isTight_of_isInvisible {case : RenderCase}
    (hidden : case.isInvisible = true) : case.beginsTight = true ∧ case.endsTight = true := by
  cases case with
  | arrayRowStart => exact ⟨rfl, rfl⟩
  | arrayRowStop => exact ⟨rfl, rfl⟩
  | operatorIntersect => exact ⟨rfl, rfl⟩
  | _ => cases hidden

/-- What the token writes is visible to the end, wherever it stands, or not at all. -/
def Token.EndsPlainly (token : Token) : Prop :=
  ∀ innermost, (RenderCase.of token innermost).isInvisible = true ∨ EndsVisibly token.spelled

namespace Mirrors

/-- Writing a token keeps the two pages alike. -/
theorem step (mirrors : Mirrors marked laid) (plain : token.EndsPlainly)
    (written : (TemplateSet.html width).renderToken marked token .plain next = .ok after)
    (laidWritten : (TemplateSet.beautify (.ofWidth width)).renderToken laid token .plain next =
      .ok laidAfter) : Mirrors after laidAfter := by
  obtain ⟨core, shows, same, text, lineStart⟩ := TemplateSet.html_renderToken written
  obtain ⟨laidText, laidStart⟩ := Layout.renderToken_text laidWritten
  rw [mirrors.caseOf_eq] at same text
  rw [Layout.gapAfter_ofWidth] at laidText
  have scopes : after.scopes = laidAfter.scopes := by
    rw [TemplateSet.renderToken_scopes written, TemplateSet.renderToken_scopes laidWritten,
      mirrors.scopes]
  have settled (alike : EndsAlike after.text laidAfter.text)
      (line : after.endsWith markupNewline = laidAfter.endsWith ['\n']) :
      Mirrors after laidAfter :=
    ⟨alike, scopes, by rw [lineStart, laidStart, line], line⟩
  rcases plain (laid.leave token).scopes.head? with hidden | ends
  · -- Both pages get the same blanks, and at most one of them.
    obtain ⟨begins, tight⟩ := RenderCase.isTight_of_isInvisible hidden
    have trail : Layout.trail false (laid.caseOf token) = [] :=
      (Layout.template_of_endsTight false _ tight).1
    have begun : (marked.caseOf token).beginsTight = true := mirrors.caseOf_eq ▸ begins
    rw [same hidden, trail, TemplateSet.markupGap_of_beginsTight begun] at text
    rw [trail, Layout.gapBefore_of_beginsTight begins] at laidText
    rcases spelled_of_isInvisible hidden with nothing | space
    · rw [nothing] at text laidText
      have unchanged : after.text = marked.text := text.trans (List.append_nil _)
      have laidUnchanged : laidAfter.text = laid.text := laidText.trans (List.append_nil _)
      refine settled ?_ ?_
      · rw [unchanged, laidUnchanged]
        exact mirrors.alike
      · rw [Page.endsWith_eq, Page.endsWith_eq, unchanged, laidUnchanged, ← Page.endsWith_eq,
          ← Page.endsWith_eq, mirrors.line]
    · rw [space] at text laidText
      have visible : (' ' : Char) ≠ '\n' := by decide
      refine settled ?_ (Page.endsWith_eq_of_last ?_ visible ?_ visible)
      · rw [text, laidText]
        exact mirrors.alike.append_blank Layout.space_blank
      · rw [text]
        exact List.getLast?_concat
      · rw [laidText]
        exact List.getLast?_concat
  · have whole := (mirrors.gap width token).append shows
    have wholeEnds := ends.append_left ((Layout.ofWidth width).gapBefore laid token)
    have sort := Layout.trail_cases false (laid.caseOf token)
    rw [← List.append_assoc (markupGap width marked token)] at text
    rw [← List.append_assoc ((Layout.ofWidth width).gapBefore laid token)] at laidText
    refine settled ?_ (line_of_visible whole wholeEnds sort text laidText)
    rw [text, laidText]
    exact mirrors.alike.append (whole.endsAlike wholeEnds sort)

/-- Writing tokens keeps the two pages alike, and both only grow. -/
theorem run (mirrors : Mirrors marked laid) (plain : ∀ token ∈ tokens, token.EndsPlainly)
    (written : (TemplateSet.html width).renderOnto marked (tokens.map (·, .plain)) = .ok after)
    (laidWritten : (TemplateSet.beautify (.ofWidth width)).renderOnto laid
      (tokens.map (·, .plain)) = .ok laidAfter) :
    Mirrors after laidAfter ∧ ∃ markup shown, after.text = marked.text ++ markup ∧
      laidAfter.text = laid.text ++ shown := by
  induction tokens generalizing marked laid with
  | nil =>
      obtain rfl := Except.ok.inj written
      obtain rfl := Except.ok.inj laidWritten
      exact ⟨mirrors, [], [], (List.append_nil _).symm, (List.append_nil _).symm⟩
  | cons token rest ih =>
      obtain ⟨own, others⟩ := List.forall_mem_cons.mp plain
      obtain ⟨one, first, further⟩ := bind_eq_ok.mp written
      obtain ⟨laidOne, laidFirst, laidFurther⟩ := bind_eq_ok.mp laidWritten
      obtain ⟨final, markup, shown, grown, laidGrown⟩ :=
        ih (mirrors.step own first laidFirst) others further laidFurther
      obtain ⟨_, _, _, text, _⟩ := TemplateSet.html_renderToken first
      rw [text, List.append_assoc] at grown
      rw [(Layout.renderToken_text laidFirst).1, List.append_assoc] at laidGrown
      exact ⟨final, _, _, grown, laidGrown⟩

end Mirrors

/-- The start of a call by the name of a row: nothing is written for it. -/
def rowCall : Token :=
  ScopeKind.function.startToken arrayRowName

/-- The levels of indentation with which the output begins, after so many calls by the name of a
row. -/
def overhangFrom : (depth : Nat) → List Token → Nat
  | _, [] => 0
  | depth, token :: rest =>
      if token = rowCall then overhangFrom (depth + 1) rest
      else if token.isStop then depth - 1
      else 0

/-- The levels of indentation with which the output begins: there are some where the tokens begin
with calls by the name of a row and the innermost of these is empty. -/
def overhang (tokens : List Token) : Nat :=
  overhangFrom 0 tokens

/-- The token can be the first for which something is written. -/
def Token.OpensPlainly (token : Token) : Prop :=
  token = ScopeKind.function.stopToken ∨ token.isStop = false ∧ BeginsVisibly token.spelled

/-- Nothing is written yet, and calls by the name of a row are open. -/
structure Page.IsBlank (page : Page) (depth : Nat) : Prop where
  empty : page.text = []
  depth : page.scopes.length = depth
  start : page.lineStart = true → page.scopes = []

private theorem beginsVisibly_repeated {unit : List Char}
    (once : ∀ text, BeginsVisibly text → BeginsVisibly (unit ++ text)) (count : Nat) :
    ∀ text, BeginsVisibly text → BeginsVisibly (Text.repeated count unit ++ text) := by
  intro text begins
  induction count with
  | zero => exact begins
  | succ count ih =>
      have more := once _ ih
      rwa [← List.append_assoc] at more

namespace Page.IsBlank

variable {depth : Nat}

private theorem lineEnd (isBlank : page.IsBlank depth) (style : TemplateSet) (template : Template) :
    style.lineEnd page template = [] := by
  have empty : page.written = [] := List.reverse_eq_nil_iff.mp isBlank.empty
  simp [TemplateSet.lineEnd, empty, Template.optional]

private theorem indentation (isBlank : page.IsBlank depth) (style : TemplateSet)
    (going : token.isStop = false) : style.indentation (page.leave token) token = [] := by
  have stays : page.leave token = page := by simp [Page.leave, going]
  rw [stays, TemplateSet.indentation, going, Bool.false_or]
  split
  · rename_i start
    rw [isBlank.start start]
    rfl
  · rfl

private theorem indentation_stop (isBlank : page.IsBlank depth) (style : TemplateSet)
    (stop : token.isStop = true) :
    style.indentation (page.leave token) token =
      Text.repeated (depth - 1) style.indentUnit := by
  rw [TemplateSet.indentation, stop, Bool.true_or, if_pos rfl, Page.leave, if_pos stop,
    List.length_tail, isBlank.depth]

/-- Nothing is written for a call by the name of a row. -/
theorem rowCall (isBlank : page.IsBlank depth)
    (written : (TemplateSet.beautify (.ofWidth width)).renderToken page rowCall .plain next =
      .ok after) : after.IsBlank (depth + 1) := by
  obtain ⟨text, lineStart⟩ := Layout.renderToken_text written
  have scopes := TemplateSet.renderToken_scopes written
  rw [Layout.gapBefore_of_beginsTight rfl, Layout.gapAfter_of_endsTight rfl, isBlank.empty] at text
  have empty : after.text = [] := text
  have written : after.written = [] := List.reverse_eq_nil_iff.mp empty
  refine ⟨empty, ?_, fun start => ?_⟩
  · rw [scopes, ← isBlank.depth]
    rfl
  · rw [lineStart, Page.endsWith, written] at start
    cases start

private theorem of_mirrors (isBlank : laid.IsBlank depth) (mirrors : Mirrors marked laid) :
    marked.IsBlank depth where
  empty := mirrors.alike.eq_nil_iff.mpr isBlank.empty
  depth := mirrors.scopes ▸ isBlank.depth
  start start := mirrors.scopes ▸ isBlank.start (mirrors.lineStart ▸ start)

/-- The first token for which something is written, on both pages. -/
theorem beginsAlike (isBlank : laid.IsBlank depth) (mirrors : Mirrors marked laid)
    (opens : token.OpensPlainly)
    (written : (TemplateSet.html width).renderToken marked token .plain next = .ok after)
    (laidWritten : (TemplateSet.beautify (.ofWidth width)).renderToken laid token .plain next =
      .ok laidAfter) :
    BeginsAlike (width * if token.isStop then depth - 1 else 0) after.text laidAfter.text := by
  obtain ⟨core, shows, _, text, _⟩ := TemplateSet.html_renderToken written
  obtain ⟨laidText, _⟩ := Layout.renderToken_text laidWritten
  have markedBlank := isBlank.of_mirrors mirrors
  rw [markedBlank.empty, markupGap, markedBlank.lineEnd, mirrors.caseOf_eq] at text
  rw [isBlank.empty, Layout.gapBefore, isBlank.lineEnd] at laidText
  rcases opens with rfl | ⟨going, begins⟩
  · rw [markedBlank.indentation_stop _ rfl] at text
    rw [isBlank.indentation_stop _ rfl] at laidText
    have hardSpaces : after.text = Text.repeated (depth - 1)
        (Text.repeated width "&nbsp;".toList) ++ [] ++ (core ++ []) := text
    have spaces : laidAfter.text = Text.repeated (depth - 1) (List.replicate width ' ') ++ [] ++
        ([')'] ++ []) := laidText
    have space : ∀ text, BeginsVisibly text → BeginsVisibly ("&nbsp;".toList ++ text) :=
      fun _ _ => ⟨'&', rfl, rfl⟩
    have closes : BeginsVisibly core := shows.beginsVisibly ⟨')', rfl, rfl⟩
    refine ⟨[], _, [')'], ?_, ?_, List.forall_mem_nil _,
      beginsVisibly_repeated (beginsVisibly_repeated space width) (depth - 1) core closes,
      ⟨')', rfl, rfl⟩⟩
    · rw [hardSpaces, List.append_nil, List.append_nil, List.nil_append]
    · have levels : (if ScopeKind.function.stopToken.isStop = true then depth - 1 else 0) =
          depth - 1 := rfl
      rw [spaces, List.append_nil, List.append_nil, List.nil_append, levels, Text.repeated,
        List.flatten_replicate_replicate, Nat.mul_comm]
  · rw [markedBlank.indentation _ going] at text
    rw [isBlank.indentation _ going] at laidText
    have bare (flag : Bool) : Template.optional flag [] = [] := by cases flag <;> rfl
    rw [bare, List.nil_append, List.nil_append, List.nil_append] at text laidText
    rw [going, if_neg (by simp), Nat.mul_zero]
    exact ⟨_, _, _, text, laidText, Layout.lead_blank,
      (shows.beginsVisibly begins).append_right _, begins.append_right _⟩

end Page.IsBlank

/-- Markup and the text that it shows begin alike, but for the overhang, unless nothing is written
at all. -/
theorem beginsAlike_of_renderOnto {depth : Nat} (isBlank : laid.IsBlank depth)
    (mirrors : Mirrors marked laid) (plain : ∀ token ∈ tokens, token.EndsPlainly)
    (opens : ∀ token ∈ tokens.find? (· != rowCall), token.OpensPlainly)
    (written : (TemplateSet.html width).renderOnto marked (tokens.map (·, .plain)) = .ok after)
    (laidWritten : (TemplateSet.beautify (.ofWidth width)).renderOnto laid
      (tokens.map (·, .plain)) = .ok laidAfter) :
    laidAfter.text = [] ∧ overhangFrom depth tokens = 0 ∨
      BeginsAlike (width * overhangFrom depth tokens) after.text laidAfter.text := by
  induction tokens generalizing marked laid depth with
  | nil =>
      obtain rfl := Except.ok.inj laidWritten
      exact .inl ⟨isBlank.empty, rfl⟩
  | cons token rest ih =>
      obtain ⟨own, others⟩ := List.forall_mem_cons.mp plain
      obtain ⟨one, first, further⟩ := bind_eq_ok.mp written
      obtain ⟨laidOne, laidFirst, laidFurther⟩ := bind_eq_ok.mp laidWritten
      have mirrorsOne := mirrors.step own first laidFirst
      by_cases row : token = rowCall
      · subst row
        rw [overhangFrom, if_pos rfl]
        exact ih (isBlank.rowCall laidFirst) mirrorsOne others opens further laidFurther
      · rw [List.find?_cons_of_pos (by simpa using row)] at opens
        rw [overhangFrom, if_neg row]
        right
        obtain ⟨_, markup, shown, grown, laidGrown⟩ :=
          mirrorsOne.run others further laidFurther
        rw [grown, laidGrown]
        exact (isBlank.beginsAlike mirrors (opens token rfl) first laidFirst).append_right _ _

end SheetFormula
