import SheetFormula.Proofs.Render.Markup
import Mathlib.Data.List.Forall2

/-!
# The tags of markup do not depend on the texts of tokens

Token text is escaped, so all angle brackets in the markup of a stream come from its templates.
`Text.tags?` reads the tags of a text and accepts no angle bracket outside of them.

Rendering looks back at what it has written: a stop begins a line of its own unless the page already
ends with a line end.  No token can feign a line end, since every template that writes a token ends
with a text of its own.  Two streams that differ only in texts therefore take the renderer through
pages that agree on everything it looks at and have the same tags (`SameTags.step`, `SameTags.run`).
-/

namespace SheetFormula

namespace Text

variable {first second text : List Char} {opened : Option (List Char)}

/-- The tags of a text that follows the characters of a tag already opened, if there is one.  Fails
if an angle bracket does not belong to a complete tag. -/
def tagsFrom : (opened : Option (List Char)) → List Char → Option (List (List Char))
  | none, [] => some []
  | some _, [] => none
  | none, c :: rest =>
      if c = '<' then tagsFrom (some [c]) rest
      else if c = '>' then none
      else tagsFrom none rest
  | some tag, c :: rest =>
      if c = '<' then none
      else if c = '>' then (tagsFrom none rest).map ((tag ++ [c]) :: ·)
      else tagsFrom (some (tag ++ [c])) rest

/-- The tags of a text in their order, if every angle bracket in it belongs to one. -/
def tags? (text : List Char) : Option (List (List Char)) :=
  tagsFrom none text

/-- The text has no angle brackets. -/
def Bracketless (text : List Char) : Prop :=
  ∀ c ∈ text, c ≠ '<' ∧ c ≠ '>'

private theorem bracketless_nil : Bracketless [] :=
  List.forall_mem_nil _

/-- Tags are read through the parts of markup, if the first part ends outside of tags. -/
private theorem tagsFrom_append {tags : List (List Char)}
    (read : tagsFrom opened first = some tags) :
    tagsFrom opened (first ++ second) = (tags? second).map (tags ++ ·) := by
  induction first generalizing opened tags with
  | nil =>
      cases opened with
      | none =>
          obtain rfl := Option.some.inj read
          exact Option.map_id'.symm
      | some tag => cases read
  | cons c rest ih =>
      rw [List.cons_append]
      cases opened with
      | none =>
          simp only [tagsFrom] at read ⊢
          split_ifs at read ⊢
          · exact ih read
          · exact ih read
      | some tag =>
          simp only [tagsFrom] at read ⊢
          split_ifs at read ⊢
          · obtain ⟨later, readLater, rfl⟩ := Option.map_eq_some_iff.mp read
            rw [ih readLater, Option.map_map]
            rfl
          · exact ih read

/-- A text without angle brackets leaves an open tag open. -/
theorem Bracketless.tagsFrom_eq (plain : Bracketless text) (opened : Option (List Char)) :
    tagsFrom opened text = tagsFrom opened [] := by
  induction text generalizing opened with
  | nil => rfl
  | cons c rest ih =>
      obtain ⟨⟨less, greater⟩, others⟩ := List.forall_mem_cons.mp plain
      cases opened with
      | none => exact (if_neg less).trans ((if_neg greater).trans (ih others none))
      | some tag => exact (if_neg less).trans ((if_neg greater).trans (ih others _))

private theorem Bracketless.tags?_eq (plain : Bracketless text) : tags? text = some [] :=
  plain.tagsFrom_eq none

private theorem Bracketless.tagsFrom_append (plain : Bracketless second) :
    tagsFrom opened (first ++ second) = tagsFrom opened first := by
  induction first generalizing opened with
  | nil => exact plain.tagsFrom_eq opened
  | cons c rest ih =>
      rw [List.cons_append]
      cases opened <;> simp only [tagsFrom, ih]

private theorem bracketless_of_blank (blank : ∀ c ∈ text, isBlank c = true) : Bracketless text := by
  intro c member
  refine ⟨?_, ?_⟩ <;>
    · rintro rfl
      cases blank _ member

private theorem bracketless_markup (text : List Char) : Bracketless (Text.markup text) := by
  intro c member
  obtain ⟨d, _, written⟩ := List.mem_flatMap.mp member
  unfold markupChar at written
  split_ifs at written with ampersand less greater quote apostrophe
  case neg =>
      obtain rfl := List.mem_singleton.mp written
      exact ⟨less, greater⟩
  all_goals
    constructor <;>
      · rintro rfl
        revert written
        decide

private theorem Bracketless.repeated (plain : Bracketless text) (count : Nat) :
    Bracketless (Text.repeated count text) := by
  intro c member
  obtain ⟨unit, copy, inside⟩ := List.mem_flatten.mp member
  obtain rfl := List.eq_of_mem_replicate copy
  exact plain c inside

/-- Trimming takes no tag away. -/
theorem tags?_trim (text : List Char) : tags? (trim text) = tags? text := by
  obtain ⟨before, behind, split, blankBefore, blankBehind⟩ := exists_trim text
  have leading : tags? (before ++ (trim text ++ behind)) = tags? (trim text ++ behind) := by
    rw [tags?, Text.tagsFrom_append (bracketless_of_blank blankBefore).tags?_eq]
    exact Option.map_id'
  have trailing : tags? (trim text ++ behind) = tags? (trim text) :=
    (bracketless_of_blank blankBehind).tagsFrom_append
  rw [← trailing, ← leading, ← split]

end Text

open Text (tags? Bracketless)
open TemplateSet (markupTemplate markupNewline)

/-- The texts that the templates of markup and its line ends are written with. -/
def markupTexts : List (List Char) :=
  markupNewline :: RenderCase.all.flatMap fun case =>
    [(markupTemplate case).before, (markupTemplate case).after]

/-- The tags of markup. -/
def markupTags : List (List Char) :=
  markupTexts.flatMap fun text => (tags? text).getD []

/-- The two texts have the same tags, all of them tags of markup. -/
def TaggedAlike (markup other : List Char) : Prop :=
  ∃ tags, tags? markup = some tags ∧ tags? other = some tags ∧ ∀ tag ∈ tags, tag ∈ markupTags

namespace TaggedAlike

variable {markup other more further : List Char}

private theorem append (alike : TaggedAlike markup other) (after : TaggedAlike more further) :
    TaggedAlike (markup ++ more) (other ++ further) := by
  obtain ⟨tags, read, otherRead, known⟩ := alike
  obtain ⟨later, readLater, otherLater, knownLater⟩ := after
  refine ⟨tags ++ later, ?_, ?_, List.forall_mem_append.mpr ⟨known, knownLater⟩⟩
  · rw [tags?, Text.tagsFrom_append read, readLater]
    rfl
  · rw [tags?, Text.tagsFrom_append otherRead, otherLater]
    rfl

private theorem of_bracketless (plain : Bracketless markup) (otherPlain : Bracketless other) :
    TaggedAlike markup other :=
  ⟨[], plain.tags?_eq, otherPlain.tags?_eq, nofun⟩

private theorem of_mem (member : markup ∈ markupTexts) : TaggedAlike markup markup := by
  have complete : markupTexts.all fun text => (tags? text).isSome := by decide
  obtain ⟨tags, read⟩ := Option.isSome_iff_exists.mp (List.all_eq_true.mp complete markup member)
  refine ⟨tags, read, read, fun tag inside => List.mem_flatMap.mpr ⟨markup, member, ?_⟩⟩
  rwa [read]

private theorem trim (alike : TaggedAlike markup other) :
    TaggedAlike (Text.trim markup) (Text.trim other) := by
  obtain ⟨tags, read, otherRead, known⟩ := alike
  exact ⟨tags, (Text.tags?_trim markup).trans read, (Text.tags?_trim other).trans otherRead, known⟩

private theorem optional (alike : TaggedAlike markup other) (flag : Bool) :
    TaggedAlike (Template.optional flag markup) (Template.optional flag other) := by
  cases flag with
  | false => exact .of_bracketless Text.bracketless_nil Text.bracketless_nil
  | true => exact alike

end TaggedAlike

namespace TemplateSet

variable {width : Nat} {page after : Page} {token : Token} {next : Option Token}

private theorem mem_markupTexts (case : RenderCase) :
    (markupTemplate case).before ∈ markupTexts ∧ (markupTemplate case).after ∈ markupTexts := by
  have member : case ∈ RenderCase.all := by cases case <;> decide
  constructor <;>
    exact List.mem_cons_of_mem _ (List.mem_flatMap.mpr ⟨case, member, by simp⟩)

/-- What the markup template of a case writes last: the text after the token, or all of a template
that writes no token. -/
def markupEnd (case : RenderCase) : List Char :=
  if (markupTemplate case).token then (markupTemplate case).after else (markupTemplate case).before

private theorem markupEnd_cases (case : RenderCase) :
    markupTemplate case = Template.literal [] ∨ (∃ front, markupEnd case = front ++ markupNewline) ∨
      ∃ c ∈ (markupEnd case).getLast?, c ≠ '\n' := by
  cases case with
  | arrayRowStart | arrayRowStop => exact .inl rfl
  | functionStart =>
      exact .inr (.inl ⟨spanEnd ++ spanTag "function-start" ++ "(".toList ++ spanEnd, rfl⟩)
  | subexpressionStart =>
      exact .inr (.inl ⟨spanTag "subexpression-start" ++ "(".toList ++ spanEnd, rfl⟩)
  | argument => exact .inr (.inl ⟨spanEnd, rfl⟩)
  | operatorInfix | operatorUnion | operatorIntersect => exact .inr (.inr ⟨' ', rfl, by decide⟩)
  | _ => exact .inr (.inr ⟨'>', rfl, by decide⟩)

/-- What a token adds to a page of markup before its own text. -/
def markupStart (width : Nat) (page : Page) (token : Token) : List Char :=
  (html width).lineEnd page (markupTemplate (page.caseOf token)) ++
    (Template.optional (markupTemplate (page.caseOf token)).indent
      ((html width).indentation (page.leave token) token) ++
        (markupTemplate (page.caseOf token)).before)

/-- What a token adds to a page of markup as its own text. -/
def markupToken (page : Page) (token : Token) : List Char :=
  Template.optional (markupTemplate (page.caseOf token)).token
    (Text.markup (minify.tokenText (page.caseOf token) token))

private theorem html_renderToken_parts
    (written : (html width).renderToken page token .plain next = .ok after) :
    after.text = page.text ++ (markupStart width page token ++
        (markupToken page token ++ (markupTemplate (page.caseOf token)).after)) ∧
      after.lineStart = (token.isStop || after.endsWith markupNewline) := by
  have found : (html width).templates (page.caseOf token) =
      some (markupTemplate (page.caseOf token)) := rfl
  obtain ⟨text, lineStart⟩ := renderToken_text found written
  obtain ⟨_, _, lineBreak⟩ := markupTemplate_flags (page.caseOf token)
  have escaped : (html width).tokenText (page.caseOf token) token =
      Text.markup (minify.tokenText (page.caseOf token) token) := rfl
  refine ⟨?_, lineStart⟩
  rw [text, Template.apply, lineBreak, escaped, markupStart, markupToken]
  simp only [Template.optional, Bool.false_eq_true, ↓reduceIte, List.append_nil, List.append_assoc]

private theorem bracketless_markupToken (page : Page) (token : Token) :
    Bracketless (markupToken page token) := by
  unfold markupToken Template.optional
  split
  · exact Text.bracketless_markup _
  · exact Text.bracketless_nil

private theorem taggedAlike_markupStart (width : Nat) (page : Page) (token : Token) :
    TaggedAlike (markupStart width page token) (markupStart width page token) := by
  have space : Bracketless "&nbsp;".toList := by simp [Bracketless]
  have indentation : Bracketless ((html width).indentation (page.leave token) token) := by
    unfold indentation
    split
    · exact (space.repeated width).repeated _
    · exact Text.bracketless_nil
  have line : TaggedAlike markupNewline markupNewline := .of_mem List.mem_cons_self
  exact (line.optional _).append (((TaggedAlike.of_bracketless indentation indentation).optional
    _).append (.of_mem (mem_markupTexts _).1))

/-- The page ends with what the template writes last, and it stays as it is if that is nothing. -/
theorem html_renderToken_end
    (written : (html width).renderToken page token .plain next = .ok after) :
    (∃ front, after.text = front ++ markupEnd (page.caseOf token)) ∧
      (markupTemplate (page.caseOf token) = Template.literal [] → after.text = page.text) := by
  obtain ⟨text, _⟩ := html_renderToken_parts written
  refine ⟨?_, fun empty => ?_⟩
  · cases writes : (markupTemplate (page.caseOf token)).token with
    | true =>
        refine ⟨page.text ++ (markupStart width page token ++ markupToken page token), ?_⟩
        rw [text, markupEnd, if_pos writes]
        simp only [List.append_assoc]
    | false =>
        have nothing : (markupTemplate (page.caseOf token)).after = [] := by
          revert writes
          cases page.caseOf token <;> decide
        have silent : markupToken page token = [] := by
          rw [markupToken, writes]
          rfl
        refine ⟨page.text ++ ((html width).lineEnd page (markupTemplate (page.caseOf token)) ++
          Template.optional (markupTemplate (page.caseOf token)).indent
            ((html width).indentation (page.leave token) token)), ?_⟩
        rw [text, silent, nothing, markupEnd, writes, markupStart]
        simp only [List.append_assoc, List.append_nil, Bool.false_eq_true, ↓reduceIte]
  · rw [text, markupStart, markupToken, empty]
    exact List.append_nil _

end TemplateSet

open TemplateSet (markupEnd)

/-- Pages that end with the same text of a template are alike in whether a line ends there. -/
theorem line_of_markupEnd {first second : Page} {case : RenderCase} {front otherFront : List Char}
    (written : first.text = front ++ markupEnd case)
    (otherWritten : second.text = otherFront ++ markupEnd case)
    (present : markupTemplate case ≠ Template.literal []) :
    (first.text = [] ↔ second.text = []) ∧
      first.endsWith markupNewline = second.endsWith markupNewline := by
  rcases (TemplateSet.markupEnd_cases case).resolve_left present with
    ⟨start, line⟩ | ⟨c, last, other⟩
  · rw [line, ← List.append_assoc] at written otherWritten
    have lineBreak : markupNewline ≠ [] := List.cons_ne_nil _ _
    rw [Page.endsWith_of_eq written, Page.endsWith_of_eq otherWritten, written, otherWritten]
    exact ⟨iff_of_false (List.append_ne_nil_of_right_ne_nil _ lineBreak)
      (List.append_ne_nil_of_right_ne_nil _ lineBreak), rfl⟩
  · have lastOf {page : Page} {front : List Char} (text : page.text = front ++ markupEnd case) :
        page.text.getLast? = some c := by
      rw [text, List.getLast?_append, show (markupEnd case).getLast? = some c from last]
      rfl
    have presentOf {page : Page} (ends : page.text.getLast? = some c) : page.text ≠ [] := by
      intro empty
      rw [empty] at ends
      cases ends
    refine ⟨iff_of_false (presentOf (lastOf written)) (presentOf (lastOf otherWritten)), ?_⟩
    rw [markupNewline_eq, Page.not_endsWith (lastOf written) other,
      Page.not_endsWith (lastOf otherWritten) other]

/-- The names of the tokens that open and close arrays and their rows. -/
def reservedNames : List (List Char) :=
  [arrayName, arrayRowName, arrayStopName, arrayRowStopName]

/-- The tokens differ at most in their texts, and a reserved name is the text of both or of
neither. -/
structure Token.Resembles (token other : Token) : Prop where
  kind : token.kind = other.kind
  role : token.role = other.role
  reserved : ∀ name ∈ reservedNames, token.value = name ↔ other.value = name

namespace Token.Resembles

variable {token other : Token}

private theorem isStop_eq (resembles : token.Resembles other) : token.isStop = other.isStop := by
  rw [Token.isStop, resembles.role, Token.isStop]

private theorem isStart_eq (resembles : token.Resembles other) : token.isStart = other.isStart := by
  rw [Token.isStart, resembles.role, Token.isStart]

private theorem case_eq (resembles : token.Resembles other) (innermost : Option ScopeKind) :
    RenderCase.of token innermost = RenderCase.of other innermost := by
  have start : RenderCase.ofFunctionStart token.value = RenderCase.ofFunctionStart other.value := by
    simp only [RenderCase.ofFunctionStart, resembles.reserved arrayName (by simp [reservedNames]),
      resembles.reserved arrayRowName (by simp [reservedNames])]
  have stop : RenderCase.ofFunctionStop token.value = RenderCase.ofFunctionStop other.value := by
    simp only [RenderCase.ofFunctionStop,
      resembles.reserved arrayStopName (by simp [reservedNames]),
      resembles.reserved arrayRowStopName (by simp [reservedNames])]
  rw [RenderCase.of, resembles.kind, resembles.role, start, stop, RenderCase.of]

private theorem ofStart_eq (resembles : token.Resembles other) :
    ScopeKind.ofStart token = ScopeKind.ofStart other := by
  simp only [ScopeKind.ofStart, resembles.kind,
    resembles.reserved arrayName (by simp [reservedNames]),
    resembles.reserved arrayRowName (by simp [reservedNames])]

private theorem rebuild_eq (resembles : token.Resembles other) (scopes : List ScopeKind) :
    rebuild scopes [token] = rebuild scopes [other] := by
  simp only [rebuild, resembles.isStart_eq, resembles.isStop_eq, resembles.ofStart_eq]

end Token.Resembles

/-- The two pages have the same tags and agree on all that the next token looks at. -/
structure SameTags (first second : Page) : Prop where
  tags : TaggedAlike first.text second.text
  scopes : first.scopes = second.scopes
  lineStart : first.lineStart = second.lineStart
  empty : first.text = [] ↔ second.text = []
  line : first.endsWith markupNewline = second.endsWith markupNewline

namespace SameTags

variable {width : Nat} {first second after otherAfter : Page} {token other : Token}
  {next otherNext : Option Token} {tokens others : List Token}

private theorem start : SameTags {} {} :=
  ⟨.of_bracketless Text.bracketless_nil Text.bracketless_nil, rfl, rfl, .rfl, rfl⟩

private theorem leave_scopes (same : SameTags first second) (resembles : token.Resembles other) :
    (first.leave token).scopes = (second.leave other).scopes := by
  unfold Page.leave
  rw [resembles.isStop_eq]
  split <;> simp only [same.scopes]

private theorem caseOf_eq (same : SameTags first second) (resembles : token.Resembles other) :
    first.caseOf token = second.caseOf other := by
  rw [Page.caseOf, same.leave_scopes resembles, resembles.case_eq, Page.caseOf]

private theorem lineEnd_eq (same : SameTags first second) (template : Template) :
    (TemplateSet.html width).lineEnd first template =
      (TemplateSet.html width).lineEnd second template := by
  have empty : first.written.isEmpty = second.written.isEmpty := by
    have texts := same.empty
    simp only [Page.text, List.reverse_eq_nil_iff] at texts
    rw [Bool.eq_iff_iff, List.isEmpty_iff, List.isEmpty_iff, texts]
  have line : first.endsWith (TemplateSet.html width).newline =
      second.endsWith (TemplateSet.html width).newline := same.line
  rw [TemplateSet.lineEnd, empty, line, TemplateSet.lineEnd]

private theorem indentation_eq (same : SameTags first second) (resembles : token.Resembles other) :
    (TemplateSet.html width).indentation (first.leave token) token =
      (TemplateSet.html width).indentation (second.leave other) other := by
  have start : (first.leave token).lineStart = (second.leave other).lineStart := by
    unfold Page.leave
    rw [resembles.isStop_eq]
    split <;> exact same.lineStart
  rw [TemplateSet.indentation, resembles.isStop_eq, start, same.leave_scopes resembles,
    TemplateSet.indentation]

private theorem markupStart_eq (same : SameTags first second) (resembles : token.Resembles other) :
    TemplateSet.markupStart width first token = TemplateSet.markupStart width second other := by
  rw [TemplateSet.markupStart, same.caseOf_eq resembles, same.lineEnd_eq,
    same.indentation_eq resembles, TemplateSet.markupStart]

/-- Tokens that differ only in their texts keep the tags of two pages the same. -/
theorem step (same : SameTags first second) (resembles : token.Resembles other)
    (written : (TemplateSet.html width).renderToken first token .plain next = .ok after)
    (otherWritten : (TemplateSet.html width).renderToken second other .plain otherNext =
      .ok otherAfter) : SameTags after otherAfter := by
  obtain ⟨text, lineStart⟩ := TemplateSet.html_renderToken_parts written
  obtain ⟨otherText, otherStart⟩ := TemplateSet.html_renderToken_parts otherWritten
  obtain ⟨⟨front, ends⟩, stays⟩ := TemplateSet.html_renderToken_end written
  obtain ⟨⟨otherFront, otherEnds⟩, otherStays⟩ := TemplateSet.html_renderToken_end otherWritten
  rw [same.markupStart_eq resembles, same.caseOf_eq resembles] at text
  rw [same.caseOf_eq resembles] at ends stays
  have tags : TaggedAlike after.text otherAfter.text := by
    rw [text, otherText]
    exact same.tags.append ((TemplateSet.taggedAlike_markupStart width second other).append
      ((TaggedAlike.of_bracketless (TemplateSet.bracketless_markupToken first token)
        (TemplateSet.bracketless_markupToken second other)).append
          (.of_mem (TemplateSet.mem_markupTexts _).2)))
  have scopes : after.scopes = otherAfter.scopes := by
    rw [TemplateSet.renderToken_scopes written, TemplateSet.renderToken_scopes otherWritten,
      same.scopes, resembles.rebuild_eq]
  have sight : (after.text = [] ↔ otherAfter.text = []) ∧
      after.endsWith markupNewline = otherAfter.endsWith markupNewline := by
    by_cases nothing : markupTemplate (second.caseOf other) = Template.literal []
    · rw [Page.endsWith_eq, Page.endsWith_eq, stays nothing, otherStays nothing,
        ← Page.endsWith_eq, ← Page.endsWith_eq]
      exact ⟨same.empty, same.line⟩
    · exact line_of_markupEnd ends otherEnds nothing
  exact ⟨tags, scopes, by rw [lineStart, otherStart, resembles.isStop_eq, sight.2],
    sight.1, sight.2⟩

/-- Streams that differ only in the texts of their tokens keep the tags of two pages the same. -/
theorem run (same : SameTags first second) (resemble : List.Forall₂ Token.Resembles tokens others)
    (written : (TemplateSet.html width).renderOnto first (tokens.map (·, .plain)) = .ok after)
    (otherWritten : (TemplateSet.html width).renderOnto second (others.map (·, .plain)) =
      .ok otherAfter) : SameTags after otherAfter := by
  induction resemble generalizing first second with
  | nil =>
      obtain rfl := Except.ok.inj written
      obtain rfl := Except.ok.inj otherWritten
      exact same
  | cons resembles _ ih =>
      obtain ⟨one, begun, further⟩ := bind_eq_ok.mp written
      obtain ⟨otherOne, otherBegun, otherFurther⟩ := bind_eq_ok.mp otherWritten
      exact ih (same.step resembles begun otherBegun) further otherFurther

end SameTags

/-- The markup of two streams that differ only in the texts of their tokens, apart from the reserved
names, has the same tags in the same order.  All of them are tags of the templates, and no angle
bracket stands outside of them. -/
theorem tags_renderPlain_html (width : Nat) {tokens others : List Token}
    (resemble : List.Forall₂ Token.Resembles tokens others) :
    ∃ markup other tags, (TemplateSet.html width).renderPlain tokens = .ok markup ∧
      (TemplateSet.html width).renderPlain others = .ok other ∧
      tags? markup = some tags ∧ tags? other = some tags ∧ ∀ tag ∈ tags, tag ∈ markupTags := by
  obtain ⟨page, written⟩ := @TemplateSet.renderOnto_total (.html width) {} (fun _ => nofun)
    (tokens.map (·, .plain))
  obtain ⟨otherPage, otherWritten⟩ := @TemplateSet.renderOnto_total (.html width) {}
    (fun _ => nofun) (others.map (·, .plain))
  have equals : Bracketless "=".toList := by simp [Bracketless]
  have pages := SameTags.start.run resemble written otherWritten
  obtain ⟨tags, read, otherRead, known⟩ :=
    (TaggedAlike.of_bracketless equals equals).append pages.tags.trim
  exact ⟨_, _, tags, bind_eq_ok.mpr ⟨page, written, pure_eq_ok.mpr (List.append_nil _)⟩,
    bind_eq_ok.mpr ⟨otherPage, otherWritten, pure_eq_ok.mpr (List.append_nil _)⟩, read, otherRead,
    known⟩

/-- Texts that spell tags and line ends, and a stop that closes nothing: the second stop begins a
line of its own in both. -/
theorem tags_renderPlain_html_feigned :
    List.Forall₂ Token.Resembles
      [ScopeKind.function.stopToken, ScopeKind.function.startToken "F".toList,
        ⟨"<br />\n".toList, .operand, some .text⟩, ScopeKind.function.stopToken]
      [ScopeKind.function.stopToken, ScopeKind.function.startToken "</span>".toList,
        ⟨[], .operand, some .text⟩, ⟨"\"&'".toList, .function, some .stop⟩] ∧
    ∃ markup other tags,
      (TemplateSet.html 2).renderPlain
        [ScopeKind.function.stopToken, ScopeKind.function.startToken "F".toList,
          ⟨"<br />\n".toList, .operand, some .text⟩, ScopeKind.function.stopToken] = .ok markup ∧
      (TemplateSet.html 2).renderPlain
        [ScopeKind.function.stopToken, ScopeKind.function.startToken "</span>".toList,
          ⟨[], .operand, some .text⟩, ⟨"\"&'".toList, .function, some .stop⟩] = .ok other ∧
      tags? markup = some tags ∧ tags? other = some tags ∧ ∀ tag ∈ tags, tag ∈ markupTags := by
  have resemble : List.Forall₂ Token.Resembles
      [ScopeKind.function.stopToken, ScopeKind.function.startToken "F".toList,
        ⟨"<br />\n".toList, .operand, some .text⟩, ScopeKind.function.stopToken]
      [ScopeKind.function.stopToken, ScopeKind.function.startToken "</span>".toList,
        ⟨[], .operand, some .text⟩, ⟨"\"&'".toList, .function, some .stop⟩] :=
    .cons ⟨rfl, rfl, by decide⟩ (.cons ⟨rfl, rfl, by decide⟩
      (.cons ⟨rfl, rfl, by decide⟩ (.cons ⟨rfl, rfl, by decide⟩ .nil)))
  exact ⟨resemble, tags_renderPlain_html 2 resemble⟩

end SheetFormula
