import SheetFormula.Proofs.Render.Beautify
import SheetFormula.Proofs.Render.PlainText
import SheetFormula.Proofs.Scanner.Literal

/-!
# The lines of a layout

Line ends come from the starts of scopes, from separators, from stops that ask for a fresh line and,
where separators begin lines, from whatever stands before a separator.  However these meet, no line
of the output is blank (`beautify_lines_visible`).

`Text.lastLine?` reads a text line by line and refuses one that holds a blank line.  Between two
tokens the last line of the page is either empty or shows something (`LinesShow`).  It shows
something after a value that no separator follows, which is where an intersection can stand
(`Lined`); so the space that is written for an intersection is not alone on its line.
-/

namespace SheetFormula

namespace Text

variable {shown last : Bool} {text : List Char}

/-- Read on in a line of which it is known whether it shows anything.  A line ends only if it
does. -/
def readOn (shown : Bool) (c : Char) : Option Bool :=
  if c = '\n' then if shown then some false else none else some (shown || !isBlank c)

/-- Whether the last line of a text shows anything, if all the lines before it do.  The text begins
in a line of which it is known whether it shows anything. -/
def lastLine? (shown : Bool) (text : List Char) : Option Bool :=
  text.foldlM readOn shown

private theorem lastLine?_append {first second : List Char} :
    lastLine? shown (first ++ second) = some last ↔
      ∃ middle, lastLine? shown first = some middle ∧ lastLine? middle second = some last := by
  rw [lastLine?, List.foldlM_append]
  exact Option.bind_eq_some_iff

private theorem lastLine?_cons {c : Char} :
    lastLine? shown (c :: text) = some last ↔
      ∃ middle, readOn shown c = some middle ∧ lastLine? middle text = some last :=
  Option.bind_eq_some_iff

private theorem readOn_of_ne {c : Char} (other : c ≠ '\n') :
    readOn shown c = some (shown || !isBlank c) :=
  if_neg other

private theorem readOn_newline : readOn shown '\n' = some last ↔ shown = true ∧ last = false := by
  cases shown <;> simp [readOn, eq_comm]

/-- A line that shows nothing does not end. -/
theorem readOn_false {c : Char} (read : readOn false c = some last) :
    c ≠ '\n' ∧ last = !isBlank c := by
  have other : c ≠ '\n' := by
    rintro rfl
    cases (readOn_newline.mp read).1
  rw [readOn_of_ne other] at read
  exact ⟨other, (Option.some.inj read).symm⟩

/-- What happens to a line by characters that do not end it. -/
theorem lastLine?_of_level (level : '\n' ∉ text) :
    lastLine? shown text = some (shown || !isBlankText text) := by
  induction text generalizing shown with
  | nil => simp [lastLine?, isBlankText]
  | cons c rest ih =>
      obtain ⟨other, restLevel⟩ := List.ne_and_not_mem_of_not_mem_cons level
      refine lastLine?_cons.mpr ⟨_, readOn_of_ne other.symm, ?_⟩
      rw [ih restLevel, Bool.or_assoc]
      simp [isBlankText, Bool.not_and]

/-- A text stays free of blank lines if something is shown before it. -/
theorem lastLine?_true (read : lastLine? false text = some last) :
    ∃ later, lastLine? true text = some later := by
  induction text with
  | nil => exact ⟨true, rfl⟩
  | cons c rest ih =>
      obtain ⟨middle, first, others⟩ := lastLine?_cons.mp read
      obtain ⟨other, rfl⟩ := readOn_false first
      cases blank : isBlank c with
      | true =>
          rw [blank] at others
          obtain ⟨later, same⟩ := ih others
          exact ⟨later, lastLine?_cons.mpr ⟨true, readOn_of_ne other, same⟩⟩
      | false =>
          rw [blank] at others
          exact ⟨last, lastLine?_cons.mpr ⟨true, readOn_of_ne other, others⟩⟩

/-- Blanks at the start of a text do not end its first line. -/
theorem lastLine?_blanks {blanks : List Char} (blank : ∀ c ∈ blanks, isBlank c = true)
    (read : lastLine? false blanks = some last) : last = false := by
  induction blanks with
  | nil => exact (Option.some.inj read).symm
  | cons c rest ih =>
      obtain ⟨own, restBlank⟩ := List.forall_mem_cons.mp blank
      obtain ⟨middle, first, others⟩ := lastLine?_cons.mp read
      obtain ⟨_, rfl⟩ := readOn_false first
      rw [own] at others
      exact ih restBlank others

/-- Every line of a text shows something if it is read without a blank line up to a last line that
shows something. -/
theorem hasVisible_of_lastLine? (read : lastLine? shown text = some true) :
    ∃ first others, text.splitOn '\n' = first :: others ∧ (shown = true ∨ HasVisible first) ∧
      ∀ line ∈ others, HasVisible line := by
  induction text generalizing shown with
  | nil => exact ⟨[], [], List.splitOn_nil _, .inl (Option.some.inj read), nofun⟩
  | cons c rest ih =>
      obtain ⟨middle, own, behind⟩ := lastLine?_cons.mp read
      obtain ⟨first, others, split, begins, visible⟩ := ih behind
      rw [List.splitOn_cons_eq_if_modifyHead, split]
      by_cases newline : c = '\n'
      · subst newline
        obtain ⟨rfl, rfl⟩ := readOn_newline.mp own
        refine ⟨[], first :: others, rfl, .inl rfl, ?_⟩
        exact List.forall_mem_cons.mpr ⟨begins.resolve_left Bool.false_ne_true, visible⟩
      · rw [if_neg (by simpa using newline)]
        refine ⟨c :: first, others, rfl, ?_, visible⟩
        rw [readOn_of_ne newline] at own
        obtain rfl := Option.some.inj own
        rcases begins with shows | ⟨d, member, shows⟩
        · rw [Bool.or_eq_true, Bool.not_eq_true'] at shows
          exact shows.imp_right fun visible => ⟨c, List.mem_cons_self, visible⟩
        · exact .inr ⟨d, List.mem_cons_of_mem c member, shows⟩

private theorem trim_endsVisibly (present : trim text ≠ []) : EndsVisibly (trim text) := by
  rw [trim, trimEnd] at present ⊢
  have first := List.head?_dropWhile_not isBlank (trimStart text).reverse
  cases rest : (trimStart text).reverse.dropWhile isBlank with
  | nil => exact (present (by rw [rest]; rfl)).elim
  | cons c rest' =>
      rw [rest] at first
      rw [List.reverse_cons]
      exact endsVisibly_concat first _

/-- A text without blank lines keeps none when it is trimmed and put behind an equals sign. -/
theorem hasVisible_lines_trim (read : lastLine? false text = some last) :
    ∀ line ∈ ('=' :: trim text).splitOn '\n', HasVisible line := by
  have whole : lastLine? false ('=' :: trim text) = some true := by
    refine lastLine?_cons.mpr ⟨true, rfl, ?_⟩
    obtain ⟨before, behind, split, blank, _⟩ := exists_trim text
    rw [split] at read
    obtain ⟨started, leading, read⟩ := lastLine?_append.mp read
    obtain rfl := lastLine?_blanks blank leading
    obtain ⟨_, trimmed, _⟩ := lastLine?_append.mp read
    obtain ⟨later, shows⟩ := lastLine?_true trimmed
    by_cases empty : trim text = []
    · rw [empty]
      rfl
    · obtain ⟨c, final, visible⟩ := trim_endsVisibly empty
      obtain ⟨front, same⟩ := List.getLast?_eq_some_iff.mp final
      rw [same] at shows ⊢
      obtain ⟨middle, begun, ended⟩ := lastLine?_append.mp shows
      have level : '\n' ∉ [c] := by
        rw [List.mem_singleton]
        rintro rfl
        cases visible
      refine lastLine?_append.mpr ⟨middle, begun, ?_⟩
      rw [lastLine?_of_level level]
      simp [isBlankText, visible]
  obtain ⟨first, others, split, begins, visible⟩ := hasVisible_of_lastLine? whole
  rw [split]
  exact List.forall_mem_cons.mpr ⟨begins.resolve_left Bool.false_ne_true, visible⟩

end Text

namespace Literal

/-- The characters met of an error code begin with its number sign. -/
def IsMarked : Literal → Prop
  | errorCode held => held.getLast? = some '#'
  | _ => True

private theorem IsMarked.next {literal : Literal} (marked : literal.IsMarked) (c : Char) :
    (literal.next c).IsMarked := by
  cases literal with
  | outside =>
      simp only [Literal.next]
      split_ifs <;> trivial
  | text | path | bracket =>
      simp only [Literal.next]
      split_ifs <;> trivial
  | errorCode held =>
      simp only [Literal.next]
      split_ifs
      · trivial
      · change (c :: held).getLast? = some '#'
        rw [List.getLast?_cons, show held.getLast? = some '#' from marked]
        rfl

private theorem IsMarked.after {literal : Literal} (marked : literal.IsMarked) (text : List Char) :
    (literal.after text).IsMarked := by
  induction text generalizing literal with
  | nil => exact marked
  | cons c rest ih => exact ih (marked.next c)

end Literal

/-- Every line of the text but the last one shows something.  If the last one does not, it is
empty. -/
structure LinesShow (text : List Char) (shown : Bool) : Prop where
  read : Text.lastLine? false text = some shown
  fresh : shown = false → text = [] ∨ ∃ front, text = front ++ ['\n']

variable {convention : Convention} {layout : Layout} {page one after : Page} {token : Token}
  {previous next : Option Token} {tokens rest : List Token} {scopes last : List ScopeKind}
  {text more : List Char} {shown : Bool}

namespace LinesShow

private theorem append_level (lines : LinesShow text shown) (level : '\n' ∉ more)
    (visible : shown = true ∨ Text.HasVisible more) : LinesShow (text ++ more) true := by
  refine ⟨Text.lastLine?_append.mpr ⟨shown, lines.read, ?_⟩, nofun⟩
  rw [Text.lastLine?_of_level level]
  rcases visible with rfl | visible
  · rfl
  · rw [Text.isBlankText_eq_false.mpr visible, Bool.not_false, Bool.or_true]

private theorem append_newline (lines : LinesShow text true) : LinesShow (text ++ ['\n']) false :=
  ⟨Text.lastLine?_append.mpr ⟨true, lines.read, rfl⟩, fun _ => .inr ⟨text, rfl⟩⟩

/-- A fresh line is begun only behind a line that shows something. -/
theorem append_lineEnd (lines : LinesShow page.text shown) (template : Template) :
    ∃ later,
      LinesShow (page.text ++ (TemplateSet.beautify layout).lineEnd page template) later := by
  unfold TemplateSet.lineEnd
  cases needed : template.freshLine &&
      !(page.written.isEmpty || page.endsWith (TemplateSet.beautify layout).newline) with
  | false => exact ⟨shown, by rwa [Template.optional, if_neg Bool.false_ne_true, List.append_nil]⟩
  | true =>
      simp only [Bool.and_eq_true, Bool.not_eq_true', Bool.or_eq_false_iff] at needed
      obtain ⟨_, present, midline⟩ := needed
      -- The page is neither empty nor at the start of a line, so its last line is not empty.
      have shows : shown = true := by
        by_contra hidden
        rcases lines.fresh (by simpa using hidden) with empty | ⟨front, ended⟩
        · rw [Page.text, List.reverse_eq_nil_iff] at empty
          rw [empty] at present
          cases present
        · rw [show (TemplateSet.beautify layout).newline = ['\n'] from rfl,
            Page.endsWith_of_eq ended] at midline
          cases midline
      subst shows
      exact ⟨false, lines.append_newline⟩

end LinesShow

namespace Layout

private theorem trail_of_lineBreak (commaFirst : Bool) (case : RenderCase) :
    (template commaFirst case).lineBreak = true → trail commaFirst case = [] := by
  cases commaFirst <;> cases case <;> decide

private theorem gapAfter_cases :
    layout.gapAfter page token next = [] ∨ layout.gapAfter page token next = [' '] ∨
      layout.gapAfter page token next = ['\n'] := by
  unfold gapAfter
  cases breaks : (template layout.commaFirst (page.caseOf token)).lineBreak with
  | false =>
      rw [Template.optional, if_neg Bool.false_ne_true, List.append_nil]
      exact trail_cases _ _
  | true =>
      rw [trail_of_lineBreak _ _ breaks, List.nil_append, Template.optional, if_pos rfl,
        TemplateSet.lineBreak]
      split
      · exact .inr (.inr rfl)
      · exact .inl rfl

/-- Apart from the line end that a stop may need, the blanks before a token stay in a line. -/
theorem gapBefore_level :
    ∃ gap, layout.gapBefore page token = (TemplateSet.beautify layout).lineEnd page
        (template layout.commaFirst (page.caseOf token)) ++ gap ∧ '\n' ∉ gap := by
  refine ⟨_, rfl, fun member => ?_⟩
  rcases List.mem_append.mp member with indent | lead
  · unfold Template.optional at indent
    split at indent
    · rcases mem_indentation indent with same | same <;> cases same
    · cases indent
  · unfold Layout.lead at lead
    split at lead
    · cases List.mem_singleton.mp lead
    · cases lead

end Layout

private theorem Text.not_mem_doubleQuotes (level : '\n' ∉ text) :
    '\n' ∉ Text.doubleQuotes text := by
  intro member
  obtain ⟨c, inside, written⟩ := List.mem_flatMap.mp member
  split at written
  · simp at written
  · exact level (List.mem_singleton.mp written ▸ inside)

/-- A token is written without line ends if there is none in its text. -/
theorem Token.spelled_level (level : '\n' ∉ token.value) : '\n' ∉ token.spelled := by
  have quoted := Text.not_mem_doubleQuotes level
  unfold Token.spelled
  cases RenderCase.of token none <;>
    simp [TemplateSet.inlineTemplate, TemplateSet.tokenText, TemplateSet.minify, Text.Escape.apply,
      Template.apply, Template.optional, Template.wrap, Template.literal, Template.bare, level,
      quoted]

/-- Every line of the page shows something, but for an empty last one. -/
def Filled (page : Page) : Prop :=
  ∃ shown, LinesShow page.text shown

/-- The filled page between two tokens.  After a value that no separator follows, its last line
shows something. -/
def Lined (page : Page) (previous next : Option Token) : Prop :=
  ∃ shown, LinesShow page.text shown ∧
    ∀ left ∈ previous, left.endsValue = true → next.any Token.isArgument = false → shown = true

private theorem Lined.filled (lined : Lined page previous next) : Filled page := by
  obtain ⟨shown, lines, _⟩ := lined
  exact ⟨shown, lines⟩

/-- Writing a token that shows something. -/
theorem Filled.visible (filled : Filled page)
    (fits : (page.caseOf token).Fits token) (level : '\n' ∉ token.value)
    (begins : BeginsVisibly token.spelled)
    (written : (TemplateSet.beautify layout).renderToken page token .plain next = .ok one) :
    Lined one (some token) next := by
  obtain ⟨shown, lines⟩ := filled
  obtain ⟨gap, split, gapLevel⟩ := @Layout.gapBefore_level layout page token
  obtain ⟨c, first, visible⟩ := begins
  have shows : Text.HasVisible (gap ++ token.spelled) :=
    ⟨c, List.mem_append_right gap (List.mem_of_mem_head? first), visible⟩
  have levelHere : '\n' ∉ gap ++ token.spelled := by
    rw [List.mem_append, not_or]
    exact ⟨gapLevel, Token.spelled_level level⟩
  obtain ⟨begun, lined⟩ := @LinesShow.append_lineEnd layout _ _ lines
    (Layout.template layout.commaFirst (page.caseOf token))
  have ended := lined.append_level levelHere (.inr shows)
  have text := (Layout.renderToken_text written).1
  rw [split, List.append_assoc, ← List.append_assoc gap, ← List.append_assoc page.text,
    ← List.append_assoc] at text
  rcases @Layout.gapAfter_cases layout page token next with none | space | newline
  · rw [none, List.append_nil] at text
    exact ⟨true, text ▸ ended, fun _ _ _ _ => rfl⟩
  · rw [space] at text
    exact ⟨true, text ▸ ended.append_level (by simp) (.inl rfl), fun _ _ _ _ => rfl⟩
  · refine ⟨false, ?_, ?_⟩
    · rw [text, newline]
      exact ended.append_newline
    · rintro left ⟨⟩ ends other
      rw [Layout.gapAfter_of_ends fits ends other] at newline
      cases newline

/-- Writing a token between which and its neighbours nothing stands. -/
theorem Layout.renderToken_tight (begins : (page.caseOf token).beginsTight = true)
    (ends : (page.caseOf token).endsTight = true)
    (written : (TemplateSet.beautify layout).renderToken page token .plain next = .ok one) :
    one.text = page.text ++ token.spelled := by
  rw [(Layout.renderToken_text written).1, gapBefore_of_beginsTight begins,
    gapAfter_of_endsTight ends, List.nil_append, List.append_nil]

/-- Writing a token that stands for nothing. -/
theorem Layout.renderToken_silent (begins : (page.caseOf token).beginsTight = true)
    (ends : (page.caseOf token).endsTight = true) (silent : token.spelled = [])
    (written : (TemplateSet.beautify layout).renderToken page token .plain next = .ok one) :
    one.text = page.text := by
  rw [renderToken_tight begins ends written, silent, List.append_nil]

/-- Writing the start of a row, for which nothing is written. -/
theorem Filled.rowStart (filled : Filled page)
    (written : (TemplateSet.beautify layout).renderToken page
      (ScopeKind.arrayRow.startToken arrayRowName) .plain next = .ok one) :
    Lined one (some (ScopeKind.arrayRow.startToken arrayRowName)) next := by
  have text : one.text = page.text := Layout.renderToken_silent rfl rfl rfl written
  obtain ⟨shown, lines⟩ := filled
  refine ⟨shown, text ▸ lines, ?_⟩
  rintro left ⟨⟩ ends
  cases ends

/-- Writing the stop of a row, for which nothing is written. -/
theorem Filled.rowStop (filled : Filled page)
    (written : (TemplateSet.beautify layout).renderToken page ScopeKind.arrayRow.stopToken .plain
      next = .ok one) : Filled one := by
  have text : one.text = page.text := Layout.renderToken_silent rfl rfl rfl written
  obtain ⟨shown, lines⟩ := filled
  exact ⟨shown, text ▸ lines⟩

/-- Writing an intersection, which stands behind a value. -/
theorem Lined.intersection (lined : Lined page previous (some intersection))
    (link : Links previous intersection next)
    (written : (TemplateSet.beautify layout).renderToken page SheetFormula.intersection .plain
      next = .ok one) : Lined one (some SheetFormula.intersection) next := by
  obtain ⟨shown, lines, value⟩ := lined
  obtain ⟨⟨left, member, ends⟩, _⟩ := link.intersect rfl
  obtain rfl := value left member ends rfl
  have text : one.text = page.text ++ [' '] := Layout.renderToken_tight rfl rfl written
  exact ⟨true, text ▸ lines.append_level (by simp) (.inl rfl), fun _ _ _ _ => rfl⟩

/-- The rest of a stream of tokens without line ends is still to be laid out on the page. -/
structure Unlaid (layout : Layout) (after page : Page) (previous : Option Token)
    (tokens : List Token) : Prop where
  linked : Linked Links previous tokens
  fits : ∀ token ∈ tokens, ∀ innermost, (RenderCase.of token innermost).Fits token
  level : ∀ token ∈ tokens, '\n' ∉ token.value
  written : (TemplateSet.beautify layout).renderOnto page (tokens.map (·, .plain)) = .ok after

private theorem Unlaid.of_cons (unlaid : Unlaid layout after page previous (token :: rest)) :
    ∃ one, (TemplateSet.beautify layout).renderToken page token .plain rest.head? = .ok one ∧
      Unlaid layout after one (some token) rest := by
  obtain ⟨⟨_, linked⟩, fits, level, written⟩ := unlaid
  obtain ⟨one, first, others⟩ := TemplateSet.renderOnto_plain_cons written
  exact ⟨one, first, linked, (List.forall_mem_cons.mp fits).2, (List.forall_mem_cons.mp level).2,
    others⟩

/-- Laying out a token that shows something. -/
theorem Unlaid.visible (unlaid : Unlaid layout after page previous (token :: rest))
    (filled : Filled page) (begins : BeginsVisibly token.spelled) :
    ∃ one, Unlaid layout after one (some token) rest ∧ Lined one (some token) rest.head? := by
  obtain ⟨one, first, others⟩ := unlaid.of_cons
  exact ⟨one, others, filled.visible (unlaid.fits token List.mem_cons_self _)
    (unlaid.level token List.mem_cons_self) begins first⟩

/-- A finished stream in which words, error codes and called names begin visibly. -/
abbrev VisibleStream (convention : Convention) (scopes : List ScopeKind) (tokens : List Token)
    (last : List ScopeKind) : Prop :=
  Leads convention (IsFinished convention BeginsVisibly BeginsVisibly) BeginsVisibly scopes tokens
    last

/-- Laying out a stream leaves no blank line. -/
theorem Leads.filled (course : VisibleStream convention scopes tokens last)
    (unlaid : Unlaid layout after page previous tokens)
    (lined : Lined page previous tokens.head?) : Filled after := by
  have separator : BeginsVisibly [convention.separator] := by
    cases convention <;> exact (visible_singleton rfl).1
  induction course generalizing page previous with
  | done =>
      obtain rfl := Except.ok.inj unlaid.written
      exact lined.filled
  | @plain _ _ token _ held _ ih =>
      by_cases intersect : token.role = some .intersect
      -- The value before it keeps the space of an intersection from standing alone on a line.
      · obtain ⟨one, first, others⟩ := unlaid.of_cons
        cases held.1.eq_intersection intersect
        exact ih others (lined.intersection unlaid.linked.1 first)
      · have begins : BeginsVisibly token.spelled :=
          held.1.spelled_holds intersect (fun _ held => held) (fun _ held => held)
            (fun content => ⟨'"', rfl, rfl⟩) fun text => beginsVisibly_of_dense
        obtain ⟨one, others, lined⟩ := unlaid.visible lined.filled begins
        exact ih others lined
  | argument _ _ ih | union _ _ ih =>
      obtain ⟨one, others, lined⟩ := unlaid.visible lined.filled separator
      exact ih others lined
  | @call _ _ name _ named _ ih =>
      rcases spelled_start_cases name with rfl | brace | call
      · obtain ⟨one, first, others⟩ := unlaid.of_cons
        exact ih others (lined.filled.rowStart first)
      · obtain ⟨one, others, lined⟩ := unlaid.visible lined.filled
          (brace ▸ (visible_singleton rfl).1)
        exact ih others lined
      · obtain ⟨one, others, lined⟩ := unlaid.visible lined.filled
          (call ▸ named.append_right ['('])
        exact ih others lined
  | group _ ih | callEnd _ ih | groupEnd _ ih =>
      obtain ⟨one, others, lined⟩ := unlaid.visible lined.filled (visible_singleton rfl).1
      exact ih others lined
  | array _ ih =>
      obtain ⟨one, within, lined⟩ := unlaid.visible lined.filled (visible_singleton rfl).1
      obtain ⟨two, second, others⟩ := within.of_cons
      exact ih others (lined.filled.rowStart second)
  | nextRow _ _ ih =>
      obtain ⟨one, first, within⟩ := unlaid.of_cons
      obtain ⟨two, behind, lined⟩ :=
        within.visible (lined.filled.rowStop first) (visible_singleton rfl).1
      obtain ⟨three, third, others⟩ := behind.of_cons
      exact ih others (lined.filled.rowStart third)
  | arrayEnd _ ih =>
      obtain ⟨one, first, within⟩ := unlaid.of_cons
      obtain ⟨two, others, lined⟩ :=
        within.visible (lined.filled.rowStop first) (visible_singleton rfl).1
      exact ih others lined

namespace Scanner

variable {scanner : Scanner} {called : List Char → Prop}

/-- What the end of the text makes of what the scanner is reading begins visibly, if an error code
does. -/
theorem Sound.leftover_visible (sound : scanner.Sound convention called)
    (marked : scanner.literal.IsMarked) :
    ∀ token ∈ scanner.leftover, IsRaw BeginsVisibly BeginsVisibly token := by
  intro token member
  have word (reading : scanner.reading.isOpen = true ∨ scanner.reading = .path ∨
        scanner.reading = .bracket)
      (inside : token ∈ scanner.pendingTokens .operand) :
      IsRaw BeginsVisibly BeginsVisibly token := by
    unfold pendingTokens at inside
    split at inside
    · cases inside
    · rename_i present
      rw [List.mem_singleton] at inside
      exact inside ▸ .word ((sound.gathered reading).beginsVisibly (by simpa using present))
  unfold leftover at member
  cases sort : scanner.reading with
  | text | textQuote => simp only [sort, List.mem_singleton] at member; exact member ▸ .text _
  | errorCode =>
      simp only [literal, sort] at marked
      simp only [sort, List.mem_singleton] at member
      exact member ▸ .code ⟨'#', List.head?_reverse.trans marked, rfl⟩
  | comparison first =>
      simp only [sort, List.mem_singleton] at member
      obtain ⟨_, rfl | rfl⟩ := sound.comparison first sort
      · exact member ▸ .operator (by decide)
      · exact member ▸ .operator (by decide)
  | blanks =>
      simp only [sort, pendingTokens_of_empty (sound.blanks sort)] at member
      cases member
  | formula | pathQuote => simp only [sort] at member; exact word (.inl (by rw [sort]; rfl)) member
  | path => simp only [sort] at member; exact word (.inr (.inl sort)) member
  | bracket => simp only [sort] at member; exact word (.inr (.inr sort)) member

end Scanner

/-- The words, error codes and called names of every formula begin visibly, also those that the
formula ends in. -/
theorem visibleStream_of_tokenize {formula : List Char}
    (read : tokenize convention formula = .ok tokens) :
    VisibleStream convention [] tokens [] ∧ Linked Links none tokens := by
  obtain ⟨scanner, scanned, rfl⟩ := tokenize_eq_ok.mp read
  have sound : scanner.Sound convention (IsWord convention) :=
    (Scanner.sound_start formula).run (Scanner.sound_start formula).callNames_words scanned
  have unmarked : (Scanner.start formula).literal.IsMarked := trivial
  have marked : scanner.literal.IsMarked := by
    rw [Scanner.run_literal scanned]
    exact unmarked.after _
  have stream := sound.finish_stream (sound.stream.mono fun token raw => raw.imp
    (fun _ word => word.beginsVisibly)
    fun _ code => beginsVisibly_of_dense (errorCodes_dense code).1 (errorCodes_dense code).2)
    (sound.leftover_visible marked)
  exact ⟨stream.leads.finishStream.mono (fun _ held => held) fun _ word => word.beginsVisibly,
    stream.linked_finishStream⟩

/-- No line of a formula that is laid out is blank, if no token holds a line end. -/
theorem beautify_lines_visible {formula : List Char} (layout : Layout)
    (read : tokenize convention formula = .ok tokens)
    (level : ∀ token ∈ tokens, '\n' ∉ token.value) :
    ∃ laid, beautify convention layout formula = .ok laid ∧
      ∀ line ∈ laid.splitOn '\n', Text.HasVisible line := by
  obtain ⟨course, linked⟩ := visibleStream_of_tokenize read
  obtain ⟨after, written⟩ := @TemplateSet.renderOnto_total (TemplateSet.beautify layout) {}
    (fun _ => nofun) (tokens.map (·, .plain))
  obtain ⟨shown, lines⟩ := course.filled ⟨linked, course.fits, level, written⟩
    ⟨false, ⟨rfl, fun _ => .inl rfl⟩, nofun⟩
  refine ⟨'=' :: Text.trim after.text, ?_, Text.hasVisible_lines_trim lines.read⟩
  exact (renderFormula_eq read).trans
    (bind_eq_ok.mpr ⟨after, written, pure_eq_ok.mpr (List.append_nil _)⟩)

/-- Separators begin the lines, a missing argument and an array stand among nested scopes, and the
formula ends inside an error code. -/
theorem beautify_lines_visible_nested :
    ∃ tokens, tokenize .us "=IF(A1 B1,\x7b1;2,3\x7d,SUM(,(C1)))&#N".toList = .ok tokens ∧
      (∀ token ∈ tokens, '\n' ∉ token.value) ∧
      ∃ laid, beautify .us ⟨.spaces 2, true⟩
          "=IF(A1 B1,\x7b1;2,3\x7d,SUM(,(C1)))&#N".toList = .ok laid ∧
        (laid.splitOn '\n').length = 10 ∧ ∀ line ∈ laid.splitOn '\n', Text.HasVisible line := by
  have plain : (tokenize .us "=IF(A1 B1,\x7b1;2,3\x7d,SUM(,(C1)))&#N".toList).toOption.any
      (·.all fun token => '\n' ∉ token.value) = true := by
    decide +kernel
  have long : (beautify .us ⟨.spaces 2, true⟩
      "=IF(A1 B1,\x7b1;2,3\x7d,SUM(,(C1)))&#N".toList).toOption.any
        (fun laid => (laid.splitOn '\n').length = 10) = true := by
    decide +kernel
  cases read : tokenize .us "=IF(A1 B1,\x7b1;2,3\x7d,SUM(,(C1)))&#N".toList with
  | error error =>
      rw [read] at plain
      cases plain
  | ok tokens =>
      rw [read] at plain
      have level : ∀ token ∈ tokens, '\n' ∉ token.value := by
        simpa using show tokens.all (fun token => '\n' ∉ token.value) = true from plain
      obtain ⟨laid, written, visible⟩ := beautify_lines_visible ⟨.spaces 2, true⟩ read level
      rw [written] at long
      exact ⟨tokens, rfl, level, laid, written, of_decide_eq_true long, visible⟩

end SheetFormula
