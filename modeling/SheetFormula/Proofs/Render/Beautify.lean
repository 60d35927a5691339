import SheetFormula.Proofs.Render.Layout

/-!
# Laying out a formula

The tokens of a legible stream are spread over what the layout writes for them (`Legible.lays`): a
gap stands only where it is dropped again, and every operator that could join the token before it
has one.  The induction follows the scopes of the stream and carries what the page says about the
last token (`Settled`).  So a formula in which no closed scope is followed by a value keeps its
tokens when it is laid out (`tokenize_beautify`).
-/

namespace SheetFormula

variable {convention : Convention} {layout : Layout} {page one after : Page} {token : Token}
  {previous next : Option Token} {gap : List Char} {tokens rest : List Token}
  {scopes last : List ScopeKind} {formula : List Char}

/-- The page between two tokens, where the gap is what stands after the text of the previous one. -/
structure Settled (page : Page) (previous : Option Token) (gap : List Char) (next : Option Token) :
    Prop where
  blank : ∀ c ∈ gap, Text.isBlank c = true
  row : ∀ left ∈ previous, left ≠ ScopeKind.arrayRow.stopToken
  lineStart : page.lineStart = true → ∀ left ∈ previous, left.isStop = true ∨ gap ≠ []
  value : gap ≠ [] → ∀ left ∈ previous, left.endsValue = true → next.any Token.isArgument = true
  intersect : ∀ left ∈ previous, left.role = some .intersect →
    gap = [] ∧ ∀ right ∈ next, right.beginsValue = true

/-- Where there is a gap, it is dropped when the output is read. -/
theorem Settled.spaces (settled : Settled page previous gap (some token))
    (fits : (page.caseOf token).Fits token) (link : Links previous token next)
    (stopped : ∀ left ∈ previous, left.isStop = true → token.beginsValue = false)
    (row : token ≠ ScopeKind.arrayRow.startToken arrayRowName)
    (present : gap ++ layout.gapBefore page token ≠ []) : Spaces previous token := by
  -- The layout indents a value only at the start of a line, which a visible text is not the end of.
  have wide {left : Token} (member : left ∈ previous) (begins : token.beginsValue = true)
      (going : left.isStop = false) : gap ≠ [] := by
    intro empty
    rw [empty, List.nil_append] at present
    cases line : page.lineStart with
    | false => exact present (Layout.gapBefore_of_begins fits begins line)
    | true =>
        rcases settled.lineStart line left member with stop | wide
        · rw [going] at stop
          cases stop
        · exact wide empty
  refine ⟨fun left member ends => ?_, ⟨fun intersect => ?_, fun left member intersect => ?_⟩,
    row, settled.row⟩
  · by_contra begins
    rw [Bool.not_eq_false] at begins
    cases stop : left.isStop with
    | true =>
        rw [stopped left member stop] at begins
        cases begins
    | false =>
        have separates := settled.value (wide member begins stop) left member ends
        rw [(fits.separates separates).1] at begins
        cases begins
  · obtain ⟨⟨left, member, ends⟩, _⟩ := link.intersect intersect
    have tight : layout.gapBefore page token = [] :=
      Layout.gapBefore_of_beginsTight (by rw [fits.intersect intersect]; rfl)
    rw [tight, List.append_nil] at present
    exact (fits.separates (settled.value present left member ends)).2 intersect
  · obtain ⟨empty, begins⟩ := settled.intersect left member intersect
    exact wide member (begins token rfl) (by simp [Token.isStop, intersect]) empty

private theorem Page.getLast?_of_endsWith (ends : page.endsWith ['\n'] = true) :
    page.text.getLast? = some '\n' := by
  rw [Page.text, List.getLast?_reverse]
  obtain ⟨written, same⟩ := List.isPrefixOf_iff_prefix.mp ends
  rw [← same]
  rfl

private theorem Layout.getLast?_text {c : Char}
    (written : (TemplateSet.beautify layout).renderToken page token .plain next = .ok one)
    (tight : layout.gapAfter page token next = []) (final : c ∈ token.spelled.getLast?) :
    one.text.getLast? = some c := by
  rw [(renderToken_text written).1, tight, List.append_nil, ← List.append_assoc,
    List.getLast?_append, show token.spelled.getLast? = some c from final]
  rfl

/-- After a token whose text does not end a line, the page is settled for the next one. -/
theorem Settled.after_token (fits : (page.caseOf token).Fits token)
    (link : Links previous token next) (row : token ≠ ScopeKind.arrayRow.stopToken)
    (ends : ∃ c ∈ token.spelled.getLast?, c ≠ '\n')
    (written : (TemplateSet.beautify layout).renderToken page token .plain next = .ok one) :
    Settled one (some token) (layout.gapAfter page token next) next := by
  refine ⟨Layout.gapAfter_blank, ?_, fun line => ?_, fun present => ?_, ?_⟩
  · rintro left ⟨⟩
    exact row
  · rintro left ⟨⟩
    by_contra neither
    obtain ⟨going, empty⟩ := not_or.mp neither
    rw [not_not] at empty
    obtain ⟨c, final, visible⟩ := ends
    rw [(Layout.renderToken_text written).2, Bool.or_eq_true] at line
    have newline := Page.getLast?_of_endsWith (line.resolve_left going)
    rw [Layout.getLast?_text written empty final] at newline
    exact visible (Option.some.inj newline)
  · rintro left ⟨⟩ ends
    by_contra other
    exact present (Layout.gapAfter_of_ends fits ends (by simpa using other))
  · rintro left ⟨⟩ intersect
    have tight : layout.gapAfter page token next = [] :=
      Layout.gapAfter_of_endsTight (by rw [fits.intersect intersect]; rfl)
    obtain ⟨_, following, member, begins⟩ := link.intersect intersect
    refine ⟨tight, fun right rightMember => ?_⟩
    obtain rfl := Option.mem_unique member rightMember
    exact begins

/-- After the start of a row in the middle of a line, the page is settled. -/
theorem Settled.after_row {c : Char} (final : page.text.getLast? = some c) (visible : c ≠ '\n')
    (written : (TemplateSet.beautify layout).renderToken page
      (ScopeKind.arrayRow.startToken arrayRowName) .plain next = .ok one) :
    Settled one (some (ScopeKind.arrayRow.startToken arrayRowName)) [] next := by
  obtain ⟨text, lineStart⟩ := Layout.renderToken_text written
  rw [Layout.gapBefore_of_beginsTight rfl, Layout.gapAfter_of_endsTight rfl] at text
  refine ⟨nofun, ?_, fun line => ?_, fun present => (present rfl).elim, ?_⟩
  · rintro left ⟨⟩
    decide
  · rw [lineStart] at line
    have newline := Page.getLast?_of_endsWith line
    rw [text] at newline
    rw [show page.text ++ ([] ++ (_ ++ [])) = page.text from List.append_nil _, final] at newline
    exact (visible (Option.some.inj newline)).elim
  · rintro left ⟨⟩ intersect
    cases intersect

/-- The tokens are spread over what is written after the text of the previous one, but for blanks at
the end. -/
def Lays (page : Page) (previous : Option Token) (gap : List Char) (tokens : List Token)
    (after : Page) : Prop :=
  ∃ added raws text trail, after.text = page.text ++ added ∧ gap ++ added = text ++ trail ∧
    (∀ c ∈ trail, Text.isBlank c = true) ∧ Spread previous tokens raws text

private theorem Lays.cons (fits : (page.caseOf token).Fits token)
    (written : (TemplateSet.beautify layout).renderToken page token .plain next = .ok one)
    (blank : ∀ c ∈ gap, Text.isBlank c = true)
    (spaces : gap ++ layout.gapBefore page token ≠ [] → Spaces previous token)
    (lays : Lays one (some token) (layout.gapAfter page token next) rest after) :
    Lays page previous gap (token :: rest) after := by
  obtain ⟨added, raws, text, trail, grown, same, trailing, spread⟩ := lays
  rw [(Layout.renderToken_text written).1, List.append_assoc] at grown
  have whole : gap ++ (layout.gapBefore page token ++
      (token.spelled ++ layout.gapAfter page token next) ++ added) =
      (gap ++ layout.gapBefore page token) ++ (token.spelled ++ text) ++ trail := by
    simp only [List.append_assoc, same]
  by_cases present : gap ++ layout.gapBefore page token = []
  · have apart : ∀ left ∈ previous, ¬Joins left token := fun left _ joins =>
      Layout.gapBefore_of_joins fits joins (List.append_eq_nil_iff.mp present).2
    rw [present] at whole
    exact ⟨_, _, _, trail, grown, whole, trailing, .tight apart spread⟩
  · have blanks : ∀ c ∈ gap ++ layout.gapBefore page token, Text.isBlank c = true :=
      List.forall_mem_append.mpr ⟨blank, Layout.gapBefore_blank⟩
    exact ⟨_, _, _, trail, grown, whole, trailing, .spaced present blanks (spaces present) spread⟩

/-- The rest of a stream is still to be written on the page. -/
structure Writing (layout : Layout) (after page : Page) (previous : Option Token)
    (tokens : List Token) : Prop where
  linked : Linked Links previous tokens
  stops : (previous.toList ++ tokens).IsChain fun left right =>
    left.isStop = true → right.beginsValue = false
  fits : ∀ token ∈ tokens, ∀ innermost, (RenderCase.of token innermost).Fits token
  written : (TemplateSet.beautify layout).renderOnto page (tokens.map (·, .plain)) = .ok after

/-- The first of the tokens to be written, and what is left to be written after it. -/
theorem Writing.of_cons (writing : Writing layout after page previous (token :: rest))
    (blank : ∀ c ∈ gap, Text.isBlank c = true)
    (spaces : gap ++ layout.gapBefore page token ≠ [] → Spaces previous token) :
    ∃ one, (TemplateSet.beautify layout).renderToken page token .plain rest.head? = .ok one ∧
      one.scopes = rebuild page.scopes [token] ∧ Writing layout after one (some token) rest ∧
      (Lays one (some token) (layout.gapAfter page token rest.head?) rest after →
        Lays page previous gap (token :: rest) after) := by
  obtain ⟨⟨_, linked⟩, stops, fits, written⟩ := writing
  obtain ⟨own, restFits⟩ := List.forall_mem_cons.mp fits
  obtain ⟨one, first, others⟩ := TemplateSet.renderOnto_plain_cons written
  refine ⟨one, first, TemplateSet.renderToken_scopes first, ⟨linked, ?_, restFits, others⟩,
    fun lays => lays.cons (own _) first blank spaces⟩
  cases previous with
  | none => exact stops
  | some left => exact stops.tail

private theorem Writing.stopped (writing : Writing layout after page previous (token :: rest)) :
    ∀ left ∈ previous, left.isStop = true → token.beginsValue = false := by
  rintro left ⟨⟩
  exact (List.isChain_cons_cons.mp writing.stops).1

private theorem Writing.fits_first (writing : Writing layout after page previous (token :: rest)) :
    (page.caseOf token).Fits token :=
  writing.fits token List.mem_cons_self _

/-- Where there is a gap before the first token, it is dropped when the output is read. -/
theorem Writing.spaces (writing : Writing layout after page previous (token :: rest))
    (settled : Settled page previous gap (some token))
    (row : token ≠ ScopeKind.arrayRow.startToken arrayRowName) :
    gap ++ layout.gapBefore page token ≠ [] → Spaces previous token :=
  settled.spaces writing.fits_first writing.linked.1 writing.stopped row

/-- The first of the tokens can be written up to the given one, with the given scopes open, and the
page is settled for the rest. -/
def Proceeds (layout : Layout) (after page : Page) (previous : Option Token) (gap : List Char)
    (tokens : List Token) (token : Token) (rest : List Token) (scopes : List ScopeKind) : Prop :=
  ∃ one gap', one.scopes = scopes ∧ Writing layout after one (some token) rest ∧
    Settled one (some token) gap' rest.head? ∧
    (Lays one (some token) gap' rest after → Lays page previous gap tokens after)

private theorem Proceeds.lays
    (proceeds : Proceeds layout after page previous gap tokens token rest scopes)
    (further : ∀ {one : Page} {previous : Option Token} {gap : List Char},
      Writing layout after one previous rest → Settled one previous gap rest.head? →
        one.scopes = scopes → Lays one previous gap rest after) :
    Lays page previous gap tokens after := by
  obtain ⟨one, gap', kept, writing, settled, lays⟩ := proceeds
  exact lays (further writing settled kept)

/-- Writing a token after which the page is settled. -/
theorem Writing.step (writing : Writing layout after page previous (token :: rest))
    (settled : Settled page previous gap (some token))
    (start : token ≠ ScopeKind.arrayRow.startToken arrayRowName)
    (stop : token ≠ ScopeKind.arrayRow.stopToken) (ends : ∃ c ∈ token.spelled.getLast?, c ≠ '\n')
    (around : rebuild page.scopes [token] = scopes) :
    Proceeds layout after page previous gap (token :: rest) token rest scopes := by
  obtain ⟨one, first, kept, further, lays⟩ :=
    writing.of_cons settled.blank (writing.spaces settled start)
  exact ⟨one, _, kept.trans around, further,
    .after_token writing.fits_first writing.linked.1 stop ends first, lays⟩

/-- Writing a token directly after the text of the previous one. -/
theorem Writing.tight (writing : Writing layout after page previous (token :: rest))
    (begins : (page.caseOf token).beginsTight = true) :
    ∃ one, (TemplateSet.beautify layout).renderToken page token .plain rest.head? = .ok one ∧
      one.scopes = rebuild page.scopes [token] ∧ Writing layout after one (some token) rest ∧
      (Lays one (some token) (layout.gapAfter page token rest.head?) rest after →
        Lays page previous [] (token :: rest) after) := by
  refine writing.of_cons (List.forall_mem_nil _) fun present => ?_
  rw [Layout.gapBefore_of_beginsTight begins] at present
  exact (present rfl).elim

/-- Writing the start of a row in the middle of a line. -/
theorem Writing.startRow {c : Char}
    (writing : Writing layout after page previous
      (ScopeKind.arrayRow.startToken arrayRowName :: rest))
    (final : page.text.getLast? = some c) (visible : c ≠ '\n') :
    Proceeds layout after page previous [] (ScopeKind.arrayRow.startToken arrayRowName :: rest)
      (ScopeKind.arrayRow.startToken arrayRowName) rest (.arrayRow :: page.scopes) := by
  obtain ⟨one, first, kept, further, lays⟩ := writing.tight rfl
  have ends : (page.caseOf (ScopeKind.arrayRow.startToken arrayRowName)).endsTight = true := rfl
  rw [Layout.gapAfter_of_endsTight ends] at lays
  exact ⟨one, [], kept, further, .after_row final visible first, lays⟩

/-- Going on after tokens that leave no gap. -/
theorem Proceeds.behind {more : List Token} {start : Page} {before : Option Token} {other : Token}
    (proceeds : Proceeds layout after page (some other) [] more token rest scopes)
    (lays : Lays page (some other) [] more after → Lays start before gap tokens after) :
    Proceeds layout after start before gap tokens token rest scopes := by
  obtain ⟨one, gap', kept, writing, settled, laysMore⟩ := proceeds
  exact ⟨one, gap', kept, writing, settled, lays ∘ laysMore⟩

/-- Writing the start of an array and of its first row. -/
theorem Writing.startArray
    (writing : Writing layout after page previous (ScopeKind.array.startToken arrayName ::
      ScopeKind.arrayRow.startToken arrayRowName :: rest))
    (settled : Settled page previous gap (some (ScopeKind.array.startToken arrayName))) :
    Proceeds layout after page previous gap (ScopeKind.array.startToken arrayName ::
        ScopeKind.arrayRow.startToken arrayRowName :: rest)
      (ScopeKind.arrayRow.startToken arrayRowName) rest (.arrayRow :: .array :: page.scopes) := by
  obtain ⟨one, first, kept, within, lays⟩ :=
    writing.of_cons settled.blank (writing.spaces settled (by decide))
  have ends : (page.caseOf (ScopeKind.array.startToken arrayName)).endsTight = true := rfl
  have final := Layout.getLast?_text first (Layout.gapAfter_of_endsTight ends) rfl
  rw [Layout.gapAfter_of_endsTight ends] at lays
  have row := within.startRow final (by decide)
  rw [kept] at row
  exact row.behind lays

/-- Writing the end of a row, a separator and the start of the next row. -/
theorem Writing.nextRow {outer : List ScopeKind}
    (writing : Writing layout after page previous (ScopeKind.arrayRow.stopToken ::
      argumentToken ';' :: ScopeKind.arrayRow.startToken arrayRowName :: rest))
    (settled : Settled page previous gap (some ScopeKind.arrayRow.stopToken))
    (around : page.scopes = .arrayRow :: .array :: outer) :
    Proceeds layout after page previous gap (ScopeKind.arrayRow.stopToken :: argumentToken ';' ::
        ScopeKind.arrayRow.startToken arrayRowName :: rest)
      (ScopeKind.arrayRow.startToken arrayRowName) rest (.arrayRow :: .array :: outer) := by
  obtain ⟨one, _, kept, within, lays⟩ :=
    writing.of_cons settled.blank (writing.spaces settled (by decide))
  have ends : (page.caseOf ScopeKind.arrayRow.stopToken).endsTight = true := rfl
  rw [Layout.gapAfter_of_endsTight ends] at lays
  -- The row is closed, so the separator stands directly in the array.
  have inArray : one.scopes = .array :: outer := by
    rw [kept, around]
    rfl
  have bare : one.caseOf (argumentToken ';') = .arrayRowSeparator := by
    change RenderCase.ofSeparator one.scopes.head? = _
    rw [inArray]
    rfl
  obtain ⟨two, second, keptSeparator, behind, laysSeparator⟩ := within.tight (by rw [bare]; rfl)
  have endsSeparator : (one.caseOf (argumentToken ';')).endsTight = true := by
    rw [bare]
    rfl
  have final := Layout.getLast?_text second (Layout.gapAfter_of_endsTight endsSeparator) rfl
  rw [Layout.gapAfter_of_endsTight endsSeparator] at laysSeparator
  have row := behind.startRow final (by decide)
  rw [keptSeparator, inArray] at row
  exact row.behind (lays ∘ laysSeparator)

/-- Writing the end of a row and of its array. -/
theorem Writing.endArray {outer : List ScopeKind}
    (writing : Writing layout after page previous
      (ScopeKind.arrayRow.stopToken :: ScopeKind.array.stopToken :: rest))
    (settled : Settled page previous gap (some ScopeKind.arrayRow.stopToken))
    (around : page.scopes = .arrayRow :: .array :: outer) :
    Proceeds layout after page previous gap
      (ScopeKind.arrayRow.stopToken :: ScopeKind.array.stopToken :: rest)
      ScopeKind.array.stopToken rest outer := by
  obtain ⟨one, _, kept, within, lays⟩ :=
    writing.of_cons settled.blank (writing.spaces settled (by decide))
  have ends : (page.caseOf ScopeKind.arrayRow.stopToken).endsTight = true := rfl
  rw [Layout.gapAfter_of_endsTight ends] at lays
  obtain ⟨two, second, keptArray, further, laysArray⟩ := within.tight rfl
  refine ⟨two, _, ?_, further, .after_token within.fits_first within.linked.1 (by decide)
    ⟨'\x7d', rfl, by decide⟩ second, lays ∘ laysArray⟩
  rw [keptArray, kept, around]
  rfl

/-- A text that ends with a visible character does not end with a line end. -/
theorem EndsVisibly.not_newline {text : List Char} (ends : EndsVisibly text) :
    ∃ c ∈ text.getLast?, c ≠ '\n' := by
  obtain ⟨c, final, visible⟩ := ends
  refine ⟨c, final, ?_⟩
  rintro rfl
  cases visible

private theorem IsLegible.spelled_last (legible : IsLegible convention token) :
    ∃ c ∈ token.spelled.getLast?, c ≠ '\n' := by
  rcases legible.isVisible.raw_cases with ⟨rfl, _⟩ | ⟨plain, same⟩
  · exact ⟨' ', rfl, by decide⟩
  · have ends := legible.isKnown.endsVisibly (legible.isVisible.raw_visible plain)
    rw [same, spelled_unresolved] at ends
    exact ends.not_newline

private theorem IsCallable.ofStart_eq {name : List Char} (named : IsCallable convention name) :
    ScopeKind.ofStart (ScopeKind.function.startToken name) = .function := by
  simp [ScopeKind.ofStart, ScopeKind.startToken, ScopeKind.tokenKind, named.2.1, named.2.2]

/-- Tokens of different kinds differ. -/
theorem ne_of_kind {left right : Token} (kind : (left.kind != right.kind) = true) : left ≠ right :=
  fun same => bne_iff_ne.mp kind (congrArg Token.kind same)

/-- Tokens with different roles differ. -/
theorem ne_of_role {left right : Token} (role : (left.role != right.role) = true) : left ≠ right :=
  fun same => bne_iff_ne.mp role (congrArg Token.role same)

/-- The tokens of a legible stream are spread over what the layout writes for them. -/
theorem Legible.lays (legible : Legible convention scopes tokens last)
    (writing : Writing layout after page previous tokens)
    (settled : Settled page previous gap tokens.head?) (around : page.scopes = scopes) :
    Lays page previous gap tokens after := by
  have separator : convention.separator ≠ '\n' := by cases convention <;> decide
  induction legible generalizing page previous gap with
  | done =>
      obtain rfl := Except.ok.inj writing.written
      exact ⟨[], [], [], gap, by simp, by simp, settled.blank, .nil⟩
  | @plain _ _ token _ held _ ih =>
      obtain ⟨start, stop⟩ := held.1.bare
      have notStart : token ≠ ScopeKind.arrayRow.startToken arrayRowName := by
        rintro rfl
        cases start
      have notStop : token ≠ ScopeKind.arrayRow.stopToken := by
        rintro rfl
        cases stop
      refine (writing.step settled notStart notStop held.spelled_last ?_).lays ih
      simp only [rebuild, start, stop, Bool.false_eq_true, ↓reduceIte, around]
  | argument _ _ ih =>
      exact (writing.step settled (ne_of_kind rfl) (ne_of_kind rfl)
        ⟨convention.separator, rfl, separator⟩ around).lays ih
  | union _ _ ih =>
      exact (writing.step settled (ne_of_kind rfl) (ne_of_kind rfl)
        ⟨convention.separator, rfl, separator⟩ around).lays ih
  | @call _ _ name _ named _ ih =>
      have ends : ∃ c ∈ (ScopeKind.function.startToken name).spelled.getLast?, c ≠ '\n' := by
        rw [Token.spelled_call named.2.1 named.2.2]
        exact ⟨'(', List.getLast?_concat, by decide⟩
      have notRow : ScopeKind.function.startToken name ≠
          ScopeKind.arrayRow.startToken arrayRowName := by
        intro same
        exact named.2.2 (congrArg Token.value same)
      refine (writing.step settled notRow (ne_of_role rfl) ends ?_).lays ih
      rw [around]
      exact congrArg (· :: _) named.ofStart_eq
  | group _ ih =>
      exact (writing.step settled (ne_of_kind rfl) (ne_of_kind rfl) ⟨'(', rfl, by decide⟩
        (by rw [around]; rfl)).lays ih
  | callEnd _ ih =>
      exact (writing.step settled (ne_of_role rfl) (by decide) ⟨')', rfl, by decide⟩
        (by rw [around]; rfl)).lays ih
  | groupEnd _ ih =>
      exact (writing.step settled (ne_of_kind rfl) (ne_of_kind rfl) ⟨')', rfl, by decide⟩
        (by rw [around]; rfl)).lays ih
  | array _ ih => exact (around ▸ writing.startArray settled).lays ih
  | nextRow _ _ ih => exact (writing.nextRow settled around).lays ih
  | arrayEnd _ ih => exact (writing.endArray settled around).lays ih

/-- A stream that is spread after a first gap is also spread without it. -/
theorem Spread.strip {raws : List Token} {text : List Char}
    (spread : Spread none tokens raws text) :
    ∃ lead raws' text', text = lead ++ text' ∧ (∀ c ∈ lead, Text.isBlank c = true) ∧
      Spread none tokens raws' text' ∧ raws'.head? = tokens.head?.map Token.raw := by
  cases spread with
  | nil => exact ⟨[], [], [], rfl, nofun, .nil, rfl⟩
  | tight apart after => exact ⟨[], _, _, rfl, nofun, .tight apart after, rfl⟩
  | spaced _ blank _ after => exact ⟨_, _, _, rfl, blank, .tight nofun after, rfl⟩

/-- The output of the layout is a text over which the tokens are spread. -/
theorem Legible.renderPlain_beautify (legible : Legible convention [] tokens last)
    (linked : Linked Links none tokens)
    (stops : tokens.IsChain fun left right => left.isStop = true → right.beginsValue = false) :
    ∃ raws text, (TemplateSet.beautify layout).renderPlain tokens = .ok ('=' :: text) ∧
      Spread none tokens raws text := by
  obtain ⟨after, written⟩ := @TemplateSet.renderOnto_total (TemplateSet.beautify layout) {}
    (fun _ => nofun) (tokens.map (·, .plain))
  have settled : Settled {} none [] tokens.head? := ⟨nofun, nofun, nofun, nofun, nofun⟩
  have fits := (legible.mono (fun _ held => held.1) fun _ named => named).fits
  obtain ⟨added, _, whole, trail, grown, same, trailing, spreadWhole⟩ :=
    legible.lays ⟨linked, stops, fits, written⟩ settled rfl
  obtain ⟨lead, raws, text, rfl, leading, spread, tight⟩ := spreadWhole.strip
  refine ⟨raws, text, bind_eq_ok.mpr ⟨after, written, pure_eq_ok.mpr ?_⟩, spread⟩
  have shown : after.text = lead ++ (text ++ trail) := by
    rw [grown, ← List.append_assoc, ← same]
    rfl
  rw [shown, legible.trim_spread linked spread tight leading trailing]
  exact List.append_nil _

/-- Laying out a formula that is read plainly keeps its tokens, if no closed scope is followed by a
value.  So the short form stays the same, and laying it out again changes nothing. -/
theorem tokenize_beautify (layout : Layout) (plainly : ReadsPlainly convention formula tokens)
    (stops : tokens.IsChain fun left right => left.isStop = true → right.beginsValue = false) :
    ∃ pretty, beautify convention layout formula = .ok pretty ∧
      tokenize convention pretty = .ok tokens ∧
      minify convention pretty = minify convention formula ∧
      beautify convention layout pretty = .ok pretty := by
  obtain ⟨legible, linked⟩ := plainly.legible
  obtain ⟨raws, text, rendered, spread⟩ := legible.renderPlain_beautify linked stops
  have again := legible.tokenize_spread linked spread
  refine ⟨_, (renderFormula_eq plainly.read).trans rendered, again, ?_,
    (renderFormula_eq again).trans rendered⟩
  exact (renderFormula_eq again).trans (renderFormula_eq plainly.read).symm

/-- Separators at the starts of lines, with a union, an intersection after a closed scope, an array
of two rows and a call left open. -/
theorem tokenize_beautify_nested :
    ∃ tokens, ReadsPlainly .us
        "= IF(A1>=-1,SUM((A1,B2) C3,\x7b1,2;3\x7d)%,\"a\"&'x y'!D4".toList tokens ∧
      (tokens.IsChain fun left right => left.isStop = true → right.beginsValue = false) ∧
      ∃ pretty, beautify .us ⟨.tabs, true⟩
          "= IF(A1>=-1,SUM((A1,B2) C3,\x7b1,2;3\x7d)%,\"a\"&'x y'!D4".toList = .ok pretty ∧
        tokenize .us pretty = .ok tokens ∧
        minify .us pretty =
          minify .us "= IF(A1>=-1,SUM((A1,B2) C3,\x7b1,2;3\x7d)%,\"a\"&'x y'!D4".toList ∧
        beautify .us ⟨.tabs, true⟩ pretty = .ok pretty := by
  have plainly : ReadsPlainly .us
      "= IF(A1>=-1,SUM((A1,B2) C3,\x7b1,2;3\x7d)%,\"a\"&'x y'!D4".toList
      [ScopeKind.function.startToken "IF".toList, ⟨"A1".toList, .operand, some .range⟩,
        ⟨">=".toList, .infixOperator, some .logical⟩, ⟨['-'], .prefixOperator, none⟩,
        ⟨['1'], .operand, some .number⟩, argumentToken ',',
        ScopeKind.function.startToken "SUM".toList, ScopeKind.subexpression.startToken [],
        ⟨"A1".toList, .operand, some .range⟩, unionToken ',', ⟨"B2".toList, .operand, some .range⟩,
        ScopeKind.subexpression.stopToken, intersection, ⟨"C3".toList, .operand, some .range⟩,
        argumentToken ',', ScopeKind.array.startToken arrayName,
        ScopeKind.arrayRow.startToken arrayRowName, ⟨['1'], .operand, some .number⟩,
        argumentToken ',', ⟨['2'], .operand, some .number⟩, ScopeKind.arrayRow.stopToken,
        argumentToken ';', ScopeKind.arrayRow.startToken arrayRowName,
        ⟨['3'], .operand, some .number⟩, ScopeKind.arrayRow.stopToken, ScopeKind.array.stopToken,
        ScopeKind.function.stopToken, ⟨['%'], .postfixOperator, none⟩, argumentToken ',',
        ⟨['a'], .operand, some .text⟩, ⟨['&'], .infixOperator, none⟩,
        ⟨"'x y'!D4".toList, .operand, some .range⟩, ScopeKind.function.stopToken] :=
    ⟨rfl, ⟨_, rfl, by decide⟩, by decide, by decide⟩
  exact ⟨_, plainly, by decide, tokenize_beautify ⟨.tabs, true⟩ plainly (by decide)⟩

end SheetFormula
