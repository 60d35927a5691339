import SheetFormula.Proofs.Scanner.Opened
import SheetFormula.Proofs.Stream.Nesting
import SheetFormula.Emit

/-!
# The scopes of the page and the scopes of the scanner

Rendering tells the kinds of scopes from the start tokens alone, while the scanner knows them from
the characters.  The two agree at every place of a stream, and starts and stops are rendered alike,
exactly if no call of the formula bears one of the two names that stand for arrays and their rows
(`page_scopes_iff`).
-/

namespace SheetFormula

variable {scopes last kinds : List ScopeKind} {names : List (List Char)} {tokens : List Token}
  {convention : Convention}

/-- The open scopes after some tokens, for one who is told the kinds of scopes in the order of their
starts. -/
def replay : (kinds scopes : List ScopeKind) → List Token → List ScopeKind
  | _, scopes, [] => scopes
  | kinds, scopes, token :: rest =>
      if token.isStart then replay kinds.tail (kinds.head?.toList ++ scopes) rest
      else if token.isStop then replay kinds scopes.tail rest
      else replay kinds scopes rest

/-- The open scopes after some tokens, for one who takes the kinds of scopes from their starts. -/
def rebuild : List ScopeKind → List Token → List ScopeKind
  | scopes, [] => scopes
  | scopes, token :: rest =>
      if token.isStart then rebuild (ScopeKind.ofStart token :: scopes) rest
      else if token.isStop then rebuild scopes.tail rest
      else rebuild scopes rest

private theorem isStop_startToken (kind : ScopeKind) (value : List Char) :
    (kind.startToken value).isStop = false := by
  cases kind <;> rfl

private theorem isStart_startToken (kind : ScopeKind) (value : List Char) :
    (kind.startToken value).isStart = true := by
  cases kind <;> rfl

private theorem isStop_stopToken (kind : ScopeKind) : kind.stopToken.isStop = true := by
  cases kind <;> rfl

private theorem isStart_stopToken (kind : ScopeKind) : kind.stopToken.isStart = false := by
  cases kind <;> rfl

/-- The kind can be told from the start token unless a call bears a reserved name. -/
theorem ScopeKind.Opens.ofStart_eq_iff {kind : ScopeKind} {value : List Char}
    (fits : kind.Opens value) :
    ScopeKind.ofStart (kind.startToken value) = kind ↔ Unreserved (kind.calls value) := by
  cases fits with
  | call =>
      by_cases array : value = arrayName
      · subst array
        decide
      · by_cases row : value = arrayRowName
        · subst row
          decide
        · simp [ScopeKind.ofStart, ScopeKind.startToken, ScopeKind.tokenKind, Unreserved,
            ScopeKind.calls, array, row, Ne.symm array, Ne.symm row]
  | group => decide
  | array => decide
  | row => decide

private theorem forall_prefix_cons {token : Token} {rest : List Token} {holds : List Token → Prop} :
    (∀ before, before <+: token :: rest → holds before) ↔
      holds [] ∧ ∀ before, before <+: rest → holds (token :: before) := by
  constructor
  · intro all
    exact ⟨all [] List.nil_prefix, fun before inside =>
      all _ (List.prefix_cons_inj token |>.mpr inside)⟩
  · rintro ⟨empty, further⟩ before inside
    rcases List.prefix_cons_iff.mp inside with rfl | ⟨more, rfl, shorter⟩
    · exact empty
    · exact further more shorter

/-- The open scopes told from the starts are the right ones throughout exactly if no call bears a
reserved name. -/
theorem Tracks.rebuild_eq_iff (tracks : Tracks scopes tokens kinds names last) :
    (∀ before, before <+: tokens → rebuild scopes before = replay kinds scopes before) ↔
      Unreserved names := by
  induction tracks with
  | done => simp [rebuild, replay, Unreserved]
  | plain start stop _ ih =>
      simp only [forall_prefix_cons, rebuild, replay, start, stop, Bool.false_eq_true, ↓reduceIte,
        true_and]
      exact ih
  | @opens scopes kinds last names kind value rest fits _ ih =>
      simp only [forall_prefix_cons, rebuild, replay, isStart_startToken, ↓reduceIte, true_and,
        List.tail_cons, List.head?_cons, Option.toList_some, List.cons_append, List.nil_append]
      rw [unreserved_append, ← ih, ← fits.ofStart_eq_iff]
      constructor
      · intro same
        have told : ScopeKind.ofStart (kind.startToken value) = kind :=
          (List.cons.inj (same [] List.nil_prefix)).1
        rw [told] at same
        exact ⟨told, same⟩
      · rintro ⟨told, same⟩
        rw [told]
        exact same
  | closes _ ih =>
      simp only [forall_prefix_cons, rebuild, replay, isStart_stopToken, isStop_stopToken,
        Bool.false_eq_true, ↓reduceIte, true_and, List.tail_cons]
      exact ih

namespace TemplateSet

variable {style : TemplateSet} {page after : Page} {token : Token} {next : Option Token}

private theorem writeThrough_scopes {case : RenderCase} {text : List Char}
    (written : style.writeThrough page case token next text = .ok after) :
    after.scopes = page.scopes := by
  obtain ⟨template, _, result⟩ := bind_eq_ok.mp written
  obtain rfl := pure_eq_ok.mp result
  dsimp only [Page.write]
  split
  · unfold Page.freshLine
    split <;> rfl
  · rfl

private theorem writeToken_scopes {rendition : Rendition}
    (written : style.writeToken page token rendition next = .ok after) :
    after.scopes = page.scopes := by
  cases rendition with
  | literal text => exact Except.ok.inj written ▸ rfl
  | token text => exact writeThrough_scopes written
  | plain => exact writeThrough_scopes written

/-- Rendering a token opens and closes the scopes that the token opens and closes. -/
theorem renderToken_scopes {rendition : Rendition}
    (written : style.renderToken page token rendition next = .ok after) :
    after.scopes = rebuild page.scopes [token] := by
  obtain ⟨placed, result, entered⟩ := bind_eq_ok.mp written
  obtain rfl := pure_eq_ok.mp entered
  have same := writeToken_scopes result
  cases stop : token.isStop with
  | true =>
      have start : token.isStart = false := by
        simp only [Token.isStop, beq_iff_eq] at stop
        simp [Token.isStart, stop]
      simp only [Page.leave, stop, ↓reduceIte] at same
      simp only [Page.enter, start, rebuild, stop, same, Bool.false_eq_true, ↓reduceIte]
  | false =>
      simp only [Page.leave, stop, Bool.false_eq_true, ↓reduceIte] at same
      cases start : token.isStart with
      | true => simp only [Page.enter, start, rebuild, same, ↓reduceIte]
      | false =>
          simp only [Page.enter, start, rebuild, stop, same, Bool.false_eq_true, ↓reduceIte]

private theorem rebuild_cons (rest : List Token) :
    rebuild scopes (token :: rest) = rebuild (rebuild scopes [token]) rest := by
  simp only [rebuild]
  split
  · rfl
  · split <;> rfl

/-- The scopes on a page are rebuilt from the tokens written on it, whatever the style. -/
theorem renderOnto_scopes {pairs : List (Token × Rendition)}
    (written : style.renderOnto page pairs = .ok after) :
    after.scopes = rebuild page.scopes (pairs.map Prod.fst) := by
  induction pairs generalizing page with
  | nil => exact Except.ok.inj written ▸ rfl
  | cons pair rest ih =>
      obtain ⟨token, rendition⟩ := pair
      obtain ⟨one, first, others⟩ := bind_eq_ok.mp written
      rw [ih others, renderToken_scopes first, List.map_cons, ← rebuild_cons]

/-- A stream is rendered token by token, and each token sees the next one. -/
theorem renderOnto_plain_cons {rest : List Token}
    (written : style.renderOnto page ((token :: rest).map (·, .plain)) = .ok after) :
    ∃ one, style.renderToken page token .plain rest.head? = .ok one ∧
      style.renderOnto one (rest.map (·, .plain)) = .ok after := by
  obtain ⟨one, first, others⟩ := bind_eq_ok.mp written
  have next : (rest.map fun token => (token, Rendition.plain)).head?.map Prod.fst = rest.head? := by
    cases rest <;> rfl
  rw [next] at first
  exact ⟨one, first, others⟩

private theorem get_total (total : ∀ case, style.templates case ≠ none) (case : RenderCase) :
    ∃ template, style.get case = .ok template := by
  unfold get
  cases found : style.templates case with
  | none => exact (total case found).elim
  | some template => exact ⟨template, rfl⟩

private theorem renderToken_total (total : ∀ case, style.templates case ≠ none)
    (rendition : Rendition) : ∃ after, style.renderToken page token rendition next = .ok after := by
  have written :
      ∃ placed, style.writeToken (page.leave token) token rendition next = .ok placed := by
    cases rendition with
    | literal text => exact ⟨_, rfl⟩
    | token text =>
        obtain ⟨template, found⟩ := get_total total (.of token (page.leave token).scopes.head?)
        exact ⟨_, bind_eq_ok.mpr ⟨template, found, rfl⟩⟩
    | plain =>
        obtain ⟨template, found⟩ := get_total total (.of token (page.leave token).scopes.head?)
        exact ⟨_, bind_eq_ok.mpr ⟨template, found, rfl⟩⟩
  obtain ⟨placed, result⟩ := written
  exact ⟨_, bind_eq_ok.mpr ⟨placed, result, rfl⟩⟩

/-- A style with a template for every case renders every stream. -/
theorem renderOnto_total (total : ∀ case, style.templates case ≠ none)
    (pairs : List (Token × Rendition)) : ∃ after, style.renderOnto page pairs = .ok after := by
  induction pairs generalizing page with
  | nil => exact ⟨page, rfl⟩
  | cons pair rest ih =>
      obtain ⟨token, rendition⟩ := pair
      obtain ⟨one, first⟩ :=
        @renderToken_total style page token (rest.head?.map Prod.fst) total rendition
      obtain ⟨after, others⟩ := @ih one
      exact ⟨after, bind_eq_ok.mpr ⟨one, first, others⟩⟩

end TemplateSet

/-- The kind of scope whose start or stop is rendered in the case. -/
def RenderCase.family : RenderCase → Option ScopeKind
  | .functionStart | .functionStop => some .function
  | .subexpressionStart | .subexpressionStop => some .subexpression
  | .arrayStart | .arrayStop => some .array
  | .arrayRowStart | .arrayRowStop => some .arrayRow
  | _ => none

/-- The start and the stop of every scope are rendered as those of one kind of scope. -/
def Forest.Agrees : Forest → Prop
  | .nil => True
  | .leaf _ rest => rest.Agrees
  | .scope start content stop rest =>
      (∀ around, (RenderCase.of start around).family = (RenderCase.of stop around).family) ∧
        content.Agrees ∧ rest.Agrees

private theorem ScopeKind.Opens.family_start {kind : ScopeKind} {value : List Char}
    (fits : kind.Opens value) (around : Option ScopeKind) :
    (RenderCase.of (kind.startToken value) around).family =
      some (ScopeKind.ofStart (kind.startToken value)) := by
  cases fits with
  | call =>
      change (if value = arrayName then RenderCase.arrayStart else if value = arrayRowName then
        RenderCase.arrayRowStart else RenderCase.functionStart).family = some (if value = arrayName
        then .array else if value = arrayRowName then .arrayRow else .function)
      split
      · rfl
      · split <;> rfl
  | _ => rfl

private theorem ScopeKind.family_stop (kind : ScopeKind) (around : Option ScopeKind) :
    (RenderCase.of kind.stopToken around).family = some kind := by
  cases kind <;> rfl

/-- The starts and stops of a forest are rendered alike exactly if no call in it bears a reserved
name. -/
theorem Forest.Proper.agrees_iff {forest : Forest} (proper : forest.Proper) {more : List Token}
    (tracks : Tracks scopes (forest.tokens ++ more) kinds names last) :
    ∃ later within after, names = within ++ after ∧ Tracks scopes more later after last ∧
      (forest.Agrees ↔ Unreserved within) := by
  induction proper generalizing scopes kinds names more with
  | nil => exact ⟨kinds, [], names, rfl, tracks, by simp [Agrees, Unreserved]⟩
  | leaf start stop _ ih =>
      cases tracks with
      | plain _ _ course => exact ih course
      | opens _ _ =>
          rw [isStart_startToken] at start
          cases start
      | closes _ =>
          rw [isStop_stopToken] at stop
          cases stop
  | @scope start stop content rest bounds _ _ contentIh restIh =>
      rw [Forest.tokens, List.cons_append, List.append_assoc] at tracks
      cases tracks with
      | plain plain _ _ =>
          rw [bounds.opens] at plain
          cases plain
      | closes _ =>
          have opens := bounds.opens
          rw [isStart_stopToken] at opens
          cases opens
      | @opens _ _ _ _ kind value _ fits course =>
          obtain ⟨_, within, _, rfl, contentCourse, contentAgrees⟩ := contentIh course
          rw [List.cons_append] at contentCourse
          cases contentCourse with
          | plain _ plain _ =>
              rw [bounds.closes] at plain
              cases plain
          | opens _ _ =>
              have closes := bounds.closes
              rw [isStop_startToken] at closes
              cases closes
          | closes course =>
              obtain ⟨later, further, after, rfl, restCourse, restAgrees⟩ := restIh course
              refine ⟨later, kind.calls value ++ (within ++ further), after, ?_, restCourse, ?_⟩
              · simp only [List.append_assoc]
              · simp only [Agrees, contentAgrees, restAgrees, unreserved_append,
                  ← fits.ofStart_eq_iff, fits.family_start, ScopeKind.family_stop,
                  Option.some.injEq, forall_const]

private theorem bare_resolveToken {previous : Option Token} {token : Token}
    (start : token.isStart = false) (stop : token.isStop = false) :
    (resolveToken convention previous token).isStart = false ∧
      (resolveToken convention previous token).isStop = false := by
  unfold resolveToken
  split
  · split
    · split
      · exact ⟨start, stop⟩
      · exact ⟨start, stop⟩
    · split
      · exact ⟨rfl, rfl⟩
      · exact ⟨start, stop⟩
  · split
    · rcases classify_cases convention token.value with sort | sort | sort <;> rw [sort] <;>
        exact ⟨rfl, rfl⟩
    · exact ⟨start, stop⟩

namespace Tracks

private theorem resolveBlanks (tracks : Tracks scopes tokens kinds names last)
    (previous : Option Token) :
    Tracks scopes (SheetFormula.resolveBlanks previous tokens) kinds names last := by
  induction tracks generalizing previous with
  | done => exact .done
  | plain start stop _ ih =>
      rw [SheetFormula.resolveBlanks]
      split
      · split
        · exact .plain rfl rfl (ih _)
        · exact ih _
      · exact .plain start stop (ih _)
  | @opens _ _ _ _ kind _ _ fits _ ih =>
      rw [resolveBlanks_cons (by cases kind <;> simp [ScopeKind.startToken, ScopeKind.tokenKind])]
      exact .opens fits (ih _)
  | @closes _ _ _ _ kind _ _ ih =>
      rw [resolveBlanks_cons kind.stopToken_not_blank]
      exact .closes (ih _)

private theorem resolveTokens (tracks : Tracks scopes tokens kinds names last)
    (previous : Option Token) :
    Tracks scopes (SheetFormula.resolveTokens convention previous tokens) kinds names last := by
  induction tracks generalizing previous with
  | done => exact .done
  | plain start stop _ ih =>
      obtain ⟨start, stop⟩ := @bare_resolveToken convention previous _ start stop
      exact .plain start stop (ih _)
  | @opens _ _ _ _ kind _ _ fits _ ih =>
      have same (value : List Char) : resolveToken convention previous (kind.startToken value) =
          kind.startToken value := by cases kind <;> rfl
      rw [SheetFormula.resolveTokens, same]
      exact .opens fits (ih _)
  | @closes _ _ _ _ kind _ _ ih =>
      have same : resolveToken convention previous kind.stopToken = kind.stopToken := by
        cases kind <;> rfl
      rw [SheetFormula.resolveTokens, same]
      exact .closes (ih _)

private theorem filter_discarded (tracks : Tracks scopes tokens kinds names last) :
    Tracks scopes (tokens.filter fun token => token.kind != .discarded) kinds names last := by
  induction tracks with
  | done => exact .done
  | plain start stop _ ih =>
      rw [List.filter_cons]
      split
      · exact .plain start stop ih
      · exact ih
  | @opens _ _ _ _ kind _ _ fits _ ih =>
      rw [List.filter_cons_of_pos (by cases kind <;> rfl)]
      exact .opens fits ih
  | @closes _ _ _ _ kind _ _ ih =>
      rw [List.filter_cons_of_pos (by cases kind <;> rfl)]
      exact .closes ih

private theorem replay_append (tracks : Tracks scopes tokens kinds names last) (more : List Token)
    (further : List ScopeKind) :
    replay (kinds ++ further) scopes (tokens ++ more) = replay further last more := by
  induction tracks with
  | done => rfl
  | plain start stop _ ih =>
      simpa only [List.cons_append, replay, start, stop, Bool.false_eq_true, ↓reduceIte] using ih
  | opens fits _ ih =>
      simpa only [List.cons_append, replay, isStart_startToken, ↓reduceIte, List.tail_cons,
        List.head?_cons, Option.toList_some, List.nil_append] using ih
  | closes _ ih =>
      simpa only [List.cons_append, replay, isStart_stopToken, isStop_stopToken, List.tail_cons,
        Bool.false_eq_true, ↓reduceIte] using ih

end Tracks

/-- The tokens of a formula open the scopes that the scanner opened and call the names that it
called. -/
theorem tracks_of_tokenize {formula : List Char} (read : tokenize convention formula = .ok tokens) :
    Tracks [] tokens (openedKinds convention formula) (calledNames convention formula) [] := by
  obtain ⟨scanner, scanned, rfl⟩ := tokenize_eq_ok.mp read
  have started : (Scanner.start formula).Sound convention fun _ => True :=
    Scanner.sound_start formula
  obtain ⟨added, grown, tracks⟩ := started.tracks_run nofun scanned
  have bare : ∀ token ∈ scanner.leftover, token.isStart = false ∧ token.isStop = false := by
    intro token member
    cases (started.run (fun _ _ => trivial) scanned).leftover_raw token member <;> exact ⟨rfl, rfl⟩
  have ended := tracks.append ((Tracks.of_bare bare).append (.of_stops scanner.kinds))
  rw [List.append_nil, List.append_nil, List.append_nil, List.append_nil,
    ← List.append_assoc] at ended
  have raw : scanner.finish.toList = added ++ scanner.leftover ++
      scanner.kinds.map ScopeKind.stopToken := by
    rw [Scanner.finish_toList, grown]
    rfl
  rw [finishStream, raw]
  exact ((ended.resolveBlanks none).resolveTokens none).filter_discarded

/-- The scopes replayed over the tokens that the scanner has emitted are those that it has open. -/
theorem replay_emitted {formula first second : List Char} {scanner : Scanner}
    (split : formulaBody formula = first ++ second)
    (reached : (Scanner.start formula).run convention first = .ok scanner) :
    replay (openedKinds convention formula) [] scanner.emitted.toList = scanner.kinds := by
  have started : (Scanner.start formula).Sound convention fun _ => True :=
    Scanner.sound_start formula
  obtain ⟨added, grown, tracks⟩ := started.tracks_run nofun reached
  have replayed := tracks.replay_append [] (scanner.openedKinds convention second)
  rw [openedKinds, split, Scanner.openedKinds_append second reached, grown]
  rwa [List.append_nil] at replayed

/-- What holds of the page in every style is a matter of the tokens alone. -/
theorem forall_page_scopes_iff {scopesOf : List Token → List ScopeKind} :
    (∀ (style : TemplateSet) (pairs : List (Token × Rendition)) (page : Page),
        pairs.map Prod.fst <+: tokens → style.renderOnto {} pairs = .ok page →
          page.scopes = scopesOf (pairs.map Prod.fst)) ↔
      ∀ before, before <+: tokens → rebuild [] before = scopesOf before := by
  constructor
  · intro same before inside
    obtain ⟨page, written⟩ := @TemplateSet.renderOnto_total .minify {} (fun _ => nofun)
      (before.map fun token => (token, .plain))
    have fst : (before.map fun token => (token, Rendition.plain)).map Prod.fst = before := by
      rw [List.map_map]
      exact List.map_id before
    have agree := same _ _ page (fst.symm ▸ inside) written
    rw [TemplateSet.renderOnto_scopes written, fst] at agree
    exact agree
  · intro same style pairs page inside written
    rw [TemplateSet.renderOnto_scopes written]
    exact same _ inside

/-- The nesting of a formula agrees with its rendering unless a reserved name is called. -/
theorem agrees_iff_of_tokenize {formula : List Char}
    (read : tokenize convention formula = .ok tokens) {forest : Forest} (proper : forest.Proper)
    (whole : forest.tokens = tokens) :
    forest.Agrees ↔ Unreserved (calledNames convention formula) := by
  have tracks := tracks_of_tokenize read
  rw [← whole, ← List.append_nil forest.tokens] at tracks
  obtain ⟨_, within, after, names, rest, iff⟩ := proper.agrees_iff tracks
  cases rest
  rw [names, List.append_nil]
  exact iff

/-- At every place of a stream the scopes on the page are those that the scanner had open, in any
style and with any renditions, exactly if the formula calls neither of the two names that stand for
arrays and their rows; and so it is for starts and stops to be rendered alike.  The scopes of the
scanner are replayed from the kinds that it opened, which gives its own stack wherever it stands. -/
theorem page_scopes_iff {formula : List Char} (read : tokenize convention formula = .ok tokens) :
    ((∀ (style : TemplateSet) (pairs : List (Token × Rendition)) (page : Page),
        pairs.map Prod.fst <+: tokens → style.renderOnto {} pairs = .ok page →
          page.scopes = replay (openedKinds convention formula) [] (pairs.map Prod.fst)) ↔
      Unreserved (calledNames convention formula)) ∧
    ((∀ forest : Forest, forest.Proper → forest.tokens = tokens → forest.Agrees) ↔
      Unreserved (calledNames convention formula)) ∧
    ∀ (first second : List Char) (scanner : Scanner), formulaBody formula = first ++ second →
      (Scanner.start formula).run convention first = .ok scanner →
        replay (openedKinds convention formula) [] scanner.emitted.toList = scanner.kinds := by
  refine ⟨?_, ?_, fun _ _ _ => replay_emitted⟩
  · rw [forall_page_scopes_iff]
    exact (tracks_of_tokenize read).rebuild_eq_iff
  · constructor
    · intro all
      obtain ⟨forest, proper, whole⟩ :=
        (leads_of_tokenize read).closes rfl (fun _ finished => finished.bare) .empty
      exact (agrees_iff_of_tokenize read proper whole.symm).mp (all forest proper whole.symm)
    · intro unreserved forest proper whole
      exact (agrees_iff_of_tokenize read proper whole).mpr unreserved

/-- A call within an array within a call, under other names than the two reserved ones. -/
theorem page_scopes_nested_calls :
    ∃ tokens, tokenize .us "=ARRAYS(\x7bF(1);2\x7d,(3".toList = .ok tokens ∧
      Unreserved (calledNames .us "=ARRAYS(\x7bF(1);2\x7d,(3".toList) ∧
      ∀ (style : TemplateSet) (pairs : List (Token × Rendition)) (page : Page),
        pairs.map Prod.fst <+: tokens → style.renderOnto {} pairs = .ok page →
          page.scopes = replay (openedKinds .us "=ARRAYS(\x7bF(1);2\x7d,(3".toList) []
            (pairs.map Prod.fst) := by
  have read : tokenize .us "=ARRAYS(\x7bF(1);2\x7d,(3".toList = .ok
      [ScopeKind.function.startToken "ARRAYS".toList, ScopeKind.array.startToken arrayName,
        ScopeKind.arrayRow.startToken arrayRowName, ScopeKind.function.startToken ['F'],
        ⟨['1'], .operand, some .number⟩, ScopeKind.function.stopToken,
        ScopeKind.arrayRow.stopToken, argumentToken ';',
        ScopeKind.arrayRow.startToken arrayRowName, ⟨['2'], .operand, some .number⟩,
        ScopeKind.arrayRow.stopToken, ScopeKind.array.stopToken, argumentToken ',',
        ScopeKind.subexpression.startToken [], ⟨['3'], .operand, some .number⟩,
        ScopeKind.subexpression.stopToken, ScopeKind.function.stopToken] := by
    rfl
  have unreserved : Unreserved (calledNames .us "=ARRAYS(\x7bF(1);2\x7d,(3".toList) := by
    decide +kernel
  exact ⟨_, read, unreserved, (page_scopes_iff read).1.mpr unreserved⟩

/-- A call of the name that stands for an array is an array to the page, which writes a brace and
closes it with a parenthesis. -/
theorem page_scopes_array_call :
    ∃ tokens page, tokenize .us "=ARRAY(1)".toList = .ok tokens ∧
      TemplateSet.minify.renderOnto {} ((tokens.take 1).map fun token => (token, .plain)) =
        .ok page ∧
      page.scopes ≠ replay (openedKinds .us "=ARRAY(1)".toList) [] (tokens.take 1) ∧
      minify .us "=ARRAY(1)".toList = .ok "=\x7b1)".toList := by
  refine ⟨[ScopeKind.function.startToken arrayName, ⟨['1'], .operand, some .number⟩,
    ScopeKind.function.stopToken], _, rfl, rfl, ?_, rfl⟩
  decide +kernel

end SheetFormula
