import SheetFormula.Proofs.Scanner.Bracket
import SheetFormula.Proofs.Scanner.Refusal

/-!
# Outlines

The scanner refuses a formula where a bracket is closed that is not the innermost one, and leaves
the marks of its brackets and separators otherwise (`follow_of_scan`, `follow_of_error`).  Each
character does to the scopes of the scanner what it does to the brackets (`Scanner.step_outlines`,
`Scanner.step_refused`).
-/

namespace SheetFormula

namespace Bracket

/-- The bracket of a scope.  A row of an array has that of the array around it. -/
def ofKind? : ScopeKind → Option Bracket
  | .function | .subexpression => some round
  | .arrayRow => some curly
  | .array => none

/-- The brackets of open scopes. -/
def ofKinds (scopes : List ScopeKind) : List Bracket :=
  scopes.filterMap ofKind?

private theorem closers_ofKinds {scopes : List ScopeKind} (stacked : Stacked scopes) :
    marks (scopes.map ScopeKind.stopToken) = closers (ofKinds scopes) := by
  induction stacked with
  | empty => rfl
  | call _ ih => exact congrArg (Mark.closes :: ·) ih
  | group _ ih => exact congrArg (Mark.closes :: ·) ih
  | row _ ih => exact congrArg (Mark.closes :: Mark.closes :: ·) ih

/-- The innermost bracket is a brace exactly in a row of an array. -/
theorem ofKinds_head? {scopes : List ScopeKind} (stacked : Stacked scopes) :
    (ofKinds scopes).head? = some .curly ↔ scopes.head? = some .arrayRow := by
  cases stacked with
  | empty => simp [ofKinds]
  | call _ => simp [ofKinds, ofKind?]
  | group _ => simp [ofKinds, ofKind?]
  | row _ => simp [ofKinds, ofKind?]

/-- No bracket is open exactly if no scope is. -/
theorem ofKinds_eq_nil {scopes : List ScopeKind} (stacked : Stacked scopes) :
    ofKinds scopes = [] ↔ scopes = [] := by
  cases stacked with
  | empty => simp [ofKinds]
  | call _ => simp [ofKinds, ofKind?]
  | group _ => simp [ofKinds, ofKind?]
  | row _ => simp [ofKinds, ofKind?]

end Bracket

private theorem Gathers.ne_semicolon {convention : Convention} {pending : List Char}
    {reading : Reading} (gathered : Gathers convention pending reading) : pending ≠ [';'] := by
  rintro rfl
  rcases gathered.first_character ';' rfl with ordinary | quote | bracket
  · exact ordinary.not_mark (by decide)
  · cases quote
  · cases bracket

namespace Scanner

variable {convention : Convention} {scanner next : Scanner} {c : Char}

/-- The brackets that the scanner has open. -/
def brackets (scanner : Scanner) : List Bracket :=
  Bracket.ofKinds scanner.kinds

/-- The marks that the scanner has left. -/
def marks (scanner : Scanner) : List Mark :=
  SheetFormula.marks scanner.emitted.toList

/-- Reading the character does to the scanner what it does between the open brackets. -/
def Outlines (convention : Convention) (scanner : Scanner) (c : Char) (next : Scanner) : Prop :=
  ∃ left, Bracket.meet convention scanner.brackets c = some (left, next.brackets) ∧
    next.marks = scanner.marks ++ left

private theorem marks_emit (token : Token) :
    (scanner.emit token).marks = scanner.marks ++ token.mark?.toList := by
  simp only [marks, emit, Array.toList_push, marks_append, marks_cons]
  simp [SheetFormula.marks]

private theorem marks_openScope (kind : ScopeKind) (value : List Char) :
    (scanner.openScope kind value).marks = scanner.marks ++ [.opens] :=
  marks_emit (kind.startToken value)

private theorem marks_flush {kind : TokenKind} (word : scanner.pending ≠ [';'])
    (sort : kind = .operand ∨ kind = .unknown) :
    (scanner.flush kind).marks = scanner.marks := by
  rw [marks, flush_emitted, marks_append]
  unfold pendingTokens
  split
  · exact List.append_nil _
  · have unmarked : Token.mark? ⟨scanner.pending.reverse, kind, none⟩ = none := by
      have other : scanner.pending.reverse ≠ [';'] := by simpa using word
      rcases sort with rfl | rfl <;> simp [Token.mark?, Token.isStart, Token.isStop,
        Token.isArgument, Token.isUnion, other]
    rw [marks_cons, unmarked]
    exact List.append_nil _

private theorem marks_closeScope {found : Char} {expected : List ScopeKind}
    (closed : scanner.closeScope found expected = .ok next) :
    ∃ kind ∈ expected, scanner.kinds = kind :: next.kinds ∧
      next.marks = scanner.marks ++ [.closes] := by
  obtain ⟨scope, outer, scopes, member, rfl⟩ := closeScope_eq_ok.mp closed
  refine ⟨scope.kind, member, ?_, ?_⟩
  · rw [kinds, scopes]
    rfl
  · rw [marks, Array.toList_push, marks_append]
    rfl

private theorem outlines_plain (plain : c ∉ ['(', ')', '\x7b', '\x7d', ';'])
    (other : c ≠ convention.separator) (same : next.brackets = scanner.brackets)
    (kept : next.marks = scanner.marks) : scanner.Outlines convention c next := by
  simp only [List.mem_cons, List.not_mem_nil, or_false, not_or] at plain
  refine ⟨[], ?_, by rw [kept, List.append_nil]⟩
  rw [same]
  simp [Bracket.meet, Delimiter.of?, plain, other]

private theorem outlines_mark (plain : c ∉ delimiters)
    (same : next.brackets = scanner.brackets) (kept : next.marks = scanner.marks) :
    scanner.Outlines convention c next := by
  have listed : ∀ d ∈ ['(', ')', '\x7b', '\x7d', ';'], d ∈ delimiters := by simp [delimiters]
  refine outlines_plain (fun member => plain (listed c member)) ?_ same kept
  rintro rfl
  cases convention <;> exact plain (by decide)

private theorem separate_outlines (separator : c = convention.separator) :
    scanner.Outlines convention c (scanner.separate c) := by
  refine ⟨[.separates], ?_, ?_⟩
  · subst separator
    have same : (scanner.separate convention.separator).brackets = scanner.brackets := by
      unfold separate
      split <;> rfl
    rw [same]
    cases convention <;> rfl
  · unfold separate
    split <;> exact marks_emit _

private theorem openParenthesis_outlines :
    scanner.Outlines convention '(' scanner.openParenthesis := by
  unfold openParenthesis
  split
  · exact ⟨[.opens], rfl, marks_openScope _ _⟩
  · exact ⟨[.opens], rfl, marks_openScope _ _⟩

/-- A semicolon that ends a row of an array counts as a separator, and anywhere else as nothing. -/
private theorem nextRow_outlines (stacked : Stacked scanner.kinds)
    (result : scanner.nextRow = .ok next) : scanner.Outlines .us ';' next := by
  have innermost : scanner.scopes.innermost? = scanner.kinds.head? := by
    unfold kinds
    cases scanner.scopes <;> rfl
  unfold nextRow at result
  rw [innermost] at result
  unfold Outlines brackets
  by_cases inRow : scanner.kinds.head? = some .arrayRow
  · rw [if_pos inRow] at result
    obtain ⟨closed, closing, opened⟩ := bind_eq_ok.mp result
    obtain rfl := pure_eq_ok.mp opened
    obtain ⟨kind, isRow, kinds, left⟩ := marks_closeScope closing
    rw [List.mem_singleton] at isRow
    -- Below the row that is closed stands its array, which takes the next row.
    rw [kinds, isRow] at stacked
    obtain ⟨under, array⟩ := stacked.under_row
    have reopened : ((closed.emit { value := [';'], kind := .argument }).openScope .arrayRow
        arrayRowName).kinds = .arrayRow :: .array :: under := congrArg (_ :: ·) array
    refine ⟨[.closes, .separates, .opens], ?_, ?_⟩
    · rw [kinds, isRow, array, reopened]
      rfl
    · rw [marks_openScope, marks_emit, left, List.append_assoc, List.append_assoc]
      rfl
  · rw [if_neg inRow] at result
    obtain rfl := Except.ok.inj result
    refine ⟨[.stray], ?_, marks_emit _⟩
    change Bracket.meet .us (Bracket.ofKinds scanner.kinds) ';' =
      some ([.stray], Bracket.ofKinds scanner.kinds)
    generalize scanner.kinds = scopes at stacked inRow ⊢
    cases stacked with
    | empty => rfl
    | call _ => rfl
    | group _ => rfl
    | row _ => exact (inRow rfl).elim

/-- Each way to read a character on its own does to the scopes what the character does to the
brackets. -/
private theorem Turns.outlines (turn : scanner.Turns convention c next)
    (stacked : Stacked scanner.kinds) (word : scanner.pending ≠ [';']) :
    scanner.Outlines convention c next := by
  -- Pending characters are emitted first, and as a word or an unknown token they leave no mark.
  have operand := marks_flush word (.inl rfl)
  have unknown := marks_flush word (.inr rfl)
  have flushed (kind : TokenKind) : (scanner.flush kind).brackets = scanner.brackets := by
    rw [brackets, flush_kinds, brackets]
  have after {middle : Scanner} (same : middle.brackets = scanner.brackets)
      (kept : middle.marks = scanner.marks) (outlines : middle.Outlines convention c next) :
      scanner.Outlines convention c next := by
    obtain ⟨left, met, added⟩ := outlines
    exact ⟨left, same ▸ met, kept ▸ added⟩
  cases turn with
  | exponent sign _ =>
      rcases sign with rfl | rfl
      · exact outlines_mark (by decide) rfl rfl
      · exact outlines_mark (by decide) rfl rfl
  | text quote =>
      subst quote
      exact outlines_mark (by decide) (flushed _) unknown
  | path quote =>
      subst quote
      exact outlines_mark (by decide) (flushed _) unknown
  | bracket opening =>
      subst opening
      exact outlines_mark (by decide) rfl rfl
  | errorCode number =>
      subst number
      exact outlines_mark (by decide) (flushed _) unknown
  | array opening =>
      subst opening
      refine after (flushed _) unknown ⟨[.opens, .opens], rfl, ?_⟩
      rw [marks_openScope, marks_openScope, List.append_assoc]
      rfl
  | arrayEnd closing closedRow closedArray =>
      subst closing
      obtain ⟨_, isRow, rowKinds, rowMarks⟩ := marks_closeScope closedRow
      obtain ⟨_, isArray, arrayKinds, arrayMarks⟩ := marks_closeScope closedArray
      rw [List.mem_singleton] at isRow isArray
      refine after (flushed _) operand ⟨[.closes, .closes], ?_, ?_⟩
      · rw [brackets, rowKinds, arrayKinds, isRow, isArray]
        rfl
      · rw [arrayMarks, rowMarks, List.append_assoc]
        rfl
  | blank blank =>
      have plain : c ∉ delimiters :=
        fun member => Literal.plain_of_isBlank blank (List.mem_append_right _ member)
      refine outlines_mark plain (flushed _) ?_
      exact (marks_emit _).trans ((List.append_nil _).trans operand)
  | comparison sign =>
      rcases sign with rfl | rfl
      · exact outlines_mark (by decide) (flushed _) operand
      · exact outlines_mark (by decide) (flushed _) operand
  | operator sign _ =>
      have plain : ∀ d ∈ infixCharacters, d ∉ delimiters := by
        simp [infixCharacters, delimiters]
      refine outlines_mark (plain c sign) (flushed _) ?_
      rw [marks_emit]
      exact (List.append_nil _).trans operand
  | percent sign =>
      subst sign
      refine outlines_mark (by decide) (flushed _) ?_
      rw [marks_emit]
      exact (List.append_nil _).trans operand
  | opened opening =>
      subst opening
      exact openParenthesis_outlines
  | closed closing closed =>
      subst closing
      obtain ⟨kind, isRound, kinds, left⟩ := marks_closeScope closed
      refine after (flushed _) operand ⟨[.closes], ?_, left⟩
      simp only [List.mem_cons, List.not_mem_nil, or_false] at isRound
      rw [brackets, kinds]
      rcases isRound with rfl | rfl <;> rfl
  | separator isSeparator => exact after (flushed _) operand (separate_outlines isSeparator)
  | row semicolon us result =>
      subst semicolon us
      exact after (flushed _) operand
        (nextRow_outlines (by rwa [flush_kinds]) result)
  | ordinary ordinary =>
      have marks : ∀ d ∈ ['(', ')', '\x7b', '\x7d', ';'], d ∈ markCharacters := by
        simp [markCharacters]
      exact outlines_plain (fun member => ordinary.not_mark (marks c member)) ordinary.2.2 rfl rfl

/-- Going on with what the scanner is reading leaves no marks. -/
theorem Continues.marks_eq (continues : scanner.Continues c next) :
    next.brackets = scanner.brackets ∧ next.marks = scanner.marks := by
  cases continues with
  | comparison _ _ => exact ⟨rfl, (marks_emit _).trans (List.append_nil _)⟩
  | errorCodeEnd _ _ => exact ⟨rfl, (marks_emit _).trans (List.append_nil _)⟩
  | _ => exact ⟨rfl, rfl⟩

private theorem Continues.plain (continues : scanner.Continues c next)
    (outside : scanner.literal = .outside) : c ∉ delimiters := by
  cases continues with
  | blank _ blank =>
      exact fun member => Literal.plain_of_isBlank blank (List.mem_append_right _ member)
  | comparison _ pair =>
      simp only [isComparisonPair, Bool.or_eq_true, Bool.and_eq_true, beq_iff_eq] at pair
      rcases pair with ⟨_, rfl | rfl⟩ | ⟨_, rfl⟩ <;> decide
  | doubledQuote _ quote =>
      subst quote
      decide
  | doubledPathQuote _ quote =>
      subst quote
      decide
  | text reading _ | quote reading _ | path reading _ | pathEnd reading _ | bracket reading _
  | bracketEnd reading _ | errorCode reading _ | errorCodeEnd reading _ =>
      rw [Scanner.literal, reading] at outside
      cases outside

private theorem resume_marks :
    scanner.resume.brackets = scanner.brackets ∧ scanner.resume.marks = scanner.marks := by
  unfold resume
  cases scanner.reading with
  | textQuote => exact ⟨rfl, (marks_emit _).trans (List.append_nil _)⟩
  | comparison first => exact ⟨rfl, (marks_emit _).trans (List.append_nil _)⟩
  | _ => exact ⟨rfl, rfl⟩

/-- Behind a closing parenthesis outside of literals, the stream ends with a stop. -/
theorem finish_parenthesis (outside : scanner.literal = .outside)
    (result : scanner.step convention ')' = .ok next) :
    ∃ front kind, next.finish.toList = front ++ [ScopeKind.stopToken kind] := by
  obtain ⟨scanned, read, rfl⟩ := step_eq_ok.mp result
  rw [finish_toList]
  change ∃ front kind,
    scanned.emitted.toList ++ scanned.leftover ++ scanned.kinds.map _ = front ++ [_]
  rcases read_cases read with continues | ⟨_, alone⟩
  · exact (continues.plain outside (by decide)).elim
  · have closed : (scanner.resume.flush .operand).closeScope ')' [.function, .subexpression] =
        .ok scanned := by cases convention <;> exact alone
    obtain ⟨scope, outer, _, _, rfl⟩ := closeScope_eq_ok.mp closed
    have reading : (scanner.resume.flush .operand).reading = .formula := by
      rw [flush_reading, resume_reading]
    have nothing (emitted : Array Token) :
        leftover { scanner.resume.flush .operand with scopes := outer, emitted } = [] := by
      simp only [leftover, reading]
      exact pendingTokens_of_empty (flush_pending _)
    rw [nothing, List.append_nil, Array.toList_push]
    rcases List.eq_nil_or_concat (kinds _) with none | ⟨inner, outermost, split⟩
    · rw [none]
      exact ⟨_, scope.kind, List.append_nil _⟩
    · rw [split, List.concat_eq_append, List.map_append, ← List.append_assoc]
      exact ⟨_, outermost, rfl⟩

/-- What one character does to the open brackets. -/
theorem step_outlines (sound : scanner.Sound convention fun _ => True)
    (result : scanner.step convention c = .ok next) :
    ∃ left, Bracket.meetIn convention scanner.literal scanner.brackets c =
        some (left, next.brackets) ∧ next.marks = scanner.marks ++ left := by
  obtain ⟨scanned, read, rfl⟩ := step_eq_ok.mp result
  change ∃ left, _ = some (left, scanned.brackets) ∧ scanned.marks = _
  rw [Bracket.meetIn]
  rcases read_cases read with continues | ⟨resumes, alone⟩
  · obtain ⟨same, kept⟩ := continues.marks_eq
    by_cases outside : scanner.literal = .outside
    · rw [if_pos outside]
      exact outlines_mark (continues.plain outside) same kept
    · rw [if_neg outside]
      exact ⟨[], by rw [same], by rw [kept, List.append_nil]⟩
  · obtain ⟨same, kept⟩ := @resume_marks scanner
    have ready := sound.ready resumes fun _ _ => trivial
    obtain ⟨_, _, gathered⟩ := ready.gathered
    rw [if_pos resumes.literal.1, ← same, ← kept]
    exact (turns_of_readFormula alone).outlines (ready.stream.leads.stacked .empty)
      gathered.ne_semicolon

/-- A scope that cannot be closed is of another kind than those expected. -/
theorem head_of_closeScope_error {found : Char} {expected : List ScopeKind} {error : FormulaError}
    (refused : scanner.closeScope found expected = .error error) :
    ∀ kind ∈ scanner.kinds.head?, kind ∉ expected := by
  unfold closeScope at refused
  unfold kinds
  cases scopes : scanner.scopes with
  | nil => simp
  | cons scope outer =>
      intro kind member inside
      obtain rfl : scope.kind = kind := Option.some.inj member
      rw [scopes] at refused
      simp [inside] at refused

/-- A row stands in an array, so the array can be closed once the row has been. -/
theorem exists_closeArray {found : Char} {row : Scanner} (stacked : Stacked scanner.kinds)
    (closed : scanner.closeScope found [.arrayRow] = .ok row) :
    ∃ after, row.closeScope found [.array] = .ok after := by
  obtain ⟨scope, outer, scopes, isRow, rfl⟩ := closeScope_eq_ok.mp closed
  rw [kinds, scopes, List.map_cons, List.mem_singleton.mp isRow] at stacked
  obtain ⟨under, isArray⟩ := stacked.under_row
  obtain ⟨array, rest, rfl, kind, _⟩ := List.map_eq_cons_iff.mp isArray
  exact ⟨_, closeScope_eq_ok.mpr ⟨array, rest, rfl, List.mem_singleton.mpr kind, rfl⟩⟩

/-- A closing character is refused between brackets that it does not close. -/
theorem meet_of_error {error : FormulaError} (stacked : Stacked scanner.kinds)
    (refused : scanner.readFormula convention c = .error error) :
    Bracket.meet convention scanner.brackets c = none := by
  obtain ⟨rfl | rfl, _⟩ := readFormula_eq_error refused
  · have other := head_of_closeScope_error
      (show (scanner.flush .operand).closeScope ')' [.function, .subexpression] = .error error from
        refused)
    rw [flush_kinds] at other
    unfold brackets
    generalize scanner.kinds = scopes at stacked other ⊢
    cases stacked with
    | empty => rfl
    | call _ => exact (other _ rfl (by decide)).elim
    | group _ => exact (other _ rfl (by decide)).elim
    | row _ => rfl
  · rcases bind_eq_error.mp (show ((scanner.flush .operand).closeScope '\x7d' [.arrayRow] >>=
        fun row => row.closeScope '\x7d' [.array]) = .error error from refused) with
      unclosed | ⟨row, closed, unclosed⟩
    · have other := head_of_closeScope_error unclosed
      rw [flush_kinds] at other
      unfold brackets
      generalize scanner.kinds = scopes at stacked other ⊢
      cases stacked with
      | empty => rfl
      | call _ => rfl
      | group _ => rfl
      | row _ => exact (other _ rfl (by decide)).elim
    · obtain ⟨after, closedArray⟩ := exists_closeArray (by rwa [flush_kinds]) closed
      rw [closedArray] at unclosed
      cases unclosed

private theorem step_refused {error : FormulaError} (sound : scanner.Sound convention fun _ => True)
    (refused : scanner.step convention c = .error error) :
    Bracket.meetIn convention scanner.literal scanner.brackets c = none := by
  rcases bind_eq_error.mp refused with unread | ⟨_, _, moved⟩
  · obtain ⟨resumes, alone⟩ := read_eq_error unread
    have ready := sound.ready resumes fun _ _ => trivial
    rw [Bracket.meetIn, if_pos resumes.literal.1, ← (@resume_marks scanner).1]
    exact meet_of_error (ready.stream.leads.stacked .empty) alone
  · cases moved

/-- A text leaves the marks that are read off it. -/
theorem run_follow {text : List Char} (sound : scanner.Sound convention fun _ => True)
    (result : scanner.run convention text = .ok next) :
    ∃ left, Bracket.follow convention scanner.literal scanner.brackets text =
        some (left, next.brackets) ∧ next.marks = scanner.marks ++ left := by
  induction text generalizing scanner with
  | nil =>
      obtain rfl := Except.ok.inj result
      exact ⟨[], rfl, (List.append_nil _).symm⟩
  | cons c rest ih =>
      obtain ⟨one, first, others⟩ := run_cons_eq_ok.mp result
      obtain ⟨left, met, added⟩ := step_outlines sound first
      obtain ⟨more, followed, last⟩ := ih (sound.step (fun _ _ => trivial) first) others
      refine ⟨left ++ more, ?_, by rw [last, added, List.append_assoc]⟩
      rw [(step_literal first).1] at followed
      rw [Bracket.follow, met, Option.bind_some, followed]
      rfl

/-- Where the scanner stops at a character, the brackets of the text do not match either. -/
theorem follow_of_refused {text : List Char} {error : FormulaError}
    (sound : scanner.Sound convention fun _ => True)
    (refused : scanner.run convention text = .error error) :
    Bracket.follow convention scanner.literal scanner.brackets text = none := by
  induction text generalizing scanner with
  | nil => cases refused
  | cons c rest ih =>
      rw [run_cons] at refused
      rw [Bracket.follow]
      rcases bind_eq_error.mp refused with first | ⟨one, first, others⟩
      · rw [step_refused sound first]
        rfl
      · obtain ⟨left, met, _⟩ := step_outlines sound first
        have followed := ih (sound.step (fun _ _ => trivial) first) others
        rw [(step_literal first).1] at followed
        rw [met, Option.bind_some, followed]
        rfl

/-- The invariant of scanning holds of every state that a formula leads to. -/
theorem sound_of_run {formula text : List Char}
    (result : (start formula).run convention text = .ok scanner) :
    scanner.Sound convention fun _ => True :=
  (sound_start formula).run (fun _ _ => trivial) result

end Scanner

variable {convention : Convention} {formula : List Char} {tokens : List Token}

/-- The marks of a formula that can be read, and the brackets that it leaves open. -/
theorem follow_of_scan {scanner : Scanner}
    (scanned : scanFormula convention formula = .ok scanner) :
    ∃ left, Bracket.follow convention .outside [] (formulaBody formula) =
        some (left, scanner.brackets) ∧
      marks (finishStream convention scanner.finish.toList) =
        left ++ Bracket.closers scanner.brackets := by
  have sound := Scanner.sound_of_run scanned
  have course := (sound.finish_stream (sound.stream.mono fun _ raw => raw.weaken)
    sound.leftover_raw).leads
  obtain ⟨left, followed, added⟩ := Scanner.run_follow (Scanner.sound_start formula) scanned
  refine ⟨left, followed, ?_⟩
  have unmarked : marks scanner.leftover = [] := by
    have word : marks (scanner.pendingTokens .operand) = [] := by
      unfold Scanner.pendingTokens
      split <;> rfl
    unfold Scanner.leftover
    cases scanner.reading with
    | text | textQuote | errorCode => rfl
    | comparison first => rfl
    | _ => exact word
  rw [course.marks_finishStream, Scanner.finish_toList, marks_append, marks_append, unmarked,
    List.append_nil, Bracket.closers_ofKinds (sound.stream.leads.stacked .empty)]
  exact congrArg (· ++ _) added

/-- The brackets of a formula that cannot be read do not match. -/
theorem follow_of_error {error : FormulaError}
    (refused : tokenize convention formula = .error error) :
    Bracket.follow convention .outside [] (formulaBody formula) = none :=
  Scanner.follow_of_refused (Scanner.sound_start formula) (tokenize_eq_error.mp refused)

/-- A formula can be read exactly if its brackets can be followed. -/
theorem readable_iff {formula : List Char} :
    (∃ tokens, tokenize convention formula = .ok tokens) ↔
      (Bracket.follow convention .outside [] (formulaBody formula)).isSome = true := by
  constructor
  · rintro ⟨tokens, read⟩
    obtain ⟨scanner, scanned, _⟩ := tokenize_eq_ok.mp read
    obtain ⟨left, followed, _⟩ := follow_of_scan scanned
    rw [followed]
    rfl
  · intro followed
    cases read : tokenize convention formula with
    | ok tokens => exact ⟨tokens, rfl⟩
    | error error =>
        rw [follow_of_error read] at followed
        cases followed

end SheetFormula
