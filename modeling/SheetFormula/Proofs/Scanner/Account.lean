import SheetFormula.Proofs.Scanner.Opened
import SheetFormula.Proofs.Scanner.Written
import SheetFormula.Proofs.Text.Visible

/-!
# What the scanner has read

The tokens that the scanner has emitted and the text that it holds spell out what it has read,
blanks apart: each character adds itself to this account (`Sound.account_step`), and so does a whole
text (`Sound.account_run`).  At the end of the text the account is completed by a double quote for
an open text and by the closing characters of the open scopes (`Sound.account_finish`).  Names that
stand for arrays and their rows are spelled as braces, so they must not be called.
-/

namespace SheetFormula

/-- The characters that close a scope: none for the row of an array, which ends with its array. -/
def ScopeKind.closer : ScopeKind → List Char
  | function | subexpression => [')']
  | array => ['\x7d']
  | arrayRow => []

private theorem ScopeKind.spelled_stopToken (kind : ScopeKind) :
    kind.stopToken.spelled = kind.closer := by
  cases kind <;> rfl

/-- The pending text is written as it stands while the scanner reads in this way. -/
def Reading.isVerbatim : Reading → Bool
  | .text | .textQuote | .comparison _ => false
  | _ => true

namespace Scanner

variable {convention : Convention} {called : List Char → Prop} {scanner before after : Scanner}
  {c : Char} {text : List Char}

/-- What the scanner holds of the text it has read, as it was written. -/
def held (scanner : Scanner) : List Char :=
  match scanner.reading with
  | .text => '"' :: Text.doubleQuotes scanner.pending.reverse
  | .textQuote => '"' :: (Text.doubleQuotes scanner.pending.reverse ++ ['"'])
  | .comparison first => first :: scanner.pending.reverse
  | _ => scanner.pending.reverse

/-- The text that the scanner has read, as its tokens and what it holds spell it. -/
def account (scanner : Scanner) : List Char :=
  scanner.emitted.toList.flatMap Token.spelled ++ scanner.held

/-- What the end of a text adds to it: the double quote that ends an open text, and the characters
that close the open scopes, innermost first. -/
def completion (scanner : Scanner) : List Char :=
  (if scanner.reading = .text then ['"'] else []) ++ scanner.kinds.flatMap ScopeKind.closer

private theorem held_of_isVerbatim (verbatim : scanner.reading.isVerbatim = true) :
    scanner.held = scanner.pending.reverse := by
  unfold held
  cases sort : scanner.reading with
  | text => simp [sort, Reading.isVerbatim] at verbatim
  | textQuote => simp [sort, Reading.isVerbatim] at verbatim
  | comparison first => simp [sort, Reading.isVerbatim] at verbatim
  | _ => rfl

/-- A character that goes on with the pending text is added to the account. -/
theorem account_push (verbatim : scanner.reading.isVerbatim = true) {reading : Reading}
    (goesOn : reading.isVerbatim = true) :
    ((scanner.push c).continueAs reading).account = scanner.account ++ [c] := by
  rw [account, account, held_of_isVerbatim verbatim, held_of_isVerbatim goesOn, List.append_assoc,
    ← List.reverse_cons]
  rfl

private theorem spelled_pendingTokens {kind : TokenKind}
    (sort : kind = .operand ∨ kind = .unknown) :
    (scanner.pendingTokens kind).flatMap Token.spelled = scanner.pending.reverse := by
  by_cases empty : scanner.pending = []
  · rw [pendingTokens_of_empty empty, empty]
    rfl
  · rw [pendingTokens_of_pending empty, List.flatMap_singleton]
    rcases sort with rfl | rfl <;> exact Token.spelled_bare rfl

/-- Emitting the pending text as it stands changes nothing in the account. -/
theorem spelled_flush (reading : scanner.reading = .formula) {kind : TokenKind}
    (sort : kind = .operand ∨ kind = .unknown) :
    (scanner.flush kind).emitted.toList.flatMap Token.spelled = scanner.account := by
  have verbatim : scanner.reading.isVerbatim = true := by rw [reading]; rfl
  rw [flush_emitted, List.flatMap_append, spelled_pendingTokens sort, account,
    held_of_isVerbatim verbatim]

private theorem held_of_empty (verbatim : scanner.reading.isVerbatim = true)
    (empty : scanner.pending = []) : scanner.held = [] := by
  rw [held_of_isVerbatim verbatim, empty, List.reverse_nil]

/-- Emitting the pending text and then some tokens adds to the account what these spell and what the
scanner holds then. -/
theorem account_flush (reading : before.reading = .formula) {kind : TokenKind}
    (sort : kind = .operand ∨ kind = .unknown) (added : List Token)
    (grown : after.emitted.toList = (before.flush kind).emitted.toList ++ added)
    (spelled : added.flatMap Token.spelled ++ after.held = text) :
    after.account = before.account ++ text := by
  rw [account, grown, List.flatMap_append, spelled_flush reading sort, List.append_assoc, spelled]

/-- If the scanner holds nothing in the end, the tokens alone are added to the account. -/
theorem account_emitted (reading : before.reading = .formula) {kind : TokenKind}
    (sort : kind = .operand ∨ kind = .unknown) (added : List Token)
    (grown : after.emitted.toList = (before.flush kind).emitted.toList ++ added)
    (ends : after.reading.isVerbatim = true ∧ after.pending = [])
    (spelled : added.flatMap Token.spelled = text) : after.account = before.account ++ text := by
  refine account_flush reading sort added grown ?_
  rw [held_of_empty ends.1 ends.2, List.append_nil, spelled]

private theorem spelled_startToken {name : List Char} (unreserved : Unreserved [name]) :
    (ScopeKind.function.startToken name).spelled = name ++ ['('] := by
  refine Token.spelled_call ?_ ?_
  · rintro rfl
    exact unreserved.1 (by simp)
  · rintro rfl
    exact unreserved.2 (by simp)

private theorem account_openParenthesis (reading : before.reading = .formula)
    (unreserved : Unreserved (before.callName '(')) :
    before.openParenthesis.account = before.account ++ ['('] := by
  have verbatim : before.reading.isVerbatim = true := by rw [reading]; rfl
  unfold openParenthesis
  by_cases empty : before.pending = []
  · rw [if_pos (List.isEmpty_iff.mpr empty)]
    have nothing : (before.openScope .subexpression []).held = [] := held_of_empty verbatim empty
    rw [account, account, nothing, held_of_empty verbatim empty, openScope, Array.toList_push,
      List.flatMap_append, List.append_nil, List.append_nil]
    rfl
  · rw [if_neg (by simpa using empty)]
    have nothing : (openScope { before with pending := [] } .function
        before.pending.reverse).held = [] := held_of_empty verbatim rfl
    have plain : Unreserved [before.pending.reverse] := by
      simpa [callName, reading, Reading.isOpen, empty] using unreserved
    rw [account, account, nothing, held_of_isVerbatim verbatim, openScope, Array.toList_push,
      List.flatMap_append, List.flatMap_singleton, spelled_startToken plain, List.append_nil,
      List.append_assoc]

private theorem closeScope_emitted {found : Char} {expected : List ScopeKind}
    (closed : before.closeScope found expected = .ok after) :
    ∃ kind ∈ expected, after.emitted.toList = before.emitted.toList ++ [kind.stopToken] ∧
      after.reading = before.reading ∧ after.pending = before.pending := by
  obtain ⟨scope, outer, _, member, rfl⟩ := closeScope_eq_ok.mp closed
  exact ⟨scope.kind, member, Array.toList_push .., rfl, rfl⟩

private theorem account_nextRow (reading : before.reading = .formula)
    (result : (before.flush .operand).nextRow = .ok after) :
    after.account = before.account ++ [';'] := by
  have ends : (before.flush .operand).reading.isVerbatim = true ∧
      (before.flush .operand).pending = [] := by
    rw [flush_reading, flush_pending, reading]
    exact ⟨rfl, rfl⟩
  unfold nextRow at result
  split at result
  · obtain ⟨closed, closing, opened⟩ := bind_eq_ok.mp result
    obtain rfl := pure_eq_ok.mp opened
    obtain ⟨kind, member, grown, goesOn, empty⟩ := closeScope_emitted closing
    obtain rfl := List.mem_singleton.mp member
    refine account_emitted reading (.inl rfl) [ScopeKind.arrayRow.stopToken, argumentToken ';',
      ScopeKind.arrayRow.startToken arrayRowName] ?_ ?_ rfl
    · simp [openScope, emit, grown]
      rfl
    · simpa only [openScope, emit, goesOn, empty] using ends
  · obtain rfl := Except.ok.inj result
    exact account_emitted reading (.inl rfl) [⟨[';'], .unknown, none⟩] (Array.toList_push ..) ends
      rfl

/-- A character that is read on its own is added to the account, unless it is a blank. -/
theorem Turns.account_eq (turn : before.Turns convention c after)
    (reading : before.reading = .formula) (unreserved : Unreserved (before.callName c)) :
    Text.visible after.account = Text.visible before.account ++ Text.visible [c] := by
  have verbatim : before.reading.isVerbatim = true := by rw [reading]; rfl
  have same : (before.push c).continueAs .formula = before.push c := by
    rw [continueAs, ← reading]
    rfl
  have ends (kind : TokenKind) : (before.flush kind).reading.isVerbatim = true ∧
      (before.flush kind).pending = [] := by
    rw [flush_reading, flush_pending]
    exact ⟨verbatim, rfl⟩
  rw [← Text.visible_append]
  cases turn with
  | exponent _ _ => rw [← same, account_push verbatim rfl]
  | ordinary _ => rw [← same, account_push verbatim rfl]
  | bracket _ => rw [account_push verbatim rfl]
  | text quote =>
      refine congrArg _ (account_flush reading (.inr rfl) [] (List.append_nil _).symm ?_)
      simp [held, continueAs, quote, Text.doubleQuotes]
  | path quote =>
      refine congrArg _ (account_flush reading (.inr rfl) [] (List.append_nil _).symm ?_)
      simp [held, continueAs, push]
  | errorCode mark =>
      refine congrArg _ (account_flush reading (.inr rfl) [] (List.append_nil _).symm ?_)
      simp [held, continueAs, push]
  | comparison mark =>
      refine congrArg _ (account_flush reading (.inl rfl) [] (List.append_nil _).symm ?_)
      simp [held, continueAs]
  | array opening =>
      subst opening
      refine congrArg _ (account_emitted reading (.inr rfl) [ScopeKind.array.startToken arrayName,
        ScopeKind.arrayRow.startToken arrayRowName] ?_ (ends _) rfl)
      simp [openScope]
  | arrayEnd closing closedRow closedArray =>
      subst closing
      obtain ⟨inner, isRow, grown, goesOn, empty⟩ := closeScope_emitted closedRow
      obtain ⟨outer, isArray, further, goesOnFurther, stillEmpty⟩ := closeScope_emitted closedArray
      obtain rfl := List.mem_singleton.mp isRow
      obtain rfl := List.mem_singleton.mp isArray
      refine congrArg _ (account_emitted reading (.inl rfl) [ScopeKind.arrayRow.stopToken,
        ScopeKind.array.stopToken] ?_ ?_ rfl)
      · rw [further, grown, List.append_assoc]
        rfl
      · rw [goesOnFurther, goesOn, stillEmpty, empty]
        exact ends _
  | blank blank =>
      have added : (((before.flush .operand).emit { value := [' '], kind := .blank }).continueAs
          .blanks).account = before.account ++ [' '] :=
        account_emitted reading (.inl rfl) [⟨[' '], .blank, none⟩] (Array.toList_push ..)
          ⟨rfl, flush_pending _⟩ rfl
      have hidden : Text.visible [c] = [] := Text.visible_of_blank (by simpa using blank)
      rw [added, Text.visible_append, Text.visible_append, hidden]
      rfl
  | operator mark _ =>
      exact congrArg _ (account_emitted reading (.inl rfl) [⟨[c], .infixOperator, none⟩]
        (Array.toList_push ..) (ends _) rfl)
  | percent mark =>
      exact congrArg _ (account_emitted reading (.inl rfl) [⟨[c], .postfixOperator, none⟩]
        (Array.toList_push ..) (ends _) rfl)
  | opened opening =>
      subst opening
      rw [account_openParenthesis reading unreserved]
  | closed closing closed =>
      subst closing
      obtain ⟨kind, member, grown, goesOn, empty⟩ := closeScope_emitted closed
      refine congrArg _ (account_emitted reading (.inl rfl) [kind.stopToken] grown ?_ ?_)
      · rw [goesOn, empty]
        exact ends _
      · simp only [List.mem_cons, List.not_mem_nil, or_false] at member
        rcases member with rfl | rfl <;> rfl
  | separator separator =>
      unfold separate
      split
      · exact congrArg _ (account_emitted reading (.inl rfl) [argumentToken c]
          (Array.toList_push ..) (ends _) rfl)
      · exact congrArg _ (account_emitted reading (.inl rfl) [unionToken c]
          (Array.toList_push ..) (ends _) rfl)
  | row semicolon _ result =>
      rw [account_nextRow reading result, semicolon]

private theorem doubleQuotes_concat (content : List Char) (c : Char) :
    Text.doubleQuotes (content ++ [c]) =
      Text.doubleQuotes content ++ if c = '"' then ['"', '"'] else [c] := by
  simp [Text.doubleQuotes]

/-- A character that goes on with something is added to the account, unless it is a blank. -/
theorem Sound.account_continues (sound : scanner.Sound convention called)
    (continues : scanner.Continues c after) :
    Text.visible after.account = Text.visible scanner.account ++ Text.visible [c] := by
  have verbatim {reading : Reading} (current : scanner.reading = reading)
      (isVerbatim : reading.isVerbatim = true) : scanner.reading.isVerbatim = true := by
    rwa [current]
  have same {reading : Reading} (current : scanner.reading = reading) :
      (scanner.push c).continueAs reading = scanner.push c := by
    rw [continueAs, ← current]
    rfl
  rw [← Text.visible_append]
  cases continues with
  | blank reading blank =>
      rw [Text.visible_append, Text.visible_of_blank (List.forall_mem_singleton.mpr blank),
        List.append_nil]
  | @comparison first reading pair =>
      have empty := (sound.comparison first reading).1
      simp [account, held, continueAs, emit, reading, empty]
      rfl
  | text reading inside =>
      rw [← same reading]
      simp [account, held, continueAs, push, reading, doubleQuotes_concat, inside]
  | quote reading quote => simp [account, held, continueAs, reading, quote]
  | doubledQuote reading quote =>
      simp [account, held, continueAs, push, reading, quote, doubleQuotes_concat]
  | path reading inside => rw [← same reading, account_push (verbatim reading rfl) rfl]
  | pathEnd reading quote => rw [account_push (verbatim reading rfl) rfl]
  | doubledPathQuote reading quote => rw [account_push (verbatim reading rfl) rfl]
  | bracket reading inside => rw [← same reading, account_push (verbatim reading rfl) rfl]
  | bracketEnd reading closing => rw [account_push (verbatim reading rfl) rfl]
  | errorCode reading incomplete => rw [← same reading, account_push (verbatim reading rfl) rfl]
  | errorCodeEnd reading complete =>
      simp [account, held, continueAs, emitPending, push, reading,
        @Token.spelled_bare ⟨_, .operand, some .error⟩ rfl]

/-- Ending what it is reading changes nothing in the scanner's account. -/
theorem account_resume (resumes : scanner.Resumes c) :
    scanner.resume.account = scanner.account := by
  cases sort : scanner.reading with
  | textQuote =>
      simp [resume, sort, account, held, endText, continueAs, emitPending, Token.spelled_text]
  | comparison first =>
      simp [resume, sort, account, held, continueAs, emit]
      rfl
  | formula => simp [resume, sort, account, held, continueAs]
  | blanks => simp [resume, sort, account, held, continueAs]
  | pathQuote => simp [resume, sort, account, held, continueAs]
  | _ => simp [Resumes, sort] at resumes

/-- A character is added to the account, unless it is a blank. -/
theorem Sound.account_step (sound : scanner.Sound convention called)
    (unreserved : Unreserved (scanner.callName c))
    (result : scanner.step convention c = .ok after) :
    Text.visible after.account = Text.visible scanner.account ++ Text.visible [c] := by
  obtain ⟨scanned, read, rfl⟩ := step_eq_ok.mp result
  change Text.visible scanned.account = _
  rcases read_cases read with continues | ⟨resumes, alone⟩
  · exact sound.account_continues continues
  · rw [← account_resume resumes]
    refine (turns_of_readFormula alone).account_eq resume_reading ?_
    rwa [sound.callName_resume resumes]

/-- What is visible of a text is added to the account. -/
theorem Sound.account_run (sound : scanner.Sound convention fun _ => True)
    (unreserved : Unreserved (scanner.callNames convention text))
    (result : scanner.run convention text = .ok after) :
    Text.visible after.account = Text.visible scanner.account ++ Text.visible text := by
  induction text generalizing scanner with
  | nil =>
      obtain rfl := Except.ok.inj result
      exact (List.append_nil _).symm
  | cons c rest ih =>
      obtain ⟨next, stepped, ran⟩ := run_cons_eq_ok.mp result
      simp only [callNames, stepped, unreserved_append] at unreserved
      rw [ih (sound.step (fun _ _ => trivial) stepped) unreserved.2 ran,
        sound.account_step unreserved.1 stepped, List.append_assoc, ← Text.visible_append,
        List.singleton_append]

/-- What the end of the text makes of what the scanner holds. -/
theorem Sound.spelled_leftover (sound : scanner.Sound convention called) :
    scanner.leftover.flatMap Token.spelled =
      scanner.held ++ if scanner.reading = .text then ['"'] else [] := by
  have word (other : scanner.reading ≠ .text) (verbatim : scanner.reading.isVerbatim = true)
      (same : scanner.leftover = scanner.pendingTokens .operand) :
      scanner.leftover.flatMap Token.spelled =
        scanner.held ++ if scanner.reading = .text then ['"'] else [] := by
    rw [same, spelled_pendingTokens (.inl rfl), held_of_isVerbatim verbatim, if_neg other,
      List.append_nil]
  cases sort : scanner.reading with
  | text => simp [leftover, held, sort, Token.spelled_text]
  | textQuote => simp [leftover, held, sort, Token.spelled_text]
  | errorCode => simp [leftover, held, sort, @Token.spelled_bare ⟨_, .operand, some .error⟩ rfl]
  | comparison first =>
      simp only [leftover, held, sort, (sound.comparison first sort).1]
      rfl
  | _ => exact sort ▸ word (by simp [sort]) (by rw [sort]; rfl) (by simp only [leftover, sort])

/-- The tokens of a finished scan spell out its account and what completes it. -/
theorem Sound.account_finish (sound : scanner.Sound convention called) :
    scanner.finish.toList.flatMap Token.spelled = scanner.account ++ scanner.completion := by
  have closers : (scanner.kinds.map ScopeKind.stopToken).flatMap Token.spelled =
      scanner.kinds.flatMap ScopeKind.closer := by
    simp only [List.flatMap_map, ScopeKind.spelled_stopToken]
  rw [finish_toList, List.flatMap_append, List.flatMap_append, closers, sound.spelled_leftover,
    account, completion]
  simp only [List.append_assoc]

end Scanner

end SheetFormula
