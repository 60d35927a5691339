import SheetFormula.Proofs.Scanner.End

/-!
# The scopes that a scan opens

The scanner keeps the kind of each open scope together with the index of its start token.  The kinds
of all scopes that a text opens, in order, are read off the states of its scan (`openedKinds`).
`Tracks` says what those kinds are to the tokens: a start opens a scope of the next kind, a stop is
the stop of the innermost one, and the names called are the texts of the starts of calls.
-/

namespace SheetFormula

/-- The texts under which scopes of the kind are opened. -/
inductive ScopeKind.Opens : ScopeKind → List Char → Prop where
  | call (name : List Char) : Opens .function name
  | group : Opens .subexpression []
  | array : Opens .array arrayName
  | row : Opens .arrayRow arrayRowName

/-- The name that is called where a scope of the kind is opened under a text. -/
def ScopeKind.calls (kind : ScopeKind) (value : List Char) : List (List Char) :=
  if kind = .function then [value] else []

/-- With the first scopes open, the tokens open scopes of the given kinds, call the given names and
leave the last scopes open. -/
inductive Tracks : List ScopeKind → List Token → List ScopeKind → List (List Char) →
    List ScopeKind → Prop where
  | done {scopes : List ScopeKind} : Tracks scopes [] [] [] scopes
  | plain {scopes kinds last : List ScopeKind} {names : List (List Char)} {token : Token}
      {rest : List Token} (start : token.isStart = false) (stop : token.isStop = false)
      (course : Tracks scopes rest kinds names last) :
      Tracks scopes (token :: rest) kinds names last
  | opens {scopes kinds last : List ScopeKind} {names : List (List Char)} {kind : ScopeKind}
      {value : List Char} {rest : List Token} (fits : kind.Opens value)
      (course : Tracks (kind :: scopes) rest kinds names last) :
      Tracks scopes (kind.startToken value :: rest) (kind :: kinds) (kind.calls value ++ names) last
  | closes {scopes kinds last : List ScopeKind} {names : List (List Char)} {kind : ScopeKind}
      {rest : List Token} (course : Tracks scopes rest kinds names last) :
      Tracks (kind :: scopes) (kind.stopToken :: rest) kinds names last

namespace Tracks

variable {scopes middle last kinds kinds' : List ScopeKind} {names names' : List (List Char)}
  {tokens tokens' : List Token}

/-- Two streams, one behind the other, open the scopes and call the names of both. -/
theorem append (first : Tracks scopes tokens kinds names middle)
    (second : Tracks middle tokens' kinds' names' last) :
    Tracks scopes (tokens ++ tokens') (kinds ++ kinds') (names ++ names') last := by
  induction first with
  | done => exact second
  | plain start stop _ ih => exact .plain start stop (ih second)
  | opens fits _ ih =>
      rw [List.append_assoc]
      exact .opens fits (ih second)
  | closes _ ih => exact .closes (ih second)

/-- Tokens that bound no scope open nothing and call nothing. -/
theorem of_bare (bare : ∀ token ∈ tokens, token.isStart = false ∧ token.isStop = false) :
    Tracks scopes tokens [] [] scopes := by
  induction tokens with
  | nil => exact .done
  | cons token rest ih =>
      obtain ⟨⟨start, stop⟩, restBare⟩ := List.forall_mem_cons.mp bare
      exact .plain start stop (ih restBare)

/-- The stops of all open scopes leave none of them open. -/
theorem of_stops (scopes : List ScopeKind) :
    Tracks scopes (scopes.map ScopeKind.stopToken) [] [] [] := by
  induction scopes with
  | nil => exact .done
  | cons kind outer ih => exact .closes ih

end Tracks

namespace Scanner

variable {convention : Convention} {called : List Char → Prop} {before middle after : Scanner}
  {names : List (List Char)} {c : Char}

/-- The kinds of the scopes whose start tokens were emitted between two states, in order. -/
def opened (before after : Scanner) : List ScopeKind :=
  ((after.scopes.filter fun scope => before.emitted.size ≤ scope.start).map OpenScope.kind).reverse

/-- The kinds of the scopes that a text opens, in order. -/
def openedKinds (convention : Convention) : Scanner → List Char → List ScopeKind
  | _, [] => []
  | scanner, c :: rest =>
      match scanner.step convention c with
      | .ok next => scanner.opened next ++ next.openedKinds convention rest
      | .error _ => []

/-- Every open scope was opened by a token that has been emitted. -/
def Indexed (scanner : Scanner) : Prop :=
  ∀ scope ∈ scanner.scopes, scope.start < scanner.emitted.size

/-- Between the two states tokens were emitted, some scopes were closed and then some opened. -/
def Advances (before after : Scanner) (names : List (List Char)) : Prop :=
  ∃ (added : List Token) (fresh old : ScopeStack),
    after.emitted.toList = before.emitted.toList ++ added ∧ after.scopes = fresh ++ old ∧
      old <:+ before.scopes ∧
      (∀ scope ∈ fresh, before.emitted.size ≤ scope.start ∧ scope.start < after.emitted.size) ∧
      Tracks before.kinds added (fresh.map OpenScope.kind).reverse names after.kinds

private theorem size_le_of_append {added : List Token}
    (grown : after.emitted.toList = before.emitted.toList ++ added) :
    before.emitted.size ≤ after.emitted.size := by
  rw [← Array.length_toList, ← Array.length_toList, grown, List.length_append]
  exact Nat.le_add_right _ _

private theorem Advances.opened_eq (advances : before.Advances after names)
    (indexed : before.Indexed) :
    ∃ added, after.emitted.toList = before.emitted.toList ++ added ∧
      Tracks before.kinds added (before.opened after) names after.kinds := by
  obtain ⟨added, fresh, old, grown, scopes, suffix, bounds, tracks⟩ := advances
  refine ⟨added, grown, ?_⟩
  have isFresh : fresh.filter (fun scope => before.emitted.size ≤ scope.start) = fresh :=
    List.filter_eq_self.mpr fun scope member => by simpa using (bounds scope member).1
  have isOld : old.filter (fun scope => before.emitted.size ≤ scope.start) = [] :=
    List.filter_eq_nil_iff.mpr fun scope member => by
      simpa using indexed scope (suffix.subset member)
  rwa [opened, scopes, List.filter_append, isFresh, isOld, List.append_nil]

private theorem Advances.indexed (advances : before.Advances after names)
    (indexed : before.Indexed) : after.Indexed := by
  obtain ⟨added, fresh, old, grown, scopes, suffix, bounds, _⟩ := advances
  intro scope member
  rw [scopes, List.mem_append] at member
  rcases member with member | member
  · exact (bounds scope member).2
  · exact Nat.lt_of_lt_of_le (indexed scope (suffix.subset member)) (size_le_of_append grown)

private theorem Advances.refl : before.Advances before [] :=
  ⟨[], [], before.scopes, (List.append_nil _).symm, rfl, List.suffix_rfl, nofun, .done⟩

/-- Between the two states tokens were emitted and some scopes were closed. -/
def Retreats (before after : Scanner) : Prop :=
  ∃ added, after.emitted.toList = before.emitted.toList ++ added ∧ after.scopes <:+ before.scopes ∧
    Tracks before.kinds added [] [] after.kinds

private theorem Retreats.of_plain (added : List Token)
    (grown : after.emitted.toList = before.emitted.toList ++ added)
    (same : after.scopes = before.scopes)
    (bare : ∀ token ∈ added, token.isStart = false ∧ token.isStop = false) :
    before.Retreats after := by
  refine ⟨added, grown, same ▸ List.suffix_rfl, ?_⟩
  rw [Scanner.kinds, Scanner.kinds, same]
  exact .of_bare bare

private theorem Retreats.then (first : before.Retreats middle)
    (second : middle.Advances after names) : before.Advances after names := by
  obtain ⟨added, grown, inside, tracks⟩ := first
  obtain ⟨more, fresh, old, further, scopes, suffix, bounds, further_tracks⟩ := second
  refine ⟨added ++ more, fresh, old, ?_, scopes, suffix.trans inside, fun scope member => ?_,
    tracks.append further_tracks⟩
  · rw [further, grown, List.append_assoc]
  · exact ⟨Nat.le_trans (size_le_of_append grown) (bounds scope member).1, (bounds scope member).2⟩

private theorem Retreats.advances (retreats : before.Retreats after) : before.Advances after [] :=
  retreats.then .refl

/-- A state with the same tokens and scopes has retreated by nothing. -/
theorem Retreats.same (grown : after.emitted = before.emitted)
    (same : after.scopes = before.scopes) : before.Retreats after :=
  .of_plain [] (by rw [grown, List.append_nil]) same nofun

/-- Emitting the pending text opens no scope. -/
theorem retreats_flush (kind : TokenKind) : before.Retreats (before.flush kind) := by
  refine .of_plain _ (flush_emitted kind) (flush_scopes kind) ?_
  intro token member
  unfold pendingTokens at member
  split at member
  · cases member
  · rw [List.mem_singleton] at member
    subst member
    exact ⟨rfl, rfl⟩

/-- Emitting a token that bounds no scope opens none. -/
theorem retreats_emit {token : Token} (start : token.isStart = false)
    (stop : token.isStop = false) : before.Retreats (before.emit token) := by
  refine .of_plain [token] ?_ rfl ?_
  · rw [emit, Array.toList_push]
  · intro other member
    rw [List.mem_singleton] at member
    exact member ▸ ⟨start, stop⟩

/-- Closing a scope emits its stop and opens no other one. -/
theorem retreats_closeScope {found : Char} {expected : List ScopeKind}
    (closed : before.closeScope found expected = .ok after) : before.Retreats after := by
  obtain ⟨scope, outer, scopes, _, rfl⟩ := closeScope_eq_ok.mp closed
  refine ⟨[scope.kind.stopToken], by simp, ?_, ?_⟩
  · rw [scopes]
    exact List.suffix_cons scope outer
  · rw [Scanner.kinds, scopes, List.map_cons]
    exact .closes .done

private theorem Advances.openScope {kind : ScopeKind} {value : List Char}
    (advances : before.Advances after names) (fits : kind.Opens value) :
    before.Advances (after.openScope kind value) (names ++ kind.calls value) := by
  obtain ⟨added, fresh, old, grown, scopes, suffix, bounds, tracks⟩ := advances
  have grew := size_le_of_append grown
  have further : Tracks after.kinds [kind.startToken value] [kind] (kind.calls value ++ [])
      (kind :: after.kinds) := .opens fits .done
  rw [List.append_nil] at further
  refine ⟨added ++ [kind.startToken value], ⟨kind, after.emitted.size⟩ :: fresh, old, ?_, ?_,
    suffix, ?_, ?_⟩
  · rw [Scanner.openScope, Array.toList_push, grown, List.append_assoc]
  · rw [Scanner.openScope, scopes, List.cons_append]
  · intro scope member
    simp only [Scanner.openScope, Array.size_push]
    rcases List.mem_cons.mp member with rfl | member
    · exact ⟨grew, Nat.lt_succ_self _⟩
    · exact ⟨(bounds scope member).1, Nat.lt_succ_of_lt (bounds scope member).2⟩
  · rw [List.map_cons, List.reverse_cons]
    exact tracks.append further

private theorem callName_of_ne {scanner : Scanner} (other : c ≠ '(') : scanner.callName c = [] := by
  simp [callName, other]

/-- What reading a character on its own opens and closes. -/
theorem Turns.advances (reading : before.reading = .formula)
    (turn : before.Turns convention c after) : before.Advances after (before.callName c) := by
  cases turn with
  | exponent sign _ =>
      rw [callName_of_ne (by rcases sign with rfl | rfl <;> decide)]
      exact (Retreats.same rfl rfl).advances
  | text quote =>
      rw [callName_of_ne (by simp [quote])]
      exact (retreats_flush .unknown).then (Retreats.same rfl rfl).advances
  | path quote =>
      rw [callName_of_ne (by simp [quote])]
      exact (retreats_flush .unknown).then (Retreats.same rfl rfl).advances
  | bracket opening =>
      rw [callName_of_ne (by simp [opening])]
      exact (Retreats.same rfl rfl).advances
  | errorCode mark =>
      rw [callName_of_ne (by simp [mark])]
      exact (retreats_flush .unknown).then (Retreats.same rfl rfl).advances
  | array opening =>
      rw [callName_of_ne (by simp [opening])]
      exact (retreats_flush .unknown).then ((Advances.refl.openScope .array).openScope .row)
  | arrayEnd closing closedRow closedArray =>
      rw [callName_of_ne (by simp [closing])]
      exact (retreats_flush .operand).then
        ((retreats_closeScope closedRow).then (retreats_closeScope closedArray).advances)
  | blank blank =>
      rw [callName_of_ne (by rintro rfl; simp [Text.isBlank] at blank)]
      exact (retreats_flush .operand).then
        ((retreats_emit rfl rfl).then (Retreats.same rfl rfl).advances)
  | comparison mark =>
      rw [callName_of_ne (by rcases mark with rfl | rfl <;> decide)]
      exact (retreats_flush .operand).then (Retreats.same rfl rfl).advances
  | operator mark _ =>
      rw [callName_of_ne (by rintro rfl; simp [infixCharacters] at mark)]
      exact (retreats_flush .operand).then (retreats_emit rfl rfl).advances
  | percent mark =>
      rw [callName_of_ne (by simp [mark])]
      exact (retreats_flush .operand).then (retreats_emit rfl rfl).advances
  | opened opening =>
      unfold openParenthesis callName
      by_cases empty : before.pending.isEmpty = true
      · simp only [empty, ↓reduceIte, Bool.not_true, Bool.and_false, Bool.false_eq_true]
        exact Advances.refl.openScope .group
      · simp only [empty, ↓reduceIte, Bool.not_false, Bool.and_true, reading, opening,
          Reading.isOpen, beq_self_eq_true, Bool.false_eq_true]
        exact (Retreats.same rfl rfl).advances.openScope (.call _)
  | closed closing closed =>
      rw [callName_of_ne (by simp [closing])]
      exact (retreats_flush .operand).then (retreats_closeScope closed).advances
  | separator separator =>
      rw [callName_of_ne (by cases convention <;> simp [separator, Convention.separator])]
      refine (retreats_flush .operand).then ?_
      unfold separate
      split
      · exact (retreats_emit rfl rfl).advances
      · exact (retreats_emit rfl rfl).advances
  | row semicolon _ result =>
      rw [callName_of_ne (by simp [semicolon])]
      refine (retreats_flush .operand).then ?_
      unfold nextRow at result
      split at result
      · obtain ⟨closed, closing, opened⟩ := bind_eq_ok.mp result
        obtain rfl := pure_eq_ok.mp opened
        exact (retreats_closeScope closing).then
          ((retreats_emit rfl rfl).advances.openScope .row)
      · obtain rfl := Except.ok.inj result
        exact (retreats_emit rfl rfl).advances
  | ordinary ordinary =>
      rw [callName_of_ne (by rintro rfl; exact ordinary.not_mark (by decide))]
      exact (Retreats.same rfl rfl).advances

/-- A character that goes on with something opens and closes nothing. -/
theorem Continues.retreats (continues : before.Continues c after) : before.Retreats after := by
  cases continues with
  | @comparison first _ _ =>
      refine .of_plain [⟨[first, c], .infixOperator, none⟩] ?_ rfl ?_
      · simp [continueAs, emit]
      · simp [Token.isStart, Token.isStop]
  | errorCodeEnd _ _ =>
      refine .of_plain [⟨(c :: before.pending).reverse, .operand, some .error⟩] ?_ rfl ?_
      · simp [continueAs, emitPending, push]
      · simp [Token.isStart, Token.isStop]
  | _ => exact .same rfl rfl

/-- Ending what the scanner is reading opens no scope. -/
theorem retreats_resume : before.Retreats before.resume := by
  unfold resume
  split
  · exact .of_plain [⟨before.pending.reverse, .operand, some .text⟩]
      (by simp [endText, continueAs, emitPending]) rfl (by simp [Token.isStart, Token.isStop])
  · exact .of_plain [⟨[_], .infixOperator, none⟩] (by simp [continueAs, emit]; rfl) rfl
      (by simp [Token.isStart, Token.isStop])
  · exact .same rfl rfl

private theorem Continues.callName_eq (continues : before.Continues c after) :
    before.callName c = [] := by
  cases continues with
  | doubledPathQuote _ quote => exact callName_of_ne (by simp [quote])
  | blank reading _ => simp [callName, reading, Reading.isOpen]
  | comparison reading _ => simp [callName, reading, Reading.isOpen]
  | text reading _ => simp [callName, reading, Reading.isOpen]
  | quote reading _ => simp [callName, reading, Reading.isOpen]
  | doubledQuote reading _ => simp [callName, reading, Reading.isOpen]
  | path reading _ => simp [callName, reading, Reading.isOpen]
  | pathEnd reading _ => simp [callName, reading, Reading.isOpen]
  | bracket reading _ => simp [callName, reading, Reading.isOpen]
  | bracketEnd reading _ => simp [callName, reading, Reading.isOpen]
  | errorCode reading _ => simp [callName, reading, Reading.isOpen]
  | errorCodeEnd reading _ => simp [callName, reading, Reading.isOpen]

/-- Ending what the scanner is reading does not change which name the next character calls. -/
theorem Sound.callName_resume {scanner : Scanner} (sound : scanner.Sound convention called)
    (resumes : scanner.Resumes c) : scanner.resume.callName c = scanner.callName c := by
  cases sort : scanner.reading with
  | formula => simp [resume, callName, sort, continueAs]
  | pathQuote => simp [resume, callName, sort, continueAs, Reading.isOpen]
  | blanks => simp [resume, callName, sort, continueAs, sound.blanks sort]
  | comparison first =>
      simp [resume, callName, sort, continueAs, emit, (sound.comparison first sort).1]
  | textQuote =>
      simp [resume, callName, sort, endText, emitPending, continueAs, Reading.isOpen]
  | _ => simp [Resumes, sort] at resumes

/-- A scanner that has ended what it was reading meets the next character on its own. -/
theorem resume_reading {scanner : Scanner} : scanner.resume.reading = .formula := by
  unfold resume
  split <;> rfl

/-- What one character opens and closes. -/
theorem Sound.advances {scanner : Scanner} (sound : scanner.Sound convention called)
    (result : scanner.step convention c = .ok after) :
    scanner.Advances after (scanner.callName c) := by
  obtain ⟨scanned, read, rfl⟩ := step_eq_ok.mp result
  rcases read_cases read with continues | ⟨resumes, alone⟩
  · rw [continues.callName_eq]
    exact continues.retreats.advances
  · rw [← sound.callName_resume resumes]
    have turned := (turns_of_readFormula alone).advances resume_reading
    exact retreats_resume.then turned

/-- What a text opens and closes. -/
theorem Sound.tracks_run {scanner : Scanner} (sound : scanner.Sound convention fun _ => True)
    (indexed : scanner.Indexed) {text : List Char}
    (result : scanner.run convention text = .ok after) :
    ∃ added, after.emitted.toList = scanner.emitted.toList ++ added ∧
      Tracks scanner.kinds added (scanner.openedKinds convention text)
        (scanner.callNames convention text) after.kinds := by
  induction text generalizing scanner with
  | nil =>
      obtain rfl := Except.ok.inj result
      exact ⟨[], (List.append_nil _).symm, .done⟩
  | cons c rest ih =>
      obtain ⟨next, stepped, ran⟩ := run_cons_eq_ok.mp result
      have advances := sound.advances stepped
      obtain ⟨added, grown, tracks⟩ := advances.opened_eq indexed
      obtain ⟨more, further, restTracks⟩ :=
        ih (sound.step (fun _ _ => trivial) stepped) (advances.indexed indexed) ran
      refine ⟨added ++ more, ?_, ?_⟩
      · rw [further, grown, List.append_assoc]
      · simp only [openedKinds, callNames, stepped]
        exact tracks.append restTracks

/-- Tokens that were emitted are never taken back. -/
theorem Sound.emitted_grows {scanner : Scanner} (sound : scanner.Sound convention fun _ => True)
    {text : List Char} (result : scanner.run convention text = .ok after) :
    scanner.emitted.toList <+: after.emitted.toList := by
  induction text generalizing scanner with
  | nil =>
      obtain rfl := Except.ok.inj result
      exact List.prefix_rfl
  | cons c rest ih =>
      obtain ⟨next, stepped, ran⟩ := run_cons_eq_ok.mp result
      obtain ⟨added, _, _, grown, _⟩ := sound.advances stepped
      have here : scanner.emitted.toList <+: next.emitted.toList := ⟨added, grown.symm⟩
      exact here.trans (ih (sound.step (fun _ _ => trivial) stepped) ran)

/-- A text opens the scopes of its parts, the second one read from where the first one ends. -/
theorem openedKinds_append {scanner : Scanner} {first : List Char} (second : List Char)
    (result : scanner.run convention first = .ok after) :
    scanner.openedKinds convention (first ++ second) =
      scanner.openedKinds convention first ++ after.openedKinds convention second := by
  induction first generalizing scanner with
  | nil =>
      obtain rfl := Except.ok.inj result
      rfl
  | cons c rest ih =>
      obtain ⟨next, stepped, ran⟩ := run_cons_eq_ok.mp result
      simp only [List.cons_append, openedKinds, stepped, ih ran, List.append_assoc]

end Scanner

/-- The kinds of the scopes that a formula opens, in order. -/
def openedKinds (convention : Convention) (formula : List Char) : List ScopeKind :=
  (Scanner.start formula).openedKinds convention (formulaBody formula)

/-- The names that a formula calls, in order. -/
def calledNames (convention : Convention) (formula : List Char) : List (List Char) :=
  (Scanner.start formula).callNames convention (formulaBody formula)

/-- Neither of the names stands for an array or a row of one. -/
def Unreserved (names : List (List Char)) : Prop :=
  arrayName ∉ names ∧ arrayRowName ∉ names

instance {names : List (List Char)} : Decidable (Unreserved names) :=
  inferInstanceAs (Decidable (_ ∧ _))

/-- Names are unreserved together if they are so in both parts. -/
theorem unreserved_append {first second : List (List Char)} :
    Unreserved (first ++ second) ↔ Unreserved first ∧ Unreserved second := by
  simp only [Unreserved, List.mem_append]
  tauto

end SheetFormula
