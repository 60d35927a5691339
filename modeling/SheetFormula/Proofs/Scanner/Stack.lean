import SheetFormula.Proofs.Scanner.Boundary
import SheetFormula.Proofs.Scanner.Opened
import SheetFormula.Proofs.Scanner.Outline

/-!
# The stack of open scopes

A brace opens an array together with its first row and closes them together, and a semicolon closes
a row only to open the next one.  So between two characters a row always lies on its array
(`Stacked`), and a scope that is open remembers the place of its own start token
(`Scanner.Anchored`).  Closing a row therefore never leaves an array behind that cannot be closed:
the scanner stops before it closes anything, or not at all (`Scanner.run_stack`).
-/

namespace SheetFormula

/-- What stands around a scope in a stack: an array under each row, and a row on each array. -/
theorem Stacked.neighbours {scopes inner outer : List ScopeKind} {kind : ScopeKind}
    (stacked : Stacked scopes) (split : scopes = inner ++ kind :: outer) :
    (kind = .arrayRow → outer.head? = some .array) ∧
      (kind = .array → inner.getLast? = some .arrayRow) := by
  induction stacked generalizing inner with
  | empty => simp at split
  | call _ ih | group _ ih =>
      cases inner with
      | nil =>
          obtain ⟨rfl, rfl⟩ := List.cons.inj split
          exact ⟨nofun, nofun⟩
      | cons first inner =>
          obtain ⟨rfl, rest⟩ := List.cons.inj split
          obtain ⟨under, above⟩ := ih rest
          refine ⟨under, fun array => ?_⟩
          rw [List.getLast?_cons, above array]
          rfl
  | row _ ih =>
      cases inner with
      | nil =>
          obtain ⟨rfl, rfl⟩ := List.cons.inj split
          exact ⟨fun _ => rfl, nofun⟩
      | cons first inner =>
          obtain ⟨rfl, rest⟩ := List.cons.inj split
          cases inner with
          | nil =>
              obtain ⟨rfl, rfl⟩ := List.cons.inj rest
              exact ⟨nofun, fun _ => rfl⟩
          | cons second inner =>
              obtain ⟨rfl, further⟩ := List.cons.inj rest
              obtain ⟨under, above⟩ := ih further
              refine ⟨under, fun array => ?_⟩
              rw [List.getLast?_cons, List.getLast?_cons, above array]
              rfl

namespace Scanner

variable {convention : Convention} {scanner before after : Scanner} {c : Char}

/-- Every open scope remembers the place of the token that opened it, and an inner scope was opened
behind the scopes around it. -/
structure Anchored (scanner : Scanner) : Prop where
  increasing : scanner.scopes.Pairwise fun inner outer => outer.start < inner.start
  started : ∀ scope ∈ scanner.scopes, ∃ value, scope.kind.Opens value ∧
    scanner.emitted[scope.start]? = some (scope.kind.startToken value)

private theorem anchored_start (formula : List Char) : (start formula).Anchored :=
  ⟨.nil, nofun⟩

private theorem Anchored.start_lt {scope : OpenScope} (anchored : scanner.Anchored)
    (member : scope ∈ scanner.scopes) : scope.start < scanner.emitted.size := by
  obtain ⟨_, _, found⟩ := anchored.started scope member
  exact (Array.getElem?_eq_some_iff.mp found).1

/-- Emitting tokens and closing scopes leaves the other scopes where they were opened. -/
theorem Anchored.of_retreats (anchored : before.Anchored) (retreats : before.Retreats after) :
    after.Anchored := by
  obtain ⟨added, grown, inside, _⟩ := retreats
  refine ⟨anchored.increasing.sublist inside.sublist, fun scope member => ?_⟩
  have old := inside.subset member
  obtain ⟨value, fits, found⟩ := anchored.started scope old
  refine ⟨value, fits, ?_⟩
  rw [← Array.getElem?_toList, grown, List.getElem?_append_left (anchored.start_lt old),
    Array.getElem?_toList, found]

private theorem Anchored.openScope {kind : ScopeKind} {value : List Char}
    (anchored : scanner.Anchored) (fits : kind.Opens value) :
    (scanner.openScope kind value).Anchored := by
  refine ⟨.cons (fun scope => anchored.start_lt) anchored.increasing, fun scope member => ?_⟩
  rcases List.mem_cons.mp member with rfl | old
  · exact ⟨value, fits, Array.getElem?_push_size⟩
  · obtain ⟨value, fits, found⟩ := anchored.started scope old
    refine ⟨value, fits, ?_⟩
    rw [Scanner.openScope, Array.getElem?_push_lt (anchored.start_lt old), ← found,
      Array.getElem?_eq_getElem]

/-- Reading a character on its own keeps the scopes anchored. -/
theorem Turns.anchored (turn : before.Turns convention c after) (anchored : before.Anchored) :
    after.Anchored := by
  have flushed (kind : TokenKind) : (before.flush kind).Anchored :=
    anchored.of_retreats (retreats_flush kind)
  cases turn with
  | exponent _ _ | bracket _ | ordinary _ => exact anchored.of_retreats (.same rfl rfl)
  | text _ | path _ | errorCode _ => exact (flushed .unknown).of_retreats (.same rfl rfl)
  | comparison _ => exact (flushed .operand).of_retreats (.same rfl rfl)
  | array _ => exact ((flushed .unknown).openScope .array).openScope .row
  | arrayEnd _ closedRow closedArray =>
      exact ((flushed .operand).of_retreats (retreats_closeScope closedRow)).of_retreats
        (retreats_closeScope closedArray)
  | blank _ =>
      exact ((flushed .operand).of_retreats (retreats_emit rfl rfl)).of_retreats (.same rfl rfl)
  | operator _ _ | percent _ => exact (flushed .operand).of_retreats (retreats_emit rfl rfl)
  | opened _ =>
      unfold openParenthesis
      split
      · exact anchored.openScope .group
      · have emptied : ({ before with pending := [] } : Scanner).Anchored :=
          anchored.of_retreats (.same rfl rfl)
        exact emptied.openScope (.call _)
  | closed _ closed => exact (flushed .operand).of_retreats (retreats_closeScope closed)
  | separator _ =>
      unfold separate
      split
      · exact (flushed .operand).of_retreats (retreats_emit rfl rfl)
      · exact (flushed .operand).of_retreats (retreats_emit rfl rfl)
  | row _ _ result =>
      unfold nextRow at result
      split at result
      · obtain ⟨closed, closing, opened⟩ := bind_eq_ok.mp result
        obtain rfl := pure_eq_ok.mp opened
        exact (((flushed .operand).of_retreats (retreats_closeScope closing)).of_retreats
          (retreats_emit rfl rfl)).openScope .row
      · obtain rfl := Except.ok.inj result
        exact (flushed .operand).of_retreats (retreats_emit rfl rfl)

private theorem Anchored.step (anchored : scanner.Anchored)
    (result : scanner.step convention c = .ok after) : after.Anchored := by
  obtain ⟨scanned, read, rfl⟩ := step_eq_ok.mp result
  have read : scanned.Anchored := by
    rcases read_cases read with continues | ⟨_, alone⟩
    · exact anchored.of_retreats continues.retreats
    · exact (turns_of_readFormula alone).anchored (anchored.of_retreats retreats_resume)
  exact read.of_retreats (.same rfl rfl)

private theorem Anchored.run {text : List Char} (anchored : scanner.Anchored)
    (result : scanner.run convention text = .ok after) : after.Anchored := by
  induction text generalizing scanner with
  | nil =>
      obtain rfl := Except.ok.inj result
      exact anchored
  | cons c rest ih =>
      obtain ⟨next, stepped, ran⟩ := run_cons_eq_ok.mp result
      exact ih (anchored.step stepped) ran

private theorem innermost?_eq_head? : scanner.scopes.innermost? = scanner.kinds.head? :=
  List.head?_map.symm

private theorem closeScope_eq_error_iff {found : Char} {expected : List ScopeKind}
    {error : FormulaError} :
    scanner.closeScope found expected = .error error ↔
      error = .unbalanced scanner.position found ∧
        ∀ kind ∈ scanner.scopes.innermost?, kind ∉ expected := by
  constructor
  · intro refused
    refine ⟨closeScope_eq_error refused, ?_⟩
    rw [innermost?_eq_head?]
    exact head_of_closeScope_error refused
  · rintro ⟨rfl, other⟩
    cases result : scanner.closeScope found expected with
    | error error => rw [closeScope_eq_error result]
    | ok closed =>
        obtain ⟨scope, outer, scopes, member, _⟩ := closeScope_eq_ok.mp result
        exact (other scope.kind (by rw [scopes]; rfl) member).elim

/-- The characters that close scopes, each with the kinds of the scope that it closes first. -/
def closers : List (Char × List ScopeKind) :=
  [(')', [.function, .subexpression]), ('\x7d', [.arrayRow])]

/-- A character that is read on its own is refused exactly if it closes scopes and the innermost
scope is of another kind.  The array that a brace closes behind a row is never the reason. -/
theorem readFormula_eq_error_iff {error : FormulaError} (stacked : Stacked scanner.kinds) :
    scanner.readFormula convention c = .error error ↔
      error = .unbalanced scanner.position c ∧
        ∃ kinds, (c, kinds) ∈ closers ∧ ∀ kind ∈ scanner.scopes.innermost?, kind ∉ kinds := by
  have parenthesis : scanner.readFormula convention ')' =
      (scanner.flush .operand).closeScope ')' [.function, .subexpression] := rfl
  have brace : scanner.readFormula convention '\x7d' =
      (scanner.flush .operand).closeScope '\x7d' [.arrayRow] >>= fun row =>
        row.closeScope '\x7d' [.array] := rfl
  constructor
  · intro refused
    obtain ⟨rfl | rfl, blamed⟩ := readFormula_eq_error refused
    · rw [parenthesis, closeScope_eq_error_iff, flush_scopes] at refused
      exact ⟨blamed, _, List.mem_cons_self, refused.2⟩
    · rw [brace] at refused
      rcases bind_eq_error.mp refused with unclosed | ⟨row, closed, unclosed⟩
      · rw [closeScope_eq_error_iff, flush_scopes] at unclosed
        exact ⟨blamed, _, List.mem_cons_of_mem _ List.mem_cons_self, unclosed.2⟩
      -- Once its row is closed, the array is the innermost scope.
      · obtain ⟨after, closedArray⟩ := exists_closeArray (by rwa [flush_kinds]) closed
        rw [closedArray] at unclosed
        cases unclosed
  · rintro ⟨blamed, kinds, closes, other⟩
    have unclosed : (scanner.flush .operand).closeScope c kinds = .error error := by
      rw [closeScope_eq_error_iff, flush_position, flush_scopes]
      exact ⟨blamed, other⟩
    simp only [closers, List.mem_cons, List.not_mem_nil, or_false, Prod.mk.injEq] at closes
    rcases closes with ⟨rfl, rfl⟩ | ⟨rfl, rfl⟩
    · rw [parenthesis, unclosed]
    · rw [brace, unclosed]
      rfl

private theorem resume_kinds : scanner.resume.kinds = scanner.kinds := by
  unfold resume
  split <;> rfl

/-- The scanner stops exactly at a character that closes scopes while the innermost scope is of
another kind, so nothing has been closed by then. -/
theorem step_eq_error_iff {error : FormulaError} (stacked : Stacked scanner.kinds) :
    scanner.step convention c = .error error ↔
      scanner.Resumes c ∧ error = .unbalanced scanner.position c ∧
        ∃ kinds, (c, kinds) ∈ closers ∧ ∀ kind ∈ scanner.scopes.innermost?, kind ∉ kinds := by
  have alone : scanner.resume.readFormula convention c = .error error ↔
      error = .unbalanced scanner.position c ∧
        ∃ kinds, (c, kinds) ∈ closers ∧ ∀ kind ∈ scanner.scopes.innermost?, kind ∉ kinds := by
    rw [readFormula_eq_error_iff (by rwa [resume_kinds]), resume_position, innermost?_eq_head?,
      resume_kinds, innermost?_eq_head?]
  constructor
  · intro refused
    rcases bind_eq_error.mp refused with unread | ⟨_, _, moved⟩
    · obtain ⟨resumes, refusedAlone⟩ := read_eq_error unread
      exact ⟨resumes, alone.mp refusedAlone⟩
    · cases moved
  · rintro ⟨resumes, unfit⟩
    refine bind_eq_error.mpr (.inl ?_)
    rw [read_of_resumes resumes, alone.mpr unfit]

/-- Between any two characters of a formula, the innermost scope is no array, each row lies directly
on an array and each array directly under a row, and each scope has the place of its own start
token, in ascending order from the outermost scope on.  So an array can be closed whenever its row
has been closed, a row can always be followed by the next one, and the scanner stops only at a
character that does not close the innermost scope, before it closes anything. -/
theorem run_stack {formula text : List Char}
    (reached : (start formula).run convention text = .ok scanner) :
    scanner.scopes.innermost? ≠ some .array ∧
    (∀ inner scope outer, scanner.scopes = inner ++ scope :: outer →
      (scope.kind = .arrayRow → ScopeStack.innermost? outer = some .array) ∧
      (scope.kind = .array → inner.getLast?.map OpenScope.kind = some .arrayRow)) ∧
    scanner.Anchored ∧
    (∀ (current row : Scanner) (found : Char), current.scopes = scanner.scopes →
      current.closeScope found [.arrayRow] = .ok row →
        ∃ closed, row.closeScope found [.array] = .ok closed) ∧
    (∀ current : Scanner, ∃ next, current.nextRow = .ok next) ∧
    ∀ c error, scanner.step convention c = .error error ↔
      scanner.Resumes c ∧ error = .unbalanced scanner.position c ∧
        ∃ kinds, (c, kinds) ∈ closers ∧ ∀ kind ∈ scanner.scopes.innermost?, kind ∉ kinds := by
  have stacked : Stacked scanner.kinds := (sound_of_run reached).stream.leads.stacked .empty
  refine ⟨?_, ?_, (anchored_start formula).run reached, ?_, ?_,
    fun _ _ => step_eq_error_iff stacked⟩
  · rw [innermost?_eq_head?]
    intro array
    obtain ⟨outer, split⟩ := List.head?_eq_some_iff.mp array
    exact stacked.not_array outer split
  · intro inner scope outer split
    obtain ⟨under, above⟩ :=
      stacked.neighbours (by rw [kinds, split, List.map_append, List.map_cons])
    rw [List.head?_map] at under
    rw [List.getLast?_map] at above
    exact ⟨under, above⟩
  · intro current row found same closed
    exact exists_closeArray (by rwa [kinds, same]) closed
  · intro current
    cases result : current.nextRow with
    | ok next => exact ⟨next, rfl⟩
    | error error => exact (nextRow_ne_error result).elim

/-- In parentheses, in the second row of an array, in a call: a brace is refused there. -/
theorem run_stack_nested :
    ∃ scanner, (start "=F(\x7b1;(2\x7d".toList).run .us "F(\x7b1;(2".toList = .ok scanner ∧
      scanner.scopes = [⟨.subexpression, 7⟩, ⟨.arrayRow, 6⟩, ⟨.array, 1⟩, ⟨.function, 0⟩] ∧
      scanner.scopes.innermost? ≠ some .array ∧ scanner.Anchored ∧
      scanner.step .us '\x7d' = .error (.unbalanced 8 '\x7d') := by
  have reached : (start "=F(\x7b1;(2\x7d".toList).run .us "F(\x7b1;(2".toList = .ok
      { position := 8
        pending := ['2']
        scopes := [⟨.subexpression, 7⟩, ⟨.arrayRow, 6⟩, ⟨.array, 1⟩, ⟨.function, 0⟩]
        emitted := #[ScopeKind.function.startToken ['F'], ScopeKind.array.startToken arrayName,
          ScopeKind.arrayRow.startToken arrayRowName, ⟨['1'], .operand, none⟩,
          ScopeKind.arrayRow.stopToken, argumentToken ';',
          ScopeKind.arrayRow.startToken arrayRowName, ScopeKind.subexpression.startToken []] } := by
    rfl
  obtain ⟨innermost, _, anchored, _, _, refused⟩ := run_stack reached
  refine ⟨_, reached, rfl, innermost, anchored, (refused _ _).mpr ⟨trivial, rfl, [.arrayRow], ?_⟩⟩
  decide

end Scanner

end SheetFormula
