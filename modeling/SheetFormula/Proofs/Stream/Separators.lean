import SheetFormula.Proofs.Stream.Marks

/-!
# Separators and the scopes around them

The scanner decides what a separator is by the scope that is open where it reads it.  In the
finished stream that scope is the one whose start is the last one left open before the separator and
whose stop is the first one behind it that closes nothing else.  `Separates` says in terms of that
start and that stop which separators divide arguments, which ones unite ranges and how they are
written, and `tokenize_separated` says that all separators of all formulas do so.
-/

namespace SheetFormula

/-- The starts of the open scopes, innermost first, after one more token. -/
def nextStarts (starts : List Token) (token : Token) : List Token :=
  if token.isStart then token :: starts
  else if token.isStop then starts.tail
  else starts

/-- The starts of the scopes that some tokens leave open, innermost first. -/
def openStarts (tokens : List Token) : List Token :=
  tokens.foldl nextStarts []

/-- The stop that closes the scope around some tokens, when `depth` scopes are open between that
scope and them. -/
def closingStop? : (depth : Nat) → List Token → Option Token
  | _, [] => none
  | depth, token :: rest =>
      if token.isStart then closingStop? (depth + 1) rest
      else if token.isStop then
        if depth = 0 then some token else closingStop? (depth - 1) rest
      else closingStop? depth rest

/-- If the token is a separator, it is the one that has a place between the start and the stop. -/
structure Separates (convention : Convention) (start : Option Token) (token : Token)
    (stop : Option Token) : Prop where
  argument : token.kind = .argument → ∃ opening ∈ start, ∃ closing ∈ stop,
    opening.kind = .function ∧ closing.kind = .function ∧
      (closing.value = arrayStopName → token.value = [';'] ∧ convention = .us) ∧
      (closing.value ≠ arrayStopName → token.value = [convention.separator])
  union : token.role = some .union → ∀ opening ∈ start, opening.kind = .subexpression

/-- With the scopes of the starts open, every token of the stream is a separator only where it has a
place. -/
def Separated (convention : Convention) : (starts : List Token) → List Token → Prop
  | _, [] => True
  | starts, token :: rest =>
      Separates convention starts.head? token (closingStop? 0 rest) ∧
        Separated convention (nextStarts starts token) rest

/-- A token within the stream is a separator only between the start around it and its stop. -/
theorem Separated.separates_at {convention : Convention} {starts before after : List Token}
    {token : Token} (separated : Separated convention starts (before ++ token :: after)) :
    Separates convention (before.foldl nextStarts starts).head? token (closingStop? 0 after) := by
  induction before generalizing starts with
  | nil => exact separated.1
  | cons first rest ih => exact ih separated.2

/-- The starts are those of scopes of the given kinds. -/
abbrev StartsOf (scopes : List ScopeKind) (starts : List Token) : Prop :=
  List.Forall₂ (fun kind start => start.kind = ScopeKind.tokenKind kind) scopes starts

section Course

variable {convention : Convention} {plain : Token → Prop} {called : List Char → Prop}
  {scopes last : List ScopeKind} {tokens : List Token}

/-- The stops that a course does not account for are those of the scopes that it finds open. -/
theorem Leads.closingStop?_eq (course : Leads convention plain called scopes tokens last)
    (closed : last = [])
    (bare : ∀ token, plain token → token.isStart = false ∧ token.isStop = false) (depth : Nat) :
    closingStop? depth tokens = scopes[depth]?.map ScopeKind.stopToken := by
  induction course generalizing depth with
  | done =>
      subst closed
      rfl
  | plain held _ ih =>
      obtain ⟨start, stop⟩ := bare _ held
      rw [closingStop?, start, stop, if_neg Bool.false_ne_true, if_neg Bool.false_ne_true]
      exact ih closed depth
  | argument _ _ ih => exact ih closed depth
  | union _ _ ih => exact ih closed depth
  | call _ _ ih => exact ih closed (depth + 1)
  | group _ ih => exact ih closed (depth + 1)
  | callEnd _ ih =>
      cases depth with
      | zero => rfl
      | succ outer => exact ih closed outer
  | groupEnd _ ih =>
      cases depth with
      | zero => rfl
      | succ outer => exact ih closed outer
  | array _ ih => exact ih closed (depth + 1 + 1)
  | nextRow _ _ ih =>
      cases depth with
      | zero => rfl
      | succ outer => exact ih closed (outer + 1)
  | arrayEnd _ ih =>
      match depth with
      | 0 => rfl
      | 1 => rfl
      | outer + 2 => exact ih closed outer

/-- A separator of arguments in a scope that takes them. -/
theorem separates_argument {kind : ScopeKind} {start : Token} (takes : kind.takesArguments = true)
    (ordinary : kind ≠ .array) (fits : start.kind = kind.tokenKind) :
    Separates convention (some start) (argumentToken convention.separator)
      (some kind.stopToken) := by
  have function : kind.tokenKind = .function := by
    cases kind with
    | subexpression => cases takes
    | _ => rfl
  have plain : kind.stopToken.value ≠ arrayStopName := by
    cases kind with
    | array => exact (ordinary rfl).elim
    | _ => decide
  refine ⟨fun _ => ⟨start, rfl, kind.stopToken, rfl, fits.trans function, function, ?_, ?_⟩, nofun⟩
  · intro array
    exact (plain array).elim
  · intro _
    rfl

/-- The semicolon between two rows of an array. -/
theorem separates_rows {start : Token} (us : convention = .us) (fits : start.kind = .function) :
    Separates convention (some start) (argumentToken ';') (some ScopeKind.array.stopToken) := by
  refine ⟨fun _ => ⟨start, rfl, _, rfl, fits, rfl, fun _ => ⟨rfl, us⟩, ?_⟩, nofun⟩
  intro other
  exact (other rfl).elim

private theorem separates_of_other {start stop : Option Token} {token : Token}
    (argument : token.kind ≠ .argument) (union : token.role ≠ some .union) :
    Separates convention start token stop :=
  ⟨fun same => (argument same).elim, fun same => (union same).elim⟩

private theorem separates_startToken {start stop : Option Token} (kind : ScopeKind)
    (name : List Char) : Separates convention start (kind.startToken name) stop := by
  cases kind <;> exact separates_of_other nofun nofun

private theorem separates_stopToken {start stop : Option Token} (kind : ScopeKind) :
    Separates convention start kind.stopToken stop := by
  cases kind <;> exact separates_of_other nofun nofun

/-- Along a course that closes all scopes, the scopes it knows are those that the starts and stops
of its tokens show. -/
theorem Leads.separated (course : Leads convention plain called scopes tokens last)
    (closed : last = [])
    (bare : ∀ token, plain token → token.isStart = false ∧ token.isStop = false)
    (other : ∀ token, plain token → token.kind ≠ .argument ∧ token.role ≠ some .union)
    (stacked : Stacked scopes) {starts : List Token} (fits : StartsOf scopes starts) :
    Separated convention starts tokens := by
  induction course generalizing starts with
  | done => trivial
  | plain held _ ih =>
      obtain ⟨start, stop⟩ := bare _ held
      obtain ⟨argument, union⟩ := other _ held
      refine ⟨separates_of_other argument union, ?_⟩
      rw [nextStarts, start, stop, if_neg Bool.false_ne_true, if_neg Bool.false_ne_true]
      exact ih closed stacked fits
  | argument inside course ih =>
      refine ⟨?_, ih closed stacked fits⟩
      rw [course.closingStop?_eq closed bare]
      cases fits with
      | nil => cases inside
      | cons start outer =>
          refine separates_argument inside ?_ start
          rintro rfl
          exact stacked.not_array _ rfl
  | union outside course ih =>
      refine ⟨⟨nofun, fun _ opening innermost => ?_⟩, ih closed stacked fits⟩
      cases fits with
      | nil => cases innermost
      | @cons kind start _ _ sort outer =>
          obtain rfl : start = opening := Option.some.inj innermost
          cases kind with
          | subexpression => exact sort
          | _ => cases outside
  | call _ _ ih => exact ⟨separates_startToken _ _, ih closed (.call stacked) (.cons rfl fits)⟩
  | group _ ih => exact ⟨separates_startToken _ _, ih closed (.group stacked) (.cons rfl fits)⟩
  | callEnd _ ih =>
      cases stacked with
      | call outer => cases fits with
        | cons _ fits => exact ⟨separates_stopToken .function, ih closed outer fits⟩
  | groupEnd _ ih =>
      cases stacked with
      | group outer => cases fits with
        | cons _ fits => exact ⟨separates_stopToken .subexpression, ih closed outer fits⟩
  | array _ ih =>
      exact ⟨separates_startToken _ _, separates_startToken _ _,
        ih closed (.row stacked) (.cons rfl (.cons rfl fits))⟩
  | nextRow us course ih =>
      cases fits with
      | cons row fits => cases fits with
        | cons array fits =>
          refine ⟨separates_stopToken .arrayRow, ?_, separates_startToken _ _,
            ih closed stacked (.cons rfl (.cons array fits))⟩
          have stop := course.closingStop?_eq closed bare 1
          change Separates convention _ _ (closingStop? 1 _)
          rw [stop]
          exact separates_rows us array
  | arrayEnd _ ih =>
      cases stacked with
      | row outer => cases fits with
        | cons _ fits => cases fits with
          | cons _ fits =>
              exact ⟨separates_stopToken .arrayRow, separates_stopToken .array,
                ih closed outer fits⟩

end Course

/-- In a stream that is read from a formula, separators stand only where they have a place. -/
theorem separated_of_tokenize {convention : Convention} {formula : List Char} {tokens : List Token}
    (read : tokenize convention formula = .ok tokens) : Separated convention [] tokens := by
  refine (leads_of_tokenize read).separated rfl (fun _ finished => finished.bare) ?_ .empty .nil
  intro other finished
  cases finished.1 with
  | @word text _ =>
      rcases classify_cases convention text with sort | sort | sort <;> rw [sort] <;> simp
  | _ => simp [intersection]

/-- In the tokens of a formula every separator of arguments stands in a function or an array and is
the one of the convention, or the semicolon between two rows of an array, which only the convention
with commas has.  Unions stand in no scope or in parentheses. -/
theorem tokenize_separated {convention : Convention} {formula : List Char} {tokens : List Token}
    (read : tokenize convention formula = .ok tokens) :
    ∀ before token after, tokens = before ++ token :: after →
      Separates convention (openStarts before).head? token (closingStop? 0 after) := by
  rintro before token after rfl
  exact (separated_of_tokenize read).separates_at

/-- A separator of items and one of rows in an array, a union in parentheses and a separator of the
call around all of them.  With decimal commas all of these are semicolons, and an array has no
rows. -/
theorem tokenize_separated_nested :
    (tokenize .us "=F(\x7b1,2;3\x7d,(A1,B2)".toList =
        .ok [ScopeKind.function.startToken ['F'], ScopeKind.array.startToken arrayName,
          ScopeKind.arrayRow.startToken arrayRowName, ⟨['1'], .operand, some .number⟩,
          argumentToken ',', ⟨['2'], .operand, some .number⟩, ScopeKind.arrayRow.stopToken,
          argumentToken ';', ScopeKind.arrayRow.startToken arrayRowName,
          ⟨['3'], .operand, some .number⟩, ScopeKind.arrayRow.stopToken, ScopeKind.array.stopToken,
          argumentToken ',', ScopeKind.subexpression.startToken [],
          ⟨"A1".toList, .operand, some .range⟩, unionToken ',',
          ⟨"B2".toList, .operand, some .range⟩, ScopeKind.subexpression.stopToken,
          ScopeKind.function.stopToken] ∧
      Separates .us (some (ScopeKind.arrayRow.startToken arrayRowName)) (argumentToken ',')
        (some ScopeKind.arrayRow.stopToken) ∧
      Separates .us (some (ScopeKind.array.startToken arrayName)) (argumentToken ';')
        (some ScopeKind.array.stopToken) ∧
      Separates .us (some (ScopeKind.function.startToken ['F'])) (argumentToken ',')
        (some ScopeKind.function.stopToken) ∧
      Separates .us (some (ScopeKind.subexpression.startToken [])) (unionToken ',')
        (some ScopeKind.subexpression.stopToken)) ∧
    tokenize .eu "=F(\x7b1,5;3\x7d;(A1;B2)".toList =
        .ok [ScopeKind.function.startToken ['F'], ScopeKind.array.startToken arrayName,
          ScopeKind.arrayRow.startToken arrayRowName, ⟨"1,5".toList, .operand, some .number⟩,
          argumentToken ';', ⟨['3'], .operand, some .number⟩, ScopeKind.arrayRow.stopToken,
          ScopeKind.array.stopToken, argumentToken ';', ScopeKind.subexpression.startToken [],
          ⟨"A1".toList, .operand, some .range⟩, unionToken ';',
          ⟨"B2".toList, .operand, some .range⟩, ScopeKind.subexpression.stopToken,
          ScopeKind.function.stopToken] ∧
      Separates .eu (some (ScopeKind.arrayRow.startToken arrayRowName)) (argumentToken ';')
        (some ScopeKind.arrayRow.stopToken) ∧
      Separates .eu (some (ScopeKind.function.startToken ['F'])) (argumentToken ';')
        (some ScopeKind.function.stopToken) ∧
      Separates .eu (some (ScopeKind.subexpression.startToken [])) (unionToken ';')
        (some ScopeKind.subexpression.stopToken) := by
  have read : tokenize .us "=F(\x7b1,2;3\x7d,(A1,B2)".toList =
      .ok [ScopeKind.function.startToken ['F'], ScopeKind.array.startToken arrayName,
        ScopeKind.arrayRow.startToken arrayRowName, ⟨['1'], .operand, some .number⟩,
        argumentToken ',', ⟨['2'], .operand, some .number⟩, ScopeKind.arrayRow.stopToken,
        argumentToken ';', ScopeKind.arrayRow.startToken arrayRowName,
        ⟨['3'], .operand, some .number⟩, ScopeKind.arrayRow.stopToken, ScopeKind.array.stopToken,
        argumentToken ',', ScopeKind.subexpression.startToken [],
        ⟨"A1".toList, .operand, some .range⟩, unionToken ',',
        ⟨"B2".toList, .operand, some .range⟩, ScopeKind.subexpression.stopToken,
        ScopeKind.function.stopToken] := by
    rfl
  have readComma : tokenize .eu "=F(\x7b1,5;3\x7d;(A1;B2)".toList =
      .ok [ScopeKind.function.startToken ['F'], ScopeKind.array.startToken arrayName,
        ScopeKind.arrayRow.startToken arrayRowName, ⟨"1,5".toList, .operand, some .number⟩,
        argumentToken ';', ⟨['3'], .operand, some .number⟩, ScopeKind.arrayRow.stopToken,
        ScopeKind.array.stopToken, argumentToken ';', ScopeKind.subexpression.startToken [],
        ⟨"A1".toList, .operand, some .range⟩, unionToken ';',
        ⟨"B2".toList, .operand, some .range⟩, ScopeKind.subexpression.stopToken,
        ScopeKind.function.stopToken] := by
    rfl
  have separated := tokenize_separated read
  have separatedComma := tokenize_separated readComma
  exact ⟨⟨read, separated [_, _, _, _] _ _ rfl, separated [_, _, _, _, _, _, _] _ _ rfl,
    separated [_, _, _, _, _, _, _, _, _, _, _, _] _ _ rfl,
    separated [_, _, _, _, _, _, _, _, _, _, _, _, _, _, _] _ _ rfl⟩, readComma,
    separatedComma [_, _, _, _] _ _ rfl, separatedComma [_, _, _, _, _, _, _, _] _ _ rfl,
    separatedComma [_, _, _, _, _, _, _, _, _, _, _] _ _ rfl⟩

end SheetFormula
