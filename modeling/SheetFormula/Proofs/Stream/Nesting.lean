import SheetFormula.Proofs.Scanner.End
import SheetFormula.Proofs.Stream.Finish

/-!
# Nested scopes

The starts and stops of a finished stream are those of a forest: a scope is a start, the forest of
its content and a stop.  `tokenize_nested` says that every formula that can be read at all has such
a forest, in which starts and stops belong together and arrays consist of rows.
-/

namespace SheetFormula

/-- Tokens with their scopes as a tree structure. -/
inductive Forest where
  | nil
  | leaf (token : Token) (rest : Forest)
  | scope (start : Token) (content : Forest) (stop : Token) (rest : Forest)

namespace Forest

/-- The stream of a forest. -/
def tokens : Forest → List Token
  | nil => []
  | leaf token rest => token :: rest.tokens
  | scope start content stop rest => start :: (content.tokens ++ stop :: rest.tokens)

/-- The number of separators of arguments directly in the forest. -/
def separators : Forest → Nat
  | nil => 0
  | leaf token rest => (if token.isArgument then 1 else 0) + rest.separators
  | scope _ _ _ rest => rest.separators

/-- Scopes closed by the stop of an array row, one or more of them, with a semicolon between any
two. -/
def IsRows : Forest → Prop
  | scope _ _ stop nil => stop.value = arrayRowStopName
  | scope _ _ stop (leaf separator rest) =>
      stop.value = arrayRowStopName ∧ separator = argumentToken ';' ∧ rest.IsRows
  | _ => False

/-- What may follow the first row of an array. -/
def IsRowTail : Forest → Prop
  | nil => True
  | leaf separator rest => separator = argumentToken ';' ∧ rest.IsRows
  | scope _ _ _ _ => False

private theorem isRows_scope {start stop : Token} {content rest : Forest} :
    (scope start content stop rest).IsRows ↔
      stop.value = arrayRowStopName ∧ rest.IsRowTail := by
  cases rest <;> simp [IsRows, IsRowTail]

/-- A start and a stop that belong together, around a content that suits them. -/
structure Encloses (start : Token) (content : Forest) (stop : Token) : Prop where
  opens : start.isStart = true
  closes : stop.isStop = true
  kind : stop.kind = start.kind
  array : stop.value = arrayStopName → start.value = arrayName ∧ content.IsRows
  row : stop.value = arrayRowStopName → start.value = arrayRowName

/-- Every start and stop of the stream bounds a scope of the forest, and belongs to the other. -/
inductive Proper : Forest → Prop where
  | nil : Proper nil
  | leaf {token : Token} {rest : Forest} (start : token.isStart = false)
      (stop : token.isStop = false) (after : rest.Proper) : Proper (leaf token rest)
  | scope {start stop : Token} {content rest : Forest} (bounds : Encloses start content stop)
      (inside : content.Proper) (after : rest.Proper) : Proper (scope start content stop rest)

private theorem Proper.balancedFrom {forest : Forest} (proper : forest.Proper) (depth : Nat)
    (more : List Token) :
    balancedFrom depth (forest.tokens ++ more) = SheetFormula.balancedFrom depth more := by
  induction proper generalizing depth more with
  | nil => rfl
  | leaf start stop _ ih =>
      simp only [tokens, List.cons_append, SheetFormula.balancedFrom, start, stop,
        Bool.false_eq_true, ↓reduceIte]
      exact ih depth more
  | @scope _ stop _ _ bounds _ _ insideBalanced afterBalanced =>
      have plain : stop.isStart = false := by
        have closes := bounds.closes
        simp only [Token.isStop, beq_iff_eq] at closes
        simp [Token.isStart, closes]
      simp only [tokens, List.cons_append, SheetFormula.balancedFrom, bounds.opens, ↓reduceIte,
        List.append_assoc, insideBalanced, plain, bounds.closes, Bool.false_eq_true]
      exact afterBalanced depth more

private theorem Proper.isBalanced {forest : Forest} (proper : forest.Proper) :
    isBalanced forest.tokens = true := by
  have balanced := proper.balancedFrom 0 []
  rw [List.append_nil] at balanced
  exact balanced

end Forest

open Forest

/-- The stream closes the scopes from within: a forest before each of their stops and one after the
last.  Between the rows of an array that forest has to go on with rows. -/
def Closes : List ScopeKind → List Token → Prop
  | [], tokens => ∃ forest : Forest, forest.Proper ∧ tokens = forest.tokens
  | kind :: outer, tokens =>
      ∃ (forest : Forest) (rest : List Token), forest.Proper ∧
        tokens = forest.tokens ++ kind.stopToken :: rest ∧
          (kind = .array → forest.IsRowTail) ∧ Closes outer rest

namespace Closes

variable {scopes outer : List ScopeKind} {kind : ScopeKind} {tokens : List Token}

/-- A token or a scope before the stream joins the innermost forest. -/
theorem grow {front : List Token} {extend : Forest → Forest} (closes : Closes scopes tokens)
    (inside : ∀ outer, scopes ≠ .array :: outer)
    (proper : ∀ forest : Forest, forest.Proper → (extend forest).Proper)
    (grown : ∀ forest, (extend forest).tokens = front ++ forest.tokens) :
    Closes scopes (front ++ tokens) := by
  cases scopes with
  | nil =>
      obtain ⟨forest, forestProper, rfl⟩ := closes
      exact ⟨extend forest, proper forest forestProper, (grown forest).symm⟩
  | cons kind outer =>
      obtain ⟨forest, rest, forestProper, rfl, _, outerCloses⟩ := closes
      refine ⟨extend forest, rest, proper forest forestProper, ?_, ?_, outerCloses⟩
      · rw [grown, List.append_assoc]
      · rintro rfl
        exact (inside outer rfl).elim

private theorem leaf {token : Token} (closes : Closes scopes tokens)
    (inside : ∀ outer, scopes ≠ .array :: outer) (start : token.isStart = false)
    (stop : token.isStop = false) : Closes scopes (token :: tokens) :=
  @grow scopes tokens [token] (.leaf token) closes inside (fun _ proper => .leaf start stop proper)
    fun _ => rfl

/-- A stop with nothing before it. -/
theorem stop (closes : Closes outer tokens) : Closes (kind :: outer) (kind.stopToken :: tokens) :=
  ⟨.nil, tokens, .nil, rfl, fun _ => trivial, closes⟩

/-- The innermost scope joins the forest around it once its start is there. -/
theorem scope {start : Token} (closes : Closes (kind :: outer) tokens)
    (inside : ∀ further, outer ≠ .array :: further)
    (bounds : ∀ forest : Forest, Encloses start forest kind.stopToken) :
    Closes outer (start :: tokens) := by
  obtain ⟨forest, rest, proper, rfl, _, outerCloses⟩ := closes
  have joined := @grow outer rest (start :: (forest.tokens ++ [kind.stopToken]))
    (.scope start forest kind.stopToken) outerCloses inside
    (fun _ after => .scope (bounds forest) proper after) (by simp [tokens])
  simpa using joined

/-- The rows of an array from the start of one of them on. -/
theorem rows (closes : Closes (.arrayRow :: .array :: outer) tokens) :
    ∃ (forest : Forest) (rest : List Token), forest.Proper ∧ forest.IsRows ∧
      ScopeKind.arrayRow.startToken arrayRowName :: tokens =
        forest.tokens ++ ScopeKind.array.stopToken :: rest ∧ Closes outer rest := by
  obtain ⟨content, _, proper, rfl, _, tail, rest, tailProper, rfl, isTail, outerCloses⟩ := closes
  refine ⟨.scope (ScopeKind.arrayRow.startToken arrayRowName) content ScopeKind.arrayRow.stopToken
    tail, rest, .scope ⟨rfl, rfl, rfl, nofun, fun _ => rfl⟩ proper tailProper,
    isRows_scope.mpr ⟨rfl, isTail rfl⟩, ?_, outerCloses⟩
  simp [Forest.tokens]

/-- An array joins the forest around it once its start and that of its first row are there. -/
theorem array (closes : Closes (.arrayRow :: .array :: outer) tokens)
    (inside : ∀ further, outer ≠ .array :: further) :
    Closes outer (ScopeKind.array.startToken arrayName ::
      ScopeKind.arrayRow.startToken arrayRowName :: tokens) := by
  obtain ⟨forest, rest, proper, isRows, same, outerCloses⟩ := closes.rows
  rw [same]
  have joined := @grow outer rest
    (ScopeKind.array.startToken arrayName :: (forest.tokens ++ [ScopeKind.array.stopToken]))
    (.scope (ScopeKind.array.startToken arrayName) forest ScopeKind.array.stopToken) outerCloses
    inside (fun _ after => .scope ⟨rfl, rfl, rfl, fun _ => ⟨rfl, isRows⟩, nofun⟩ proper after)
    (by simp [Forest.tokens])
  simpa using joined

/-- A semicolon between two rows. -/
theorem nextRow (closes : Closes (.arrayRow :: .array :: outer) tokens) :
    Closes (.arrayRow :: .array :: outer)
      (ScopeKind.arrayRow.stopToken :: argumentToken ';' ::
        ScopeKind.arrayRow.startToken arrayRowName :: tokens) := by
  obtain ⟨forest, rest, proper, isRows, same, outerCloses⟩ := closes.rows
  rw [same]
  refine stop ⟨.leaf (argumentToken ';') forest, rest, .leaf rfl rfl proper, rfl, fun _ => ?_,
    outerCloses⟩
  exact ⟨rfl, isRows⟩

end Closes

/-- An array is never the innermost open scope. -/
theorem Stacked.not_array {scopes : List ScopeKind} (stacked : Stacked scopes)
    (outer : List ScopeKind) : scopes ≠ .array :: outer := by
  cases stacked <;> nofun

/-- A stream that closes all scopes it finds open is the stream of such forests. -/
theorem Leads.closes {convention : Convention} {plain : Token → Prop} {called : List Char → Prop}
    {scopes last : List ScopeKind} {tokens : List Token}
    (course : Leads convention plain called scopes tokens last) (closed : last = [])
    (bare : ∀ token, plain token → token.isStart = false ∧ token.isStop = false)
    (stacked : Stacked scopes) : Closes scopes tokens := by
  have unbounded (name : List Char) (content : Forest) :
      Encloses (ScopeKind.function.startToken name) content ScopeKind.function.stopToken :=
    ⟨rfl, rfl, rfl, nofun, nofun⟩
  induction course with
  | done =>
      subst closed
      exact ⟨.nil, .nil, rfl⟩
  | plain held _ ih =>
      obtain ⟨start, stop⟩ := bare _ held
      exact (ih closed stacked).leaf stacked.not_array start stop
  | argument _ _ ih => exact (ih closed stacked).leaf stacked.not_array rfl rfl
  | union _ _ ih => exact (ih closed stacked).leaf stacked.not_array rfl rfl
  | call _ _ ih => exact (ih closed (.call stacked)).scope stacked.not_array (unbounded _)
  | group _ ih =>
      exact (ih closed (.group stacked)).scope stacked.not_array
        fun _ => ⟨rfl, rfl, rfl, nofun, nofun⟩
  | callEnd _ ih => cases stacked with | call outer => exact (ih closed outer).stop
  | groupEnd _ ih => cases stacked with | group outer => exact (ih closed outer).stop
  | array _ ih => exact (ih closed (.row stacked)).array stacked.not_array
  | nextRow _ _ ih => exact (ih closed stacked).nextRow
  | arrayEnd _ ih => cases stacked with | row outer => exact (ih closed outer).stop.stop

/-- The plain tokens of a finished stream neither open nor close a scope. -/
theorem IsFinished.bare {convention : Convention} {word code : List Char → Prop} {token : Token}
    (finished : IsFinished convention word code token) :
    token.isStart = false ∧ token.isStop = false := by
  cases finished.1 with
  | @word text held =>
      rcases classify_cases convention text with sort | sort | sort <;> rw [sort] <;>
        exact ⟨rfl, rfl⟩
  | _ => exact ⟨rfl, rfl⟩

/-- Whatever a formula is, the scan leaves a raw stream that closes every scope it opens. -/
theorem streamOf_scanFormula {convention : Convention} {formula : List Char} {scanner : Scanner}
    (scanned : scanFormula convention formula = .ok scanner) :
    StreamOf convention (IsRaw (fun _ => True) (fun _ => True)) (fun _ => True)
      scanner.finish.toList [] := by
  have sound : scanner.Sound convention (fun _ => True) :=
    (Scanner.sound_start formula).run (fun _ _ => trivial) scanned
  exact sound.finish_stream (sound.stream.mono fun _ raw => raw.weaken) sound.leftover_raw

/-- The tokens of a formula close every scope that they open. -/
theorem leads_of_tokenize {convention : Convention} {formula : List Char} {tokens : List Token}
    (read : tokenize convention formula = .ok tokens) :
    Leads convention (IsFinished convention (fun _ => True) (fun _ => True)) (fun _ => True) []
      tokens [] := by
  obtain ⟨scanner, scanned, rfl⟩ := tokenize_eq_ok.mp read
  exact (streamOf_scanFormula scanned).leads.finishStream

/-- Every number of a formula is one once it is written with a decimal point. -/
theorem isNumber_of_tokenize {convention : Convention} {formula : List Char} {tokens : List Token}
    (read : tokenize convention formula = .ok tokens) :
    ∀ token ∈ tokens, token.role = some .number →
      Operand.isNumber (Operand.withPoint convention token.value) = true := by
  refine (leads_of_tokenize read).forall_mem (fun token finished => ?_) ?_ ?_ ?_
  · cases finished.1 with
    | @word text held =>
        intro number
        have sort : Operand.classify convention text = .number := Option.some.inj number
        rw [Operand.classify] at sort
        split at sort
        · assumption
        · split at sort <;> cases sort
    | _ => simp [intersection]
  · intro c _
    exact ⟨by simp [argumentToken], by simp [unionToken]⟩
  · intro kind name
    cases kind <;> simp [ScopeKind.startToken]
  · intro kind
    cases kind <;> simp [ScopeKind.stopToken]

/-- The tokens of a formula are the stream of a proper forest. -/
theorem forest_of_tokenize {convention : Convention} {formula : List Char} {tokens : List Token}
    (read : tokenize convention formula = .ok tokens) :
    ∃ forest : Forest, forest.Proper ∧ forest.tokens = tokens := by
  obtain ⟨forest, proper, same⟩ :=
    (leads_of_tokenize read).closes rfl (fun _ finished => finished.bare) .empty
  exact ⟨forest, proper, same.symm⟩

/-- A formula that can be read has properly nested scopes: its tokens are balanced, and they are the
stream of a forest in which each stop is the stop of its start and arrays consist of rows. -/
theorem tokenize_nested {convention : Convention} {formula : List Char} {tokens : List Token}
    (read : tokenize convention formula = .ok tokens) :
    isBalanced tokens = true ∧ ∃ forest : Forest, forest.Proper ∧ forest.tokens = tokens := by
  obtain ⟨forest, proper, rfl⟩ :=
    (leads_of_tokenize read).closes rfl (fun _ finished => finished.bare) .empty
  exact ⟨proper.isBalanced, forest, proper, rfl⟩

/-- The end of the text closes a call, an array and its second row. -/
theorem tokenize_nested_unclosed :
    ∃ tokens, tokenize .us "=F(\x7b1;2".toList = .ok tokens ∧ isBalanced tokens = true ∧
      ∃ forest : Forest, forest.Proper ∧ forest.tokens = tokens := by
  have read : tokenize .us "=F(\x7b1;2".toList = .ok
      [ScopeKind.function.startToken ['F'], ScopeKind.array.startToken arrayName,
        ScopeKind.arrayRow.startToken arrayRowName, ⟨['1'], .operand, some .number⟩,
        ScopeKind.arrayRow.stopToken, argumentToken ';',
        ScopeKind.arrayRow.startToken arrayRowName, ⟨['2'], .operand, some .number⟩,
        ScopeKind.arrayRow.stopToken, ScopeKind.array.stopToken, ScopeKind.function.stopToken] := by
    rfl
  exact ⟨_, read, tokenize_nested read⟩

end SheetFormula
