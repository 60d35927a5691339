import SheetFormula.Proofs.Binding.Brackets

/-!
# Structure of bound formulas

A bound formula is meant to be one call of `LET` that has the formula as its last argument
(`LetBinding.IsLetOf`).  The formula is put into the call as a text, so the parentheses of the call
take part in its own brackets.  `LetBinding.bind_structure` says what can come of this: an array at
the end of the formula hides the parenthesis that closes the call, a parenthesis that closes nothing
in the formula closes the call, and unions directly in the formula become separators of the call.
Everything else keeps its place.
-/

namespace SheetFormula

open SheetFormula.Bracket

variable {convention : Convention}

/-- The formula ends directly in a row of an array. -/
def EndsInArray (convention : Convention) (formula : List Char) : Prop :=
  ∃ scanner, scanFormula convention formula = .ok scanner ∧
    scanner.kinds.head? = some .arrayRow

/-- The formula has a closing parenthesis where no scope is open. -/
def ClosesNothing (convention : Convention) (formula : List Char) : Prop :=
  ∃ before rest scanner, formulaBody formula = before ++ ')' :: rest ∧
    (Scanner.start formula).run convention before = .ok scanner ∧
      scanner.literal = .outside ∧ scanner.scopes = []

private theorem endsInArray_iff {formula : List Char} {scanner : Scanner}
    (scanned : scanFormula convention formula = .ok scanner) :
    EndsInArray convention formula ↔ scanner.brackets.head? = some .curly := by
  have stacked := (Scanner.sound_of_run scanned).stream.leads.stacked .empty
  rw [Scanner.brackets, Bracket.ofKinds_head? stacked]
  constructor
  · rintro ⟨other, same, innermost⟩
    rw [scanned] at same
    exact Except.ok.inj same ▸ innermost
  · exact fun innermost => ⟨scanner, scanned, innermost⟩

/-- A formula that is refused alone and not in parentheses closes these parentheses. -/
theorem closesNothing_of_follow {formula : List Char} {left : List Mark} {last : List Bracket}
    (refused : follow convention .outside [] (formulaBody formula) = none)
    (followed : follow convention .outside [.round] (formulaBody formula) = some (left, last)) :
    ClosesNothing convention formula := by
  obtain ⟨before, rest, marks, split, reached, outside⟩ := exists_early refused followed
  cases ran : (Scanner.start formula).run convention before with
  | error error =>
      have unread := Scanner.follow_of_refused (Scanner.sound_start formula) ran
      rw [show follow convention .outside [] before = none from unread] at reached
      cases reached
  | ok scanner =>
      obtain ⟨_, same, _⟩ := Scanner.run_follow (Scanner.sound_start formula) ran
      have here := Scanner.run_literal ran
      rw [show follow convention .outside [] before = some (_, scanner.brackets) from same]
        at reached
      have none : scanner.brackets = [] := (Prod.mk.inj (Option.some.inj reached)).2
      have stacked := (Scanner.sound_of_run ran).stream.leads.stacked .empty
      have empty : scanner.kinds = [] := (ofKinds_eq_nil stacked).mp none
      exact ⟨before, rest, scanner, split, ran, here.trans outside, List.map_eq_nil_iff.mp empty⟩

namespace LetBinding

variable {table : List Mapping} {formula bound : List Char}

private theorem closed_bindings {mappings : List Mapping}
    (ranges : ∀ mapping ∈ mappings, IsRangeText convention mapping.identifier ∧
      IsRangeText convention mapping.location) :
    Literal.outside.after (mappings.flatMap (binding convention)) = .outside := by
  have between : Literal.outside.after (separator convention) = .outside := by
    cases convention <;> rfl
  induction mappings with
  | nil => rfl
  | cons mapping mappings ih =>
      obtain ⟨⟨identifier, location⟩, others⟩ := List.forall_mem_cons.mp ranges
      simp only [List.flatMap_cons, binding, Literal.after_append, identifier.closed, between,
        location.closed, ih others]

/-- The tokens of a bound formula begin with a call and end with a stop. -/
theorem ends_bound {boundTokens : List Token}
    (ranges : ∀ mapping ∈ table, IsRangeText convention mapping.identifier ∧
      IsRangeText convention mapping.location)
    (closed : Literal.outside.after (substituted table formula) = .outside)
    (result : bind convention table formula = .ok bound) (present : used table formula ≠ [])
    (readBound : tokenize convention bound = .ok boundTokens) :
    boundTokens.head? = some (ScopeKind.function.startToken "LET".toList) ∧
      ∃ kind, boundTokens.getLast? = some (ScopeKind.stopToken kind) := by
  obtain ⟨scanner, scanned, rfl⟩ := tokenize_eq_ok.mp readBound
  rw [scanFormula, bound_eq result present, ← List.append_assoc _ _ ")".toList] at scanned
  obtain ⟨opened, call, others⟩ := Scanner.run_append_eq_ok.mp scanned
  obtain ⟨inside, content, close⟩ := Scanner.run_append_eq_ok.mp others
  change inside.run convention [')'] = .ok scanner at close
  obtain ⟨final, step, last⟩ := Scanner.run_cons_eq_ok.mp close
  obtain rfl : final = scanner := Except.ok.inj last
  have outside : inside.literal = .outside := by
    have bindings := @closed_bindings _ (used table formula) fun mapping member =>
      ranges mapping (used_subset member)
    rw [Scanner.run_literal content, Scanner.run_literal call,
      show (Scanner.start bound).literal.after "LET(".toList = .outside from rfl,
      Literal.after_append, bindings, closed_trim closed]
  constructor
  · have start : ((Scanner.start bound).run convention "LET(".toList).map
        (fun scanner => scanner.emitted.toList) =
          .ok [ScopeKind.function.startToken "LET".toList] := by
      cases convention <;> rfl
    rw [call] at start
    have first : opened.emitted.toList = _ := Except.ok.inj start
    obtain ⟨added, grown⟩ := (Scanner.sound_of_run call).emitted_grows others
    rw [Scanner.finish_toList, ← grown, first]
    exact head?_finishStream rfl
  · obtain ⟨front, kind, finished⟩ := Scanner.finish_parenthesis outside step
    rw [finished]
    exact ⟨kind, getLast?_finishStream kind⟩

/-- The second stream is a call of `LET`, in which two separators for each mapping stand before the
scopes and separators of the first.  Directly in the call, the unions of the first separate as
well. -/
def IsLetOf (mappings : Nat) (tokens boundTokens : List Token) : Prop :=
  ∃ content forest : Forest, ∃ stop,
    (Forest.scope (ScopeKind.function.startToken "LET".toList) content stop .nil).Proper ∧
    (Forest.scope (ScopeKind.function.startToken "LET".toList) content stop .nil).tokens =
      boundTokens ∧
    forest.Proper ∧ forest.tokens = tokens ∧
    marks content.tokens = List.replicate (2 * mappings) .separates ++ marks tokens ∧
    content.separators = 2 * mappings + forest.unions

section Bound

variable (ranges : ∀ mapping ∈ table, IsRangeText convention mapping.identifier ∧
    IsRangeText convention mapping.location)
  (ends : Literal.outside.after (formulaBody formula) = .outside)
  (clear : Literal.outside.clears table [.text, .path, .bracket]
    (Piece.ofFormula (body formula)) = true)
  (result : bind convention table formula = .ok bound) (present : used table formula ≠ [])

include ranges ends clear result present

/-- A formula that can be read can be read when it is bound, unless it ends in an array. -/
theorem readable_bound_iff {scanner : Scanner}
    (scanned : scanFormula convention formula = .ok scanner) :
    (∃ tokens, tokenize convention bound = .ok tokens) ↔ ¬EndsInArray convention formula := by
  obtain ⟨left, followed, _⟩ := follow_of_scan scanned
  rw [follow_body ends] at followed
  have lifted := follow_lift followed
  rw [readable_iff, follow_bound ranges ends clear result present, Option.isSome_map,
    endsInArray_iff scanned, Option.isSome_iff_exists, ← ne_eq, ← Bracket.exists_outer]
  constructor
  · rintro ⟨⟨marks, last⟩, reached⟩
    obtain ⟨_, same, _⟩ := (follow_close (closed_body ends)).mp reached
    exact ⟨last, (Prod.mk.inj (Option.some.inj (lifted.symm.trans same))).2⟩
  · rintro ⟨last, outer⟩
    rw [List.nil_append, outer] at lifted
    exact ⟨_, (follow_close (closed_body ends)).mpr ⟨left, lifted, rfl⟩⟩

/-- A formula that can be read only when it is bound closes a scope that is not open. -/
theorem closesNothing_of_bound {error : FormulaError} {boundTokens : List Token}
    (refused : tokenize convention formula = .error error)
    (readBound : tokenize convention bound = .ok boundTokens) :
    ClosesNothing convention formula := by
  have followed := readable_iff.mp ⟨boundTokens, readBound⟩
  rw [follow_bound ranges ends clear result present, Option.isSome_map,
    Option.isSome_iff_exists] at followed
  obtain ⟨⟨left, last⟩, reached⟩ := followed
  obtain ⟨marks, around, _⟩ := (follow_close (closed_body ends)).mp reached
  rw [← follow_body ends] at around
  exact closesNothing_of_follow (follow_of_error refused) around

/-- Around the marks of a formula, binding adds those of a call with two separators for each
mapping. -/
theorem marks_bound {tokens boundTokens : List Token}
    (read : tokenize convention formula = .ok tokens)
    (readBound : tokenize convention bound = .ok boundTokens) :
    marks boundTokens =
      .opens :: (List.replicate (2 * (used table formula).length) .separates ++ marks tokens ++
        [.closes]) := by
  obtain ⟨scanner, scanned, rfl⟩ := tokenize_eq_ok.mp read
  obtain ⟨boundScanner, boundScanned, rfl⟩ := tokenize_eq_ok.mp readBound
  obtain ⟨left, followed, marked⟩ := follow_of_scan scanned
  obtain ⟨boundLeft, boundFollowed, boundMarked⟩ := follow_of_scan boundScanned
  rw [follow_body ends] at followed
  have lifted := follow_lift followed
  rw [follow_bound ranges ends clear result present] at boundFollowed
  obtain ⟨⟨inner, last⟩, reached, same⟩ := Option.map_eq_some_iff.mp boundFollowed
  obtain ⟨rfl, rfl⟩ := Prod.mk.inj same
  obtain ⟨_, around, rfl⟩ := (follow_close (closed_body ends)).mp reached
  obtain ⟨rfl, outer⟩ := Prod.mk.inj (Option.some.inj (lifted.symm.trans around))
  have stops : Mark.closes :: closers boundScanner.brackets =
      closers scanner.brackets ++ [.closes] := by
    simpa [closers, Bracket.scopes] using (congrArg closers outer).symm
  rw [boundMarked, marked]
  simp [stops]

/-- What a bound formula is read as, in terms of what the formula is read as. -/
theorem isLetOf_bound {tokens boundTokens : List Token}
    (read : tokenize convention formula = .ok tokens)
    (readBound : tokenize convention bound = .ok boundTokens) :
    IsLetOf (used table formula).length tokens boundTokens := by
  have marked := marks_bound ranges ends clear result present read readBound
  have closed := closed_substituted clear
    (fun mapping listed => (ranges mapping listed).1.closed) ends result
  obtain ⟨first, kind, last⟩ := ends_bound ranges closed result present readBound
  have divided := (leads_of_tokenize read).divided fun _ finished =>
    ⟨finished.bare, finished.unmarked⟩
  have boundDivided := (leads_of_tokenize readBound).divided fun _ finished =>
    ⟨finished.bare, finished.unmarked⟩
  obtain ⟨whole, wholeProper, rfl⟩ := forest_of_tokenize readBound
  obtain ⟨forest, proper, rfl⟩ := forest_of_tokenize read
  have behind : Mark.behind 0 (List.replicate (2 * (used table formula).length) .separates ++
      marks forest.tokens ++ [.closes]) = some [] := by
    rw [List.append_assoc, Mark.behind_separators, proper.behind]
    rfl
  have stops : kind.stopToken.isStop = true := by cases kind <;> rfl
  obtain ⟨content, stop, rfl, inside, same⟩ :=
    wholeProper.exists_scope first rfl last stops marked behind
  refine ⟨content, forest, stop, wholeProper, rfl, proper, rfl, same, ?_⟩
  -- Levels count unions and arguments alike, but the call has no unions directly in it, and
  -- outside of all scopes the formula has no arguments.
  have noUnions : content.unions = 0 := by
    change Divided [true] (content.tokens ++ [stop]) at boundDivided
    exact (inside.of_divided boundDivided).1 rfl
  have noArguments : forest.separators = 0 := by
    rw [← List.append_nil forest.tokens] at divided
    exact (proper.of_divided divided).2.1 (by simp)
  have level := inside.level 0 []
  rw [List.append_nil, same, Mark.level_separators, ← List.append_nil (marks forest.tokens),
    proper.level, if_pos rfl, if_pos rfl, noUnions, noArguments] at level
  simpa [Mark.level] using level.symm

end Bound

/-- A bound formula can be read if the formula can be read and does not end in an array, and
conversely the formula can be read if it does not close a scope too early.  The stream of the bound
formula is then one call.  Two separators for each mapping stand before the scopes and separators of
the formula, and what unites ranges in the formula divides arguments in the call. -/
theorem bind_structure
    (ranges : ∀ mapping ∈ table, IsRangeText convention mapping.identifier ∧
      IsRangeText convention mapping.location)
    (ends : Literal.outside.after (formulaBody formula) = .outside)
    (clear : Literal.outside.clears table [.text, .path, .bracket]
      (Piece.ofFormula (body formula)) = true)
    (result : bind convention table formula = .ok bound) (present : used table formula ≠ []) :
    (∀ tokens, tokenize convention formula = .ok tokens →
      ((∃ boundTokens, tokenize convention bound = .ok boundTokens) ↔
        ¬EndsInArray convention formula)) ∧
    (∀ boundTokens, tokenize convention bound = .ok boundTokens →
      (∃ tokens, tokenize convention formula = .ok tokens) ∨ ClosesNothing convention formula) ∧
    ∀ tokens boundTokens, tokenize convention formula = .ok tokens →
      tokenize convention bound = .ok boundTokens →
        IsLetOf (used table formula).length tokens boundTokens := by
  refine ⟨fun tokens read => ?_, fun boundTokens readBound => ?_,
    fun tokens boundTokens => isLetOf_bound ranges ends clear result present⟩
  · obtain ⟨scanner, scanned, _⟩ := tokenize_eq_ok.mp read
    exact readable_bound_iff ranges ends clear result present scanned
  · cases read : tokenize convention formula with
    | ok tokens => exact .inl ⟨tokens, rfl⟩
    | error error =>
        exact .inr (closesNothing_of_bound ranges ends clear result present read readBound)

/-- Two references in a call that has an array and a union in parentheses. -/
theorem bind_structure_nested :
    ∃ bound tokens boundTokens,
      (∀ mapping ∈ ([⟨"Due Date".toList, "'a b'!C:C".toList, none, none⟩,
          ⟨"Status".toList, "B:B".toList, none, none⟩] : List Mapping),
        IsRangeText .us mapping.identifier ∧ IsRangeText .us mapping.location) ∧
      Literal.outside.after
        (formulaBody "=F([Due Date]@row,\x7b1;2\x7d,(A1,Status@row))".toList) = .outside ∧
      Literal.outside.clears [⟨"Due Date".toList, "'a b'!C:C".toList, none, none⟩,
          ⟨"Status".toList, "B:B".toList, none, none⟩] [.text, .path, .bracket]
        (Piece.ofFormula (body "=F([Due Date]@row,\x7b1;2\x7d,(A1,Status@row))".toList)) = true ∧
      bind .us [⟨"Due Date".toList, "'a b'!C:C".toList, none, none⟩,
          ⟨"Status".toList, "B:B".toList, none, none⟩]
        "=F([Due Date]@row,\x7b1;2\x7d,(A1,Status@row))".toList = .ok bound ∧
      ¬EndsInArray .us "=F([Due Date]@row,\x7b1;2\x7d,(A1,Status@row))".toList ∧
      tokenize .us "=F([Due Date]@row,\x7b1;2\x7d,(A1,Status@row))".toList = .ok tokens ∧
      tokenize .us bound = .ok boundTokens ∧ IsLetOf 2 tokens boundTokens := by
  have ranges : ∀ mapping ∈ ([⟨"Due Date".toList, "'a b'!C:C".toList, none, none⟩,
      ⟨"Status".toList, "B:B".toList, none, none⟩] : List Mapping),
      IsRangeText .us mapping.identifier ∧ IsRangeText .us mapping.location := by
    refine List.forall_mem_cons.mpr ⟨⟨⟨⟨_, rfl⟩, rfl⟩, ⟨_, rfl⟩, rfl⟩, ?_⟩
    exact List.forall_mem_singleton.mpr ⟨⟨⟨_, rfl⟩, rfl⟩, ⟨_, rfl⟩, rfl⟩
  have result : bind .us [⟨"Due Date".toList, "'a b'!C:C".toList, none, none⟩,
        ⟨"Status".toList, "B:B".toList, none, none⟩]
      "=F([Due Date]@row,\x7b1;2\x7d,(A1,Status@row))".toList =
    .ok "=LET(_Due_Date, 'a b'!C:C, _Status, B:B, F(_Due_Date,\x7b1;2\x7d,(A1,_Status)))".toList :=
    rfl
  have read : ∃ tokens,
      tokenize .us "=F([Due Date]@row,\x7b1;2\x7d,(A1,Status@row))".toList = .ok tokens :=
    ⟨_, rfl⟩
  have whole : ¬EndsInArray .us "=F([Due Date]@row,\x7b1;2\x7d,(A1,Status@row))".toList := by
    rintro ⟨scanner, scanned, inside⟩
    obtain rfl := Except.ok.inj scanned
    cases inside
  obtain ⟨readable, _, isLet⟩ := bind_structure ranges rfl rfl result (by decide)
  obtain ⟨tokens, read⟩ := read
  obtain ⟨boundTokens, readBound⟩ := (readable tokens read).mpr whole
  exact ⟨_, tokens, boundTokens, ranges, rfl, rfl, result, whole, read, readBound,
    isLet tokens boundTokens read readBound⟩

/-- In an array the added parenthesis closes nothing, the union of a whole formula becomes a
separator, and an early parenthesis of the formula is taken for the added one. -/
theorem bind_structure_unkept :
    (bind .us [⟨"Status".toList, "B:B".toList, none, none⟩] "=\x7bStatus@row".toList =
        .ok "=LET(_Status, B:B, \x7b_Status)".toList ∧
      (tokenize .us "=\x7bStatus@row".toList).isOk = true ∧
      (tokenize .us "=LET(_Status, B:B, \x7b_Status)".toList).isOk = false) ∧
    (bind .us [⟨"Status".toList, "B:B".toList, none, none⟩] "=Status@row,A1".toList =
        .ok "=LET(_Status, B:B, _Status,A1)".toList ∧
      tokenize .us "=Status@row,A1".toList =
        .ok [⟨"Status@row".toList, .operand, some .range⟩,
          ⟨[','], .infixOperator, some .union⟩, ⟨"A1".toList, .operand, some .range⟩] ∧
      tokenize .us "=LET(_Status, B:B, _Status,A1)".toList =
        .ok [ScopeKind.function.startToken "LET".toList, ⟨"_Status".toList, .operand, some .range⟩,
          argumentToken ',', ⟨"B:B".toList, .operand, some .range⟩, argumentToken ',',
          ⟨"_Status".toList, .operand, some .range⟩, argumentToken ',',
          ⟨"A1".toList, .operand, some .range⟩, ScopeKind.function.stopToken]) ∧
    bind .us [⟨"Status".toList, "B:B".toList, none, none⟩] "=Status@row)+(1".toList =
        .ok "=LET(_Status, B:B, _Status)+(1)".toList ∧
      (tokenize .us "=Status@row)+(1".toList).isOk = false ∧
      (tokenize .us "=LET(_Status, B:B, _Status)+(1)".toList).isOk = true := by
  exact ⟨⟨rfl, rfl, rfl⟩, ⟨rfl, rfl, rfl⟩, rfl, rfl, rfl⟩

end LetBinding

end SheetFormula
