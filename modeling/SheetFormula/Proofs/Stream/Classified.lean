import SheetFormula.Proofs.Stream.Nesting

/-!
# The verdicts of a finished stream

Three passes decide what a blank, a sign and an operand are, and each of them looks at the stream
that the one before has left: with blanks, without them, and with the plus signs that are dropped in
the end.  `Classified` states the verdicts in terms of the neighbours that a token has once all is
done, and `tokenize_classified` says that they hold of every token of every formula.
-/

namespace SheetFormula

/-- Nothing is left to decide about the token itself. -/
structure Token.IsDecided (token : Token) : Prop where
  kept : token.kind ≠ .blank ∧ token.kind ≠ .discarded
  operand : token.kind = .operand →
    ∃ role ∈ [TokenRole.text, .number, .logical, .error, .range], token.role = some role
  minus : token.kind = .prefixOperator → token.value = ['-']

/-- The token is what its neighbours make of it. -/
structure Classified (previous : Option Token) (token : Token) (next : Option Token) : Prop extends
    token.IsDecided where
  sign : token.kind = .infixOperator → token.value = ['+'] ∨ token.value = ['-'] →
    ∃ left ∈ previous,
      left.kind = .operand ∨ left.role = some .stop ∨ left.kind = .postfixOperator
  unary : token.kind = .prefixOperator → ∀ left ∈ previous,
    left.kind ≠ .operand ∧ left.role ≠ some .stop ∧ left.kind ≠ .postfixOperator
  intersect : token.role = some .intersect →
    (∃ left ∈ previous, left.kind = .operand ∨ left.role = some .stop) ∧
      ∃ right ∈ next, right.kind = .operand ∨ right.role = some .start

namespace Token

variable {token : Token}

private theorem endsValue_iff :
    token.endsValue = true ↔ token.kind = .operand ∨ token.role = some .stop := by
  simp [endsValue, isOperand, isStop]

private theorem beginsValue_iff :
    token.beginsValue = true ↔ token.kind = .operand ∨ token.role = some .start := by
  simp [beginsValue, isOperand, isStart]

/-- A token of any other kind leaves nothing to decide. -/
theorem isDecided_of_kind
    (other : token.kind ∉ [TokenKind.blank, .discarded, .operand, .prefixOperator]) :
    token.IsDecided := by
  simp only [List.mem_cons, List.not_mem_nil, or_false, not_or] at other
  obtain ⟨blank, discarded, operand, minus⟩ := other
  exact ⟨⟨blank, discarded⟩, fun same => (operand same).elim, fun same => (minus same).elim⟩

private theorem isDecided_of_operand {value : List Char} {role : TokenRole}
    (sort : role ∈ [TokenRole.text, .number, .logical, .error, .range]) :
    IsDecided ⟨value, .operand, some role⟩ :=
  ⟨⟨by simp, by simp⟩, fun _ => ⟨role, sort, rfl⟩, by simp⟩

end Token

private theorem precedesInfixSign_iff {previous : Option Token} :
    precedesInfixSign previous = true ↔ ∃ left ∈ previous,
      left.kind = .operand ∨ left.role = some .stop ∨ left.kind = .postfixOperator := by
  cases previous with
  | none => simp [precedesInfixSign]
  | some left => simp [precedesInfixSign, Token.endsValue_iff, or_assoc]

variable {convention : Convention} {formula : List Char} {tokens : List Token}

private theorem IsFinished.isDecided {word code : List Char → Prop} {token : Token}
    (finished : IsFinished convention word code token) : token.IsDecided := by
  cases finished.1 with
  | @word text held =>
      rcases classify_cases convention text with sort | sort | sort
      · exact Token.isDecided_of_operand (by simp [sort])
      · exact Token.isDecided_of_operand (by simp [sort])
      · exact Token.isDecided_of_operand (by simp [sort])
  | text content => exact Token.isDecided_of_operand (by simp)
  | code held => exact Token.isDecided_of_operand (by simp)
  | minus => exact ⟨⟨by simp, by simp⟩, by simp, fun _ => rfl⟩
  | plus => exact (finished.2 rfl).elim
  | _ => exact Token.isDecided_of_kind (by simp [intersection])

private theorem isDecided_of_tokenize (read : tokenize convention formula = .ok tokens) :
    ∀ token ∈ tokens, token.IsDecided := by
  refine (leads_of_tokenize read).forall_mem (fun token finished => finished.isDecided) ?_ ?_ ?_
  · intro c _
    exact ⟨Token.isDecided_of_kind (by simp [argumentToken]),
      Token.isDecided_of_kind (by simp [unionToken])⟩
  · intro kind name
    cases kind <;> exact Token.isDecided_of_kind (by
      simp [ScopeKind.startToken, ScopeKind.tokenKind])
  · intro kind
    cases kind <;> exact Token.isDecided_of_kind (by
      simp [ScopeKind.stopToken, ScopeKind.tokenKind])

/-- In a stream that is read from a formula, every token finds what it relies on in its neighbours.
-/
theorem linked_of_tokenize (read : tokenize convention formula = .ok tokens) :
    Linked Links none tokens := by
  obtain ⟨scanner, scanned, rfl⟩ := tokenize_eq_ok.mp read
  exact (streamOf_scanFormula scanned).linked_finishStream

/-- Each token of a linked stream stands in the relation to those before and after it. -/
theorem Linked.link_at {link : Option Token → Token → Option Token → Prop}
    {previous : Option Token} {before after : List Token} {token : Token}
    (linked : Linked link previous (before ++ token :: after)) :
    link (before.getLast?.or previous) token after.head? := by
  induction before generalizing previous with
  | nil => exact linked.1
  | cons first rest ih =>
      have last : (first :: rest).getLast?.or previous = rest.getLast?.or (some first) := by
        rw [List.getLast?_cons]
        cases rest.getLast? <;> rfl
      rw [last]
      exact ih linked.2

/-- In the tokens of a formula nothing is undecided, a sign stands between two values exactly if
something that ends a value stands before it, and an intersection stands between two values. -/
theorem tokenize_classified (read : tokenize convention formula = .ok tokens) :
    ∀ before token after, tokens = before ++ token :: after →
      Classified before.getLast? token after.head? := by
  rintro before token after rfl
  have decided := isDecided_of_tokenize read token (by simp)
  have links := (linked_of_tokenize read).link_at
  rw [Option.or_none] at links
  refine ⟨decided, fun operator sign => ?_, fun unary left member => ?_, fun intersect => ?_⟩
  · exact precedesInfixSign_iff.mp (links.sign operator sign)
  · have alone := links.unary (.inl unary)
    rw [← Bool.not_eq_true, precedesInfixSign_iff] at alone
    simpa using fun value => alone ⟨left, member, value⟩
  · obtain ⟨⟨left, leftMember, ends⟩, right, rightMember, begins⟩ := links.intersect intersect
    exact ⟨⟨left, leftMember, Token.endsValue_iff.mp ends⟩,
      ⟨right, rightMember, Token.beginsValue_iff.mp begins⟩⟩

/-- A minus after a percent sign, a minus before which a plus is dropped, and two blanks between
ranges. -/
theorem tokenize_classified_signs :
    tokenize .us "=A1% - + -(B2  C3)".toList =
        .ok [⟨"A1".toList, .operand, some .range⟩, ⟨['%'], .postfixOperator, none⟩,
          ⟨['-'], .infixOperator, none⟩, ⟨['-'], .prefixOperator, none⟩,
          ScopeKind.subexpression.startToken [], ⟨"B2".toList, .operand, some .range⟩,
          intersection, ⟨"C3".toList, .operand, some .range⟩, ScopeKind.subexpression.stopToken] ∧
      Classified (some ⟨['%'], .postfixOperator, none⟩) ⟨['-'], .infixOperator, none⟩
        (some ⟨['-'], .prefixOperator, none⟩) ∧
      Classified (some ⟨['-'], .infixOperator, none⟩) ⟨['-'], .prefixOperator, none⟩
        (some (ScopeKind.subexpression.startToken [])) ∧
      Classified (some ⟨"B2".toList, .operand, some .range⟩) intersection
        (some ⟨"C3".toList, .operand, some .range⟩) := by
  have read : tokenize .us "=A1% - + -(B2  C3)".toList =
      .ok [⟨"A1".toList, .operand, some .range⟩, ⟨['%'], .postfixOperator, none⟩,
        ⟨['-'], .infixOperator, none⟩, ⟨['-'], .prefixOperator, none⟩,
        ScopeKind.subexpression.startToken [], ⟨"B2".toList, .operand, some .range⟩,
        intersection, ⟨"C3".toList, .operand, some .range⟩, ScopeKind.subexpression.stopToken] := by
    rfl
  have classified := tokenize_classified read
  exact ⟨read, classified [_, _] _ _ rfl, classified [_, _, _] _ _ rfl,
    classified [_, _, _, _, _, _] _ _ rfl⟩

end SheetFormula
