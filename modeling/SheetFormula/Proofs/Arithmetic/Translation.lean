import SheetFormula.Proofs.Arithmetic.Formula

/-!
# Translated arithmetic formulas

The script of an arithmetic formula is the text of its lexemes.  These are found again in the text
unless two minus signs meet, which then are read as one lexeme that no expression has
(`Arithmetic.read?_lexemes`, `Arithmetic.read?_lexemes_eq_none`).  So the script is grouped as the
formula is exactly if minus signs are apart and every row keeps its grouping
(`toScript_grouping_iff`).
-/

namespace SheetFormula

/-- No minus sign stands before the minus sign of an operand. -/
def Joined.SignsApart {α : Type} : Joined (Marked α) → Prop
  | single operand => operand.signs ≤ 1
  | join front operator last =>
      front.SignsApart ∧ last.signs ≤ 1 ∧ (operator = .minus → last.signs = 0)

instance Joined.decidableSignsApart {α : Type} :
    (row : Joined (Marked α)) → Decidable row.SignsApart
  | single operand => inferInstanceAs (Decidable (operand.signs ≤ 1))
  | join front operator last =>
      have := decidableSignsApart front
      inferInstanceAs (Decidable (front.SignsApart ∧ last.signs ≤ 1 ∧
        (operator = .minus → last.signs = 0)))

private theorem Joined.signsApart_append {α : Type} (front row : Joined (Marked α))
    (operator : ArithmeticOperator) :
    (front.append operator row).SignsApart ↔
      front.SignsApart ∧ row.SignsApart ∧ (operator = .minus → row.first.signs = 0) := by
  induction row with
  | single operand => rfl
  | join middle second last ih =>
      simp only [append, SignsApart, ih, first]
      constructor
      · intro both
        obtain ⟨⟨before, inside, between⟩, behind⟩ := both
        exact ⟨before, ⟨inside, behind⟩, between⟩
      · intro both
        obtain ⟨before, ⟨inside, behind⟩, between⟩ := both
        exact ⟨⟨before, inside, between⟩, behind⟩

namespace Lexeme

/-- The second lexeme does not go on with the first one, except that minus signs may meet if they
are allowed to. -/
def Meets (allowed : Prop) (first second : List Char) : Prop :=
  Apart first second ∨ allowed ∧ first = ['-'] ∧ second = ['-']

/-- The lexeme begins an operand without a sign. -/
def BeginsOperand (lexeme : List Char) : Prop :=
  ∃ c ∈ lexeme.head?, isWordCharacter c = true ∨ c = '('

/-- The lexeme ends an operand. -/
def EndsOperand (lexeme : List Char) : Prop :=
  ∀ c ∈ ['+', '-', '*', '/', ')'], takes lexeme c = false

variable {allowed : Prop} {lexeme : List Char}

private theorem meets_minus : Meets allowed ['-'] ['-'] ↔ allowed := by
  have taken : ¬Apart ['-'] ['-'] := by
    intro apart
    cases apart '-' rfl
  simp [Meets, taken]

private theorem IsWord.beginsOperand (word : IsWord lexeme) : BeginsOperand lexeme := by
  obtain ⟨c, first, own⟩ := word.begins
  exact ⟨c, first, .inl own⟩

private theorem IsWord.endsOperand (word : IsWord lexeme) : EndsOperand lexeme := by
  intro c member
  apply word.ends
  simp only [List.mem_cons, List.not_mem_nil, or_false] at member
  rcases member with rfl | rfl | rfl | rfl | rfl <;> rfl

private theorem endsOperand_stop : EndsOperand [')'] := by
  intro c _
  rw [takes_mark (by decide)]
  simp [compounds]

private theorem EndsOperand.meets_operator (ends : EndsOperand lexeme)
    (operator : ArithmeticOperator) : Meets allowed lexeme operator.scriptText := by
  refine .inl fun c first => ends c ?_
  cases operator <;> obtain rfl := Option.some.inj first <;> simp

private theorem EndsOperand.meets_stop (ends : EndsOperand lexeme) :
    Meets allowed lexeme [')'] := by
  refine .inl fun c first => ends c ?_
  obtain rfl := Option.some.inj first
  simp

private theorem meets_start : Meets allowed ['('] lexeme := by
  refine .inl fun c _ => ?_
  rw [takes_mark (by decide)]
  simp [compounds]

private theorem takes_scriptText (operator : ArithmeticOperator) (c : Char) :
    takes operator.scriptText c = compounds.contains (operator.scriptText ++ [c]) := by
  cases operator <;> exact takes_mark (by decide) c

/-- Only the character of an operator goes on with an operator, and a minus only with a minus. -/
theorem takes_operator {operator : ArithmeticOperator} {c : Char}
    (taken : takes operator.scriptText c = true) :
    c ∈ ['*', '+', '-', '/'] ∧ (c = '-' → operator = .minus) := by
  rw [takes_scriptText] at taken
  cases operator with
  | divide =>
      have either : c = '/' ∨ c = '*' := by
        simpa [compounds, ArithmeticOperator.scriptText, ArithmeticOperator.sheetText] using taken
      rcases either with rfl | rfl <;> simp
  | _ => simp_all [compounds, ArithmeticOperator.scriptText, ArithmeticOperator.sheetText]

private theorem BeginsOperand.meets_operator (begins : BeginsOperand lexeme)
    (operator : ArithmeticOperator) :
    Meets allowed operator.scriptText lexeme := by
  refine .inl fun c first => ?_
  rw [← Bool.not_eq_true]
  intro taken
  obtain ⟨d, other, begins⟩ := begins
  obtain rfl : c = d := Option.mem_unique first other
  obtain ⟨mark, _⟩ := takes_operator taken
  simp only [List.mem_cons, List.not_mem_nil, or_false] at mark
  rcases mark with rfl | rfl | rfl | rfl <;> exact absurd begins (by decide)

private theorem meets_operator_minus {operator : ArithmeticOperator} :
    Meets allowed operator.scriptText ['-'] ↔ (operator = .minus → allowed) := by
  by_cases same : operator = .minus
  · subst same
    exact meets_minus.trans ⟨fun given _ => given, fun given => given rfl⟩
  · refine ⟨fun _ own => (same own).elim, fun _ => .inl fun c first => ?_⟩
    obtain rfl := Option.some.inj first
    rw [← Bool.not_eq_true]
    exact fun taken => same ((takes_operator taken).2 rfl)

/-- Signs before an operand are apart if there is at most one. -/
theorem isChain_signs {rest : List (List Char)} (begins : BeginsOperand lexeme) (count : Nat) :
    (List.replicate count ['-'] ++ lexeme :: rest).IsChain (Meets allowed) ↔
      (allowed ∨ count ≤ 1) ∧ (lexeme :: rest).IsChain (Meets allowed) := by
  induction count with
  | zero => simp
  | succ count ih =>
      cases count with
      | zero =>
          have meets : Meets allowed ['-'] lexeme := begins.meets_operator .minus
          simp [List.isChain_cons_cons, meets]
      | succ count =>
          rw [List.replicate_succ, List.replicate_succ, List.cons_append, List.cons_append,
            List.isChain_cons_cons, meets_minus, ← List.cons_append, ← List.replicate_succ, ih]
          constructor
          · intro both
            obtain ⟨own, _, chain⟩ := both
            exact ⟨.inl own, chain⟩
          · intro both
            obtain ⟨own, chain⟩ := both
            have given : allowed := own.resolve_right (by omega)
            exact ⟨given, .inl given, chain⟩

private theorem isChain_percents (ends : EndsOperand lexeme) (count : Nat) :
    (lexeme :: (List.replicate count [['/'], "100".toList]).flatten).IsChain (Meets allowed) := by
  have word : IsWord "100".toList := isWord_number rfl
  induction count generalizing lexeme with
  | zero => exact .singleton lexeme
  | succ count ih =>
      rw [List.replicate_succ, List.flatten_cons]
      refine List.isChain_cons_cons.mpr ⟨ends.meets_operator .divide, ?_⟩
      exact List.isChain_cons_cons.mpr
        ⟨word.beginsOperand.meets_operator .divide, ih word.endsOperand⟩

/-- Percent signs end an operand as the operand itself does. -/
theorem endsOperand_percents (ends : EndsOperand lexeme) (count : Nat) :
    ∀ last ∈ (lexeme :: (List.replicate count [['/'], "100".toList]).flatten).getLast?,
      EndsOperand last := by
  have word : IsWord "100".toList := isWord_number rfl
  induction count generalizing lexeme with
  | zero =>
      intro last final
      rwa [← Option.some.inj final]
  | succ count ih =>
      rw [List.replicate_succ, List.flatten_cons]
      exact ih word.endsOperand

/-- A lexeme in which nothing is blank. -/
structure IsClear (lexeme : List Char) : Prop where
  whole : IsWhole lexeme
  visible : ∀ c ∈ lexeme, Text.isBlank c = false

private theorem isClear_mark {c : Char} (visible : Text.isBlank c = false) : IsClear [c] := by
  refine ⟨⟨List.cons_ne_nil c [], rfl, trivial⟩, ?_⟩
  rwa [List.forall_mem_singleton]

private theorem isClear_scriptText (operator : ArithmeticOperator) :
    IsClear operator.scriptText := by
  cases operator with
  | power =>
      refine ⟨⟨List.cons_ne_nil _ _, rfl, rfl, trivial⟩, ?_⟩
      exact List.forall_mem_cons.mpr ⟨rfl, List.forall_mem_singleton.mpr rfl⟩
  | _ => exact isClear_mark rfl

private theorem IsWord.isClear (word : IsWord lexeme) : IsClear lexeme :=
  ⟨word.whole, word.visible⟩

private theorem isClear_percents (count : Nat) :
    ∀ lexeme ∈ (List.replicate count [['/'], "100".toList]).flatten, IsClear lexeme := by
  intro lexeme member
  obtain ⟨pair, among, own⟩ := List.mem_flatten.mp member
  obtain rfl := List.eq_of_mem_replicate among
  simp only [List.mem_cons, List.not_mem_nil, or_false] at own
  rcases own with rfl | rfl
  · exact isClear_mark rfl
  · exact (isWord_number rfl).isClear

end Lexeme

namespace Arithmetic

open Lexeme

variable {convention : Convention} {formula : Arithmetic}

/-- A formula begins with a minus sign if its first operand has one, and with that operand if
not. -/
theorem exists_head_lexemes (proper : formula.IsProper convention) :
    ∃ lexeme rest, formula.lexemes convention = lexeme :: rest ∧
      ((formula.row convention).first.signs = 0 ∧ BeginsOperand lexeme ∨
        (formula.row convention).first.signs ≠ 0 ∧ lexeme = ['-']) := by
  induction formula with
  | atom signs value percents =>
      cases signs with
      | zero => exact ⟨_, _, rfl, .inl ⟨rfl, (Atom.lexeme_spec proper).1.beginsOperand⟩⟩
      | succ signs => exact ⟨_, _, rfl, .inr ⟨Nat.succ_ne_zero signs, rfl⟩⟩
  | group signs content percents _ =>
      cases signs with
      | zero => exact ⟨_, _, rfl, .inl ⟨rfl, '(', rfl, .inr rfl⟩⟩
      | succ signs => exact ⟨_, _, rfl, .inr ⟨Nat.succ_ne_zero signs, rfl⟩⟩
  | join front operator back frontIH _ =>
      obtain ⟨lexeme, rest, same, begins⟩ := frontIH proper.1
      refine ⟨lexeme, rest ++ operator.scriptText :: back.lexemes convention, ?_, ?_⟩
      · rw [lexemes, same, List.cons_append]
      · rwa [row, Joined.first_append]

private theorem endsOperand_getLast (proper : formula.IsProper convention) :
    ∀ lexeme ∈ (formula.lexemes convention).getLast?, EndsOperand lexeme := by
  induction formula with
  | atom signs value percents =>
      rw [lexemes, List.getLast?_append_of_ne_nil _ (List.cons_ne_nil _ _)]
      exact endsOperand_percents (Atom.lexeme_spec proper).1.endsOperand percents
  | group signs content percents _ =>
      rw [lexemes, ← List.cons_append, ← List.append_assoc,
        List.getLast?_append_of_ne_nil _ (List.cons_ne_nil _ _)]
      exact endsOperand_percents endsOperand_stop percents
  | join front operator back _ backIH =>
      obtain ⟨lexeme, rest, same, _⟩ := exists_head_lexemes proper.2
      rw [lexemes, List.getLast?_append_of_ne_nil _ (List.cons_ne_nil _ _), same,
        List.getLast?_cons_cons, ← same]
      exact backIH proper.2

private theorem isChain_enclosed (proper : formula.IsProper convention) (percents : Nat)
    {allowed : Prop} :
    (['('] :: (formula.lexemes convention ++ [')'] ::
        (List.replicate percents [['/'], "100".toList]).flatten)).IsChain (Meets allowed) ↔
      (formula.lexemes convention).IsChain (Meets allowed) := by
  obtain ⟨lexeme, rest, same, _⟩ := exists_head_lexemes proper
  have last := endsOperand_getLast proper
  rw [same] at last ⊢
  rw [List.cons_append, List.isChain_cons_cons, and_iff_right meets_start, ← List.cons_append,
    List.isChain_append]
  apply and_iff_left
  refine ⟨isChain_percents endsOperand_stop percents, fun left final right first => ?_⟩
  obtain rfl := Option.some.inj first
  exact (last left final).meets_stop

private theorem isChain_join {front back : Arithmetic} (frontProper : front.IsProper convention)
    (backProper : back.IsProper convention) (operator : ArithmeticOperator) {allowed : Prop} :
    ((front.join operator back).lexemes convention).IsChain (Meets allowed) ↔
      (front.lexemes convention).IsChain (Meets allowed) ∧
        (back.lexemes convention).IsChain (Meets allowed) ∧
          (allowed ∨ (operator = .minus → (back.row convention).first.signs = 0)) := by
  obtain ⟨lexeme, rest, same, begins⟩ := exists_head_lexemes backProper
  have between : Meets allowed operator.scriptText lexeme ↔
      allowed ∨ (operator = .minus → (back.row convention).first.signs = 0) := by
    rcases begins with ⟨unsigned, begins⟩ | ⟨signed, rfl⟩
    · exact iff_of_true (begins.meets_operator operator) (.inr fun _ => unsigned)
    · rw [meets_operator_minus]
      by_cases minus : operator = .minus <;> simp [minus, signed]
  have before : ∀ left ∈ (front.lexemes convention).getLast?,
      ∀ right ∈ (operator.scriptText :: back.lexemes convention).head?,
        Meets allowed left right := by
    intro left final right first
    obtain rfl := Option.some.inj first
    exact (endsOperand_getLast frontProper left final).meets_operator operator
  rw [lexemes, List.isChain_append, and_iff_left before, same, List.isChain_cons_cons, between,
    and_comm (a := _ ∨ _)]

/-- The lexemes of a formula do not go on with each other, except for minus signs. -/
theorem isChain_lexemes (proper : formula.IsProper convention) (allowed : Prop) :
    (formula.lexemes convention).IsChain (Meets allowed) ↔
      ∀ row ∈ formula.row convention :: formula.innerRows convention,
        allowed ∨ row.SignsApart := by
  induction formula with
  | atom signs value percents =>
      obtain ⟨word, _⟩ := Atom.lexeme_spec proper
      rw [lexemes, isChain_signs word.beginsOperand,
        and_iff_left (isChain_percents word.endsOperand percents)]
      simp [innerRows, row, Joined.SignsApart]
  | group signs content percents ih =>
      have starts : BeginsOperand ['('] := ⟨'(', rfl, .inr rfl⟩
      have inside : content.IsProper convention := proper
      rw [lexemes, isChain_signs starts, isChain_enclosed inside, ih inside, innerRows]
      refine Iff.trans ?_ List.forall_mem_cons.symm
      rfl
  | join front operator back frontIH backIH =>
      rw [isChain_join proper.1 proper.2, frontIH proper.1, backIH proper.2, innerRows, row]
      simp only [List.forall_mem_cons, List.forall_mem_append, Joined.signsApart_append,
        or_and_left]
      constructor
      · intro both
        obtain ⟨⟨first, firstInner⟩, ⟨second, secondInner⟩, between⟩ := both
        exact ⟨⟨first, second, between⟩, firstInner, secondInner⟩
      · intro both
        obtain ⟨⟨first, second, between⟩, firstInner, secondInner⟩ := both
        exact ⟨⟨first, firstInner⟩, ⟨second, secondInner⟩, between⟩

private theorem isClear_lexemes (proper : formula.IsProper convention) :
    ∀ lexeme ∈ formula.lexemes convention, IsClear lexeme := by
  have signs (count : Nat) : ∀ lexeme ∈ List.replicate count ['-'], IsClear lexeme := by
    intro lexeme member
    rw [List.eq_of_mem_replicate member]
    exact isClear_mark rfl
  induction formula with
  | atom count value percents =>
      rw [lexemes, List.forall_mem_append, List.forall_mem_cons]
      exact ⟨signs count, (Atom.lexeme_spec proper).1.isClear, isClear_percents percents⟩
  | group count content percents ih =>
      rw [lexemes, List.forall_mem_append, List.forall_mem_cons, List.forall_mem_append,
        List.forall_mem_cons]
      exact ⟨signs count, isClear_mark rfl, ih proper, isClear_mark rfl, isClear_percents percents⟩
  | join front operator back frontIH backIH =>
      rw [lexemes, List.forall_mem_append, List.forall_mem_cons]
      exact ⟨frontIH proper.1, isClear_scriptText operator, backIH proper.2⟩

/-- Where minus signs are apart, the script is read as the row of the formula. -/
theorem read?_lexemes (proper : formula.IsProper convention)
    (apart : ∀ row ∈ formula.row convention :: formula.innerRows convention, row.SignsApart) :
    Script.read? (formula.lexemes convention).flatten =
      (formula.scriptRow? convention).bind fun row => row.scripted.scriptTree? := by
  have chain : (formula.lexemes convention).IsChain Apart := by
    have meets := (isChain_lexemes proper False).mpr fun row member => .inr (apart row member)
    exact meets.imp fun first second own => own.resolve_right fun other => other.1
  have nonempty : formula.lexemes convention ≠ [] := by
    obtain ⟨lexeme, rest, same, _⟩ := exists_head_lexemes proper
    rw [same]
    exact List.cons_ne_nil lexeme rest
  rw [Script.read?, split_flatten nonempty
    (fun lexeme member => (isClear_lexemes proper lexeme member).whole) chain]
  refine (congrArg (Option.bind · _) (foldlM_lexemes proper [] none)).trans ?_
  rw [Option.bind_map]
  rfl

/-- Two minus signs in a row cannot be read. -/
theorem read?_lexemes_eq_none (proper : formula.IsProper convention)
    (touching : ¬∀ row ∈ formula.row convention :: formula.innerRows convention,
      row.SignsApart) :
    Script.read? (formula.lexemes convention).flatten = none := by
  have meets : (formula.lexemes convention).IsChain fun first second =>
      Apart first second ∨ first = ['-'] ∧ second = ['-'] := by
    have chain := (isChain_lexemes proper True).mpr fun _ _ => .inl trivial
    exact chain.imp fun first second own => own.imp_right And.right
  have broken : ¬(formula.lexemes convention).IsChain Apart := by
    intro chain
    apply touching
    intro row member
    have either := (isChain_lexemes proper False).mp (chain.imp fun _ _ own => .inl own) row member
    exact either.resolve_left id
  have decrement := decrement_mem_split
    (fun lexeme member => (isClear_lexemes proper lexeme member).whole) meets broken
  rw [Script.read?, Script.ReadingState.foldlM_eq_none decrement rfl]
  rfl

/-- Nothing is trimmed from the script. -/
theorem trim_lexemes (proper : formula.IsProper convention) :
    Text.trim (formula.lexemes convention).flatten = (formula.lexemes convention).flatten := by
  have visible : ∀ c ∈ (formula.lexemes convention).flatten, Text.isBlank c = false := by
    intro c member
    obtain ⟨lexeme, own, among⟩ := List.mem_flatten.mp member
    exact (isClear_lexemes proper lexeme own).visible c among
  have trimmed := @trim_surrounded (formula.lexemes convention).flatten [] [] (by simp) (by simp)
    (fun c first => visible c (List.mem_of_head? first)) ?_
  · simpa using trimmed
  · cases final : (formula.lexemes convention).flatten.getLast? with
    | none => exact .inl (List.getLast?_eq_none_iff.mp final)
    | some c => exact .inr ⟨c, final, visible c (List.mem_of_getLast? final)⟩

/-- Reading the script gives the expression of the formula if minus signs are apart and every row
keeps its grouping. -/
theorem read?_lexemes_iff (proper : formula.IsProper convention) :
    Script.read? (formula.lexemes convention).flatten = some (formula.tree convention) ↔
      ∀ row ∈ formula.row convention :: formula.innerRows convention,
        row.SignsApart ∧ row.KeepsGrouping := by
  by_cases apart : ∀ row ∈ formula.row convention :: formula.innerRows convention, row.SignsApart
  · have same : (∀ row ∈ formula.row convention :: formula.innerRows convention,
        row.SignsApart ∧ row.KeepsGrouping) ↔
        ∀ row ∈ formula.row convention :: formula.innerRows convention, row.KeepsGrouping :=
      forall₂_congr fun row member => and_iff_right (apart row member)
    rw [read?_lexemes proper apart, same]
    rcases exists_sides convention formula with ⟨row, sides⟩ | ⟨unread, inner, member, broken⟩
    · rw [sides.script, Option.bind_some]
      exact sides.scriptTree?_iff
    · rw [unread]
      exact iff_of_false (by simp) fun keeps =>
        broken (keeps inner (List.mem_cons_of_mem _ member))
  · rw [read?_lexemes_eq_none proper apart]
    exact iff_of_false (by simp) fun both => apart fun row member => (both row member).1

end Arithmetic

/-- The script of an arithmetic formula, read as an expression, is grouped as the formula is, unless
the formula has a minus sign after a minus sign, a percent sign after a signed operand or within a
term, or a power whose base is signed, a percentage or a power. -/
theorem toScript_grouping_iff {convention : Convention} {language : ScriptLanguage}
    {text : List Char} {formula : Arithmetic}
    (read : tokenize convention text = .ok formula.tokens) :
    ∃ script, toScript convention language text = .ok script ∧
      (Script.read? script = some (formula.tree convention) ↔
        ∀ row ∈ formula.row convention :: formula.innerRows convention,
          row.SignsApart ∧ row.KeepsGrouping) := by
  have proper := Arithmetic.isProper_of_tokens (isNumber_of_tokenize read)
  have outside : Script.IsPlain [] := by
    intro frame first
    cases first
  have written : Script.textFrom convention [] formula.tokens =
      (formula.lexemes convention).flatten := by
    simpa [Script.textFrom] using @Arithmetic.textFrom_tokens convention [] formula outside []
  refine ⟨(formula.lexemes convention).flatten, ?_, Arithmetic.read?_lexemes_iff proper⟩
  rw [Script.toScript_eq read, written, Arithmetic.trim_lexemes proper]

/-- Percentages at the beginning of a term, and powers of sums with a signed exponent. -/
theorem toScript_grouping_iff_nested :
    tokenize .us "=5%*(-A1+2)^-b2-(3%)^2".toList =
        .ok (Arithmetic.join (.join (.join (.atom 0 (.number ['5']) 1) .times
          (.group 0 (.join (.atom 1 (.reference "A1".toList ⟨0, 0⟩ rfl) 0) .plus
            (.atom 0 (.number ['2']) 0)) 0)) .power
          (.atom 1 (.reference "b2".toList ⟨1, 1⟩ rfl) 0)) .minus
          (.join (.group 0 (.atom 0 (.number ['3']) 1) 0) .power
            (.atom 0 (.number ['2']) 0))).tokens ∧
      toScript .us .javaScript "=5%*(-A1+2)^-b2-(3%)^2".toList =
        .ok "5/100*(-A1+2)**-b2-(3/100)**2".toList ∧
      Script.read? "5/100*(-A1+2)**-b2-(3/100)**2".toList =
        some (.binary .minus
          (.binary .times (.percent (.number ['5']))
            (.binary .power (.binary .plus (.negate (.cell ⟨0, 0⟩)) (.number ['2']))
              (.negate (.cell ⟨1, 1⟩))))
          (.binary .power (.percent (.number ['3'])) (.number ['2']))) := by
  have read : tokenize .us "=5%*(-A1+2)^-b2-(3%)^2".toList =
      .ok (Arithmetic.tokens (.join (.join (.join (.atom 0 (.number ['5']) 1) .times
        (.group 0 (.join (.atom 1 (.reference "A1".toList ⟨0, 0⟩ rfl) 0) .plus
          (.atom 0 (.number ['2']) 0)) 0)) .power
        (.atom 1 (.reference "b2".toList ⟨1, 1⟩ rfl) 0)) .minus
        (.join (.group 0 (.atom 0 (.number ['3']) 1) 0) .power
          (.atom 0 (.number ['2']) 0)))) := by
    rfl
  obtain ⟨script, written, grouped⟩ := @toScript_grouping_iff .us .javaScript _ _ read
  obtain rfl : "5/100*(-A1+2)**-b2-(3/100)**2".toList = script := Except.ok.inj written
  exact ⟨read, written, grouped.mpr (by decide)⟩

/-- The power of a power is written as a power whose exponent is a power. -/
theorem toScript_power_of_power :
    tokenize .us "=2^3^2".toList =
        .ok (Arithmetic.join (.join (.atom 0 (.number ['2']) 0) .power
          (.atom 0 (.number ['3']) 0)) .power (.atom 0 (.number ['2']) 0)).tokens ∧
      Arithmetic.tree .us (.join (.join (.atom 0 (.number ['2']) 0) .power
          (.atom 0 (.number ['3']) 0)) .power (.atom 0 (.number ['2']) 0)) =
        .binary .power (.binary .power (.number ['2']) (.number ['3'])) (.number ['2']) ∧
      toScript .us .javaScript "=2^3^2".toList = .ok "2**3**2".toList ∧
      Script.read? "2**3**2".toList =
        some (.binary .power (.number ['2'])
          (.binary .power (.number ['3']) (.number ['2']))) := by
  exact ⟨rfl, rfl, rfl, rfl⟩

end SheetFormula
