import SheetFormula.Proofs.Arithmetic.Reading
import SheetFormula.Proofs.Cell.Rectangle
import SheetFormula.Proofs.Script.Structure
import SheetFormula.Proofs.Stream.Classified

/-!
# Arithmetic formulas

An arithmetic formula joins numbers, cells and formulas in parentheses by operators, with signs
before and percent signs after them.  Its script is written token by token, without any regard to
the grouping (`Arithmetic.textFrom_tokens`), and its lexemes are read as the same row of operands
(`Arithmetic.foldlM_lexemes`).  The values of the operands are the same as well if the rows in
parentheses keep their grouping (`Arithmetic.exists_sides`).
-/

namespace SheetFormula

/-- A number or a reference to a single cell. -/
inductive Atom where
  | number (text : List Char)
  | reference (text : List Char) (cell : Cell) (read : Cell.parse? text = some cell)

namespace Atom

/-- The operand in the stream of a formula. -/
def token : Atom → Token
  | number text => ⟨text, .operand, some .number⟩
  | reference text _ _ => ⟨text, .operand, some .range⟩

def tree (convention : Convention) : Atom → ArithmeticTree
  | number text => .number (Operand.withPoint convention text)
  | reference _ cell _ => .cell cell

/-- The operand in a script: with a decimal point, and without dollar signs. -/
def lexeme (convention : Convention) : Atom → List Char
  | number text => Operand.withPoint convention text
  | reference text cell _ => if '$' ∈ text then cell.display else text

end Atom

/-- An arithmetic formula.  A row of more than two operands can be put together in several ways,
which all stand for the same formula. -/
inductive Arithmetic where
  | atom (signs : Nat) (value : Atom) (percents : Nat)
  | group (signs : Nat) (content : Arithmetic) (percents : Nat)
  | join (front : Arithmetic) (operator : ArithmeticOperator) (back : Arithmetic)

namespace Arithmetic

/-- The minus sign before an operand. -/
def minusToken : Token :=
  ⟨['-'], .prefixOperator, none⟩

/-- The percent sign after an operand. -/
def percentToken : Token :=
  ⟨['%'], .postfixOperator, none⟩

/-- The stream of the formula. -/
def tokens : Arithmetic → List Token
  | atom signs value percents =>
      List.replicate signs minusToken ++ value.token :: List.replicate percents percentToken
  | group signs content percents =>
      List.replicate signs minusToken ++ ScopeKind.subexpression.startToken [] ::
        (content.tokens ++ ScopeKind.subexpression.stopToken ::
          List.replicate percents percentToken)
  | join front operator back =>
      front.tokens ++ ⟨operator.sheetText, .infixOperator, none⟩ :: back.tokens

/-- The operands outside all parentheses, with the operators between them. -/
def row (convention : Convention) : Arithmetic → Joined (Marked ArithmeticTree)
  | atom signs value percents => .single ⟨signs, value.tree convention, percents⟩
  | group signs content percents => .single ⟨signs, (content.row convention).sheetTree, percents⟩
  | join front operator back => (front.row convention).append operator (back.row convention)

/-- The rows in parentheses. -/
def innerRows (convention : Convention) : Arithmetic → List (Joined (Marked ArithmeticTree))
  | atom _ _ _ => []
  | group _ content _ => content.row convention :: content.innerRows convention
  | join front _ back => front.innerRows convention ++ back.innerRows convention

/-- The expression that the formula is. -/
def tree (convention : Convention) (formula : Arithmetic) : ArithmeticTree :=
  (formula.row convention).sheetTree

/-- The lexemes that the tokens become, one after the other. -/
def lexemes (convention : Convention) : Arithmetic → List (List Char)
  | atom signs value percents =>
      List.replicate signs ['-'] ++ value.lexeme convention ::
        (List.replicate percents [['/'], "100".toList]).flatten
  | group signs content percents =>
      List.replicate signs ['-'] ++ ['('] ::
        (content.lexemes convention ++ [')'] ::
          (List.replicate percents [['/'], "100".toList]).flatten)
  | join front operator back =>
      front.lexemes convention ++ operator.scriptText :: back.lexemes convention

end Arithmetic

/-! ### The text of a script -/

namespace Script

variable {convention : Convention} {frames : List Frame}

/-- The frames of a place outside all scopes or directly in parentheses. -/
def IsPlain (frames : List Frame) : Prop :=
  ∀ frame ∈ frames.head?, frame = .group

private theorem IsPlain.cases (plain : IsPlain frames) :
    frames = [] ∨ ∃ outer, frames = .group :: outer := by
  cases frames with
  | nil => exact .inl rfl
  | cons frame outer =>
      obtain rfl := plain frame rfl
      exact .inr ⟨outer, rfl⟩

/-- Outside all scopes and in parentheses, operands and operators are written as they are in a call.
-/
private theorem textFrom_leaf (plain : IsPlain frames) {token : Token} (rest : List Token)
    (kind : token.kind ∈ [TokenKind.operand, .prefixOperator, .infixOperator, .postfixOperator])
    (bound : token.isStart = false ∧ token.isStop = false) :
    textFrom convention frames (token :: rest) =
      (ScriptForm.call []).leaf convention token ++ textFrom convention frames rest := by
  have free : token.isArgument = false := by
    simp only [List.mem_cons, List.not_mem_nil, or_false] at kind
    rcases kind with same | same | same | same <;> simp [Token.isArgument, same]
  have kept : (renditionStep convention frames token).2 = frames := by
    have noted : noteContent token frames = frames := by
      rcases plain.cases with rfl | ⟨outer, rfl⟩ <;> rfl
    obtain ⟨value, kind, role⟩ := token
    simp only [List.mem_cons, List.not_mem_nil, or_false] at kind
    rcases kind with rfl | rfl | rfl | rfl
    · exact noted
    · exact noted
    · cases role with
      | none => exact noted
      | some role => cases role <;> exact noted
    · exact noted
  obtain ⟨outer, holds⟩ : ∃ outer, Holds (.call []) 0 true frames outer := by
    rcases plain.cases with rfl | ⟨outer, rfl⟩
    · exact ⟨[], .outermost⟩
    · exact ⟨outer, .group⟩
  obtain ⟨text, _⟩ := holds.leaf convention bound.1 bound.2 free
  rw [textFrom, ← text]
  exact congrArg (fun after => _ ++ textFrom convention after rest) kept

private theorem textFrom_start (plain : IsPlain frames) (rest : List Token) :
    textFrom convention frames (ScopeKind.subexpression.startToken [] :: rest) =
      '(' :: textFrom convention (.group :: frames) rest := by
  rcases plain.cases with rfl | ⟨outer, rfl⟩ <;> rfl

private theorem textFrom_stop (rest : List Token) :
    textFrom convention (.group :: frames) (ScopeKind.subexpression.stopToken :: rest) =
      ')' :: textFrom convention frames rest :=
  rfl

private theorem textFrom_signs (plain : IsPlain frames) (count : Nat) (rest : List Token) :
    textFrom convention frames (List.replicate count Arithmetic.minusToken ++ rest) =
      (List.replicate count ['-']).flatten ++ textFrom convention frames rest := by
  induction count with
  | zero => rfl
  | succ count ih =>
      rw [List.replicate_succ, List.cons_append,
        textFrom_leaf plain _ (by simp [Arithmetic.minusToken]) ⟨rfl, rfl⟩, ih]
      rfl

private theorem textFrom_percents (plain : IsPlain frames) (count : Nat) (rest : List Token) :
    textFrom convention frames (List.replicate count Arithmetic.percentToken ++ rest) =
      (List.replicate count [['/'], "100".toList]).flatten.flatten ++
        textFrom convention frames rest := by
  induction count with
  | zero => rfl
  | succ count ih =>
      rw [List.replicate_succ, List.cons_append,
        textFrom_leaf plain _ (by simp [Arithmetic.percentToken]) ⟨rfl, rfl⟩, ih]
      rfl

end Script

namespace Atom

variable {convention : Convention}

private theorem leaf_token (atom : Atom) :
    (ScriptForm.call []).leaf convention atom.token = atom.lexeme convention := by
  cases atom with
  | number text => rfl
  | reference text cell read =>
      have single : CellRange.parse? text = none := by
        rw [Option.eq_none_iff_forall_ne_some]
        intro range other
        obtain ⟨left, right, _, _, ⟨rfl, _⟩, _⟩ := CellRange.parse?_eq_some_iff.mp other
        exact Cell.colon_not_mem_of_parse? read (by simp)
      change (ScriptForm.call []).rangeText text = _
      rw [ScriptForm.rangeText, single, read]
      rfl

/-- A number is one of the convention. -/
def IsProper (convention : Convention) : Atom → Prop
  | number text => Operand.isNumber (Operand.withPoint convention text) = true
  | reference _ _ _ => True

private theorem dollar_not_mem_display {cell : Cell} {text : List Char}
    (read : Cell.parse? text = some cell) :
    Cell.parse? cell.display = some cell ∧ '$' ∉ cell.display := by
  obtain ⟨column, row⟩ := Cell.bounds_of_parse? read
  have spells := Cell.spells_display column row
  refine ⟨Cell.parse?_display column row, ?_⟩
  rw [Cell.display, List.mem_append, not_or]
  constructor
  · intro member
    cases spells.alphabetic '$' member
  · intro member
    cases spells.numeric '$' member

/-- The lexeme is a word, and the operand is read back from it. -/
theorem lexeme_spec {atom : Atom} (proper : atom.IsProper convention) :
    Lexeme.IsWord (atom.lexeme convention) ∧
      ScriptSymbol.ofLexeme? (atom.lexeme convention) = some (.operand (atom.tree convention)) := by
  have bare {text : List Char} {cell : Cell} (read : Cell.parse? text = some cell)
      (plain : '$' ∉ text) :
      Lexeme.IsWord text ∧ ScriptSymbol.ofLexeme? text = some (.operand (.cell cell)) := by
    obtain ⟨word, other⟩ := Lexeme.isWord_cell read plain
    exact ⟨word, ScriptSymbol.ofLexeme?_cell other read⟩
  cases atom with
  | number text => exact ⟨Lexeme.isWord_number proper, ScriptSymbol.ofLexeme?_number proper⟩
  | reference text cell read =>
      rw [lexeme, tree]
      split
      · obtain ⟨same, plain⟩ := dollar_not_mem_display read
        exact bare same plain
      · rename_i plain
        exact bare read plain

end Atom

namespace Arithmetic

variable {convention : Convention} {frames : List Frame}

/-- The tokens are written one by one. -/
theorem textFrom_tokens (formula : Arithmetic) (plain : Script.IsPlain frames)
    (rest : List Token) :
    Script.textFrom convention frames (formula.tokens ++ rest) =
      (formula.lexemes convention).flatten ++ Script.textFrom convention frames rest := by
  induction formula generalizing frames rest with
  | atom signs value percents =>
      have operand : value.token.kind = .operand ∧ value.token.isStart = false ∧
          value.token.isStop = false := by
        cases value <;> exact ⟨rfl, rfl, rfl⟩
      rw [tokens, List.append_assoc, List.cons_append, Script.textFrom_signs plain,
        Script.textFrom_leaf plain _ (by simp [operand.1]) operand.2, value.leaf_token,
        Script.textFrom_percents plain, lexemes]
      simp only [List.flatten_append, List.flatten_cons, List.append_assoc]
  | group signs content percents ih =>
      have inner : Script.IsPlain (.group :: frames) := by
        intro frame first
        exact (Option.some.inj first).symm
      rw [tokens, List.append_assoc, List.cons_append, List.append_assoc, List.cons_append,
        Script.textFrom_signs plain, Script.textFrom_start plain, ih inner, Script.textFrom_stop,
        Script.textFrom_percents plain, lexemes]
      simp only [List.flatten_append, List.flatten_cons, List.append_assoc, List.cons_append,
        List.nil_append]
  | join front operator back frontIH backIH =>
      have infixed :
          (ScriptForm.call []).leaf convention ⟨operator.sheetText, .infixOperator, none⟩ =
            operator.scriptText := by
        cases operator <;> rfl
      rw [tokens, List.append_assoc, List.cons_append, frontIH plain,
        Script.textFrom_leaf plain _ (by simp) ⟨rfl, rfl⟩, infixed, backIH plain, lexemes]
      simp only [List.flatten_append, List.flatten_cons, List.append_assoc]

/-- All numbers in the formula are numbers of the convention. -/
def IsProper (convention : Convention) : Arithmetic → Prop
  | atom _ value _ => value.IsProper convention
  | group _ content _ => content.IsProper convention
  | join front _ back => front.IsProper convention ∧ back.IsProper convention

/-- A formula is proper if each of its number tokens holds a number of the convention. -/
theorem isProper_of_tokens {formula : Arithmetic}
    (numbers : ∀ token ∈ formula.tokens, token.role = some .number →
      Operand.isNumber (Operand.withPoint convention token.value) = true) :
    formula.IsProper convention := by
  induction formula with
  | atom signs value percents =>
      cases value with
      | number text =>
          exact numbers ⟨text, .operand, some .number⟩ (by simp [tokens, Atom.token]) rfl
      | reference text cell read => trivial
  | group signs content percents ih =>
      apply ih
      intro token member
      exact numbers token (by simp [tokens, member])
  | join front operator back frontIH backIH =>
      obtain ⟨first, others⟩ := List.forall_mem_append.mp numbers
      exact ⟨frontIH first, backIH (List.forall_mem_cons.mp others).2⟩

/-- The row that is read from the script, if the scripts in parentheses can be read. -/
def scriptRow? (convention : Convention) : Arithmetic → Option (Joined (Marked ArithmeticTree))
  | atom signs value percents => some (.single ⟨signs, value.tree convention, percents⟩)
  | group signs content percents =>
      ((content.scriptRow? convention).bind fun row => row.scripted.scriptTree?).map fun tree =>
        .single ⟨signs, tree, percents⟩
  | join front operator back =>
      (front.scriptRow? convention).bind fun first =>
        (back.scriptRow? convention).map fun second => first.append operator second

open Script in
/-- Reading the lexemes of a formula adds its row to what has been read. -/
theorem foldlM_lexemes {formula : Arithmetic} (proper : formula.IsProper convention)
    (outer : List Pending) (front : Option (Joined Signed × ArithmeticOperator)) :
    (formula.lexemes convention).foldlM ReadingState.read? ⟨outer, .before ⟨front, 0⟩⟩ =
      (formula.scriptRow? convention).map fun row =>
        ⟨outer, .after (Pending.attach front row.scripted)⟩ := by
  induction formula generalizing outer front with
  | atom signs value percents =>
      rw [lexemes, List.foldlM_append, ReadingState.foldlM_signs, Option.bind_eq_bind,
        Option.bind_some, List.foldlM_cons, ReadingState.read?_operand (Atom.lexeme_spec proper).2,
        Option.bind_eq_bind, Option.bind_some, ReadingState.foldlM_percents, Nat.zero_add,
        Pending.complete, ← Pending.attach_overHundred]
      rfl
  | group signs content percents ih =>
      rw [lexemes, List.foldlM_append, ReadingState.foldlM_signs, Option.bind_eq_bind,
        Option.bind_some, List.foldlM_cons, ReadingState.read?_opening, Option.bind_eq_bind,
        Option.bind_some, List.foldlM_append, ih proper, scriptRow?]
      cases content.scriptRow? convention with
      | none => rfl
      | some row =>
          rw [Option.map_some, Option.bind_eq_bind, Option.bind_some, List.foldlM_cons,
            ReadingState.read?_closing, Option.bind_some, Pending.attach]
          cases row.scripted.scriptTree? with
          | none => rfl
          | some tree =>
              rw [Option.map_some, Option.bind_eq_bind, Option.bind_some,
                ReadingState.foldlM_percents, Nat.zero_add, Pending.complete,
                ← Pending.attach_overHundred]
              rfl
  | join first operator second firstIH secondIH =>
      rw [lexemes, List.foldlM_append, firstIH proper.1, scriptRow?]
      cases first.scriptRow? convention with
      | none => rfl
      | some row =>
          rw [Option.map_some, Option.bind_eq_bind, Option.bind_some, List.foldlM_cons,
            ReadingState.read?_operator, Option.bind_eq_bind, Option.bind_some, secondIH proper.2,
            Option.bind_some]
          cases second.scriptRow? convention with
          | none => rfl
          | some others =>
              rw [Option.map_some, Option.map_some, Option.map_some, Joined.scripted_append,
                Pending.attach_append]
              rfl

/-- The row of the formula, with the values that it has in the sheet and in the script.  These are
the same where the rows in parentheses keep their grouping. -/
structure HasSides (convention : Convention) (formula : Arithmetic)
    (row : Joined (Marked (ArithmeticTree × ArithmeticTree))) : Prop where
  sheet : formula.row convention = row.sheetSide
  script : formula.scriptRow? convention = some row.scriptSide
  sizes : ∀ operand ∈ row.operands, operand.SameSize
  values : (∀ operand ∈ row.operands, operand.SameValue) ↔
    ∀ inner ∈ formula.innerRows convention, inner.KeepsGrouping

/-- The script groups a formula as the sheet does exactly if the row of the formula and all rows in
its parentheses keep their grouping. -/
theorem HasSides.scriptTree?_iff {formula : Arithmetic}
    {row : Joined (Marked (ArithmeticTree × ArithmeticTree))}
    (sides : HasSides convention formula row) :
    row.scriptSide.scripted.scriptTree? = some (formula.tree convention) ↔
      ∀ inner ∈ formula.row convention :: formula.innerRows convention, inner.KeepsGrouping := by
  rw [tree, List.forall_mem_cons, sides.sheet, ← sides.values, Joined.sheetSide,
    Joined.keepsGrouping_map, and_comm]
  exact Joined.agrees_iff sides.sizes

/-- A script in parentheses that cannot be read does not keep the grouping of its row. -/
theorem exists_sides (convention : Convention) (formula : Arithmetic) :
    (∃ row, HasSides convention formula row) ∨ formula.scriptRow? convention = none ∧
      ∃ inner ∈ formula.innerRows convention, ¬inner.KeepsGrouping := by
  induction formula with
  | atom signs value percents =>
      refine .inl ⟨.single ⟨signs, (value.tree convention, value.tree convention), percents⟩, rfl,
        rfl, ?_, ?_⟩
      · simp [Joined.operands, Marked.SameSize]
      · simp [Joined.operands, Marked.SameValue, innerRows]
  | group signs content percents ih =>
      rcases ih with ⟨row, sides⟩ | ⟨unread, inner, member, broken⟩
      · cases read : row.scriptSide.scripted.scriptTree? with
        | none =>
            refine .inr ⟨?_, ?_⟩
            · rw [scriptRow?, sides.script, Option.bind_some, read, Option.map_none]
            · have broken := mt sides.scriptTree?_iff.mpr (by simp [read])
              rw [innerRows]
              simpa only [not_forall, exists_prop] using broken
        | some tree =>
            refine .inl
              ⟨.single ⟨signs, (content.tree convention, tree), percents⟩, rfl, ?_, ?_, ?_⟩
            · rw [scriptRow?, sides.script, Option.bind_some, read]
              rfl
            · rw [Joined.operands, List.forall_mem_singleton, Marked.SameSize, Arithmetic.tree,
                sides.sheet]
              exact Joined.size_of_scriptTree? sides.sizes read
            · rw [Joined.operands, List.forall_mem_singleton, innerRows, ← sides.scriptTree?_iff,
                read, Option.some.injEq]
              rfl
      · refine .inr ⟨by rw [scriptRow?, unread]; rfl, inner, ?_, broken⟩
        exact List.mem_cons_of_mem _ member
  | join front operator back frontIH backIH =>
      rcases frontIH with ⟨first, firstSides⟩ | ⟨unread, inner, member, broken⟩
      · rcases backIH with ⟨second, secondSides⟩ | ⟨unread, inner, member, broken⟩
        · refine .inl ⟨first.append operator second, ?_, ?_, ?_, ?_⟩
          · rw [row, firstSides.sheet, secondSides.sheet, Joined.sheetSide_append]
          · rw [scriptRow?, firstSides.script, secondSides.script, Joined.scriptSide_append]
            rfl
          · rw [Joined.operands_append]
            exact List.forall_mem_append.mpr ⟨firstSides.sizes, secondSides.sizes⟩
          · rw [Joined.operands_append, innerRows, List.forall_mem_append, List.forall_mem_append,
              firstSides.values, secondSides.values]
        · refine .inr ⟨?_, inner, List.mem_append_right _ member, broken⟩
          rw [scriptRow?, firstSides.script, unread]
          rfl
      · refine .inr ⟨?_, inner, List.mem_append_left _ member, broken⟩
        rw [scriptRow?, unread]
        rfl

end Arithmetic

end SheetFormula
