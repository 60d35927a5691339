import SheetFormula.Operand
import SheetFormula.Proofs.Arithmetic.Grouping
import SheetFormula.Proofs.Cell.Reference
import SheetFormula.Text.Blank

/-!
# Reading a script

`Script.read?` reads an arithmetic expression of a script from its characters.  The text is cut into
lexemes, each as long as it can be, so that two minus signs in a row are one lexeme and not two
signs.  The lexemes are then read from the left, with a stack for the open parentheses.
-/

namespace SheetFormula

namespace ArithmeticOperator

/-- The operator as a sheet has it. -/
def sheetText : ArithmeticOperator → List Char
  | plus => ['+']
  | minus => ['-']
  | times => ['*']
  | divide => ['/']
  | power => ['^']

/-- The operator as a script has it. -/
def scriptText : ArithmeticOperator → List Char
  | power => ['*', '*']
  | operator => operator.sheetText

end ArithmeticOperator

namespace Lexeme

/-- The characters of numbers and names. -/
def isWordCharacter (c : Char) : Bool :=
  c.isAlphanum || c == '.'

/-- The lexemes of two characters that begin with the character of an operator. -/
def compounds : List (List Char) :=
  ["**".toList, "++".toList, "--".toList, "//".toList, "/*".toList]

/-- A number up to and including its exponent mark. -/
def awaitsSign (lexeme : List Char) : Bool :=
  lexeme.head?.any (fun c => c.isDigit || c == '.') && lexeme.getLast?.any Operand.isExponentMark

/-- The character belongs to the lexeme before it. -/
def takes : (lexeme : List Char) → Char → Bool
  | [], _ => true
  | first :: rest, c =>
      if isWordCharacter first then
        isWordCharacter c || ((c == '+' || c == '-') && awaitsSign (first :: rest))
      else compounds.contains (first :: rest ++ [c])

/-- The lexemes of a text that follows the beginning of a lexeme. -/
def splitFrom (lexeme : List Char) : List Char → List (List Char)
  | [] => [lexeme]
  | c :: rest =>
      if takes lexeme c then splitFrom (lexeme ++ [c]) rest else lexeme :: splitFrom [c] rest

/-- The lexemes of a text. -/
def split (text : List Char) : List (List Char) :=
  splitFrom [] text

/-- All of the text belongs to the lexeme before it. -/
def Absorbs (lexeme : List Char) : List Char → Prop
  | [] => True
  | c :: rest => takes lexeme c = true ∧ Absorbs (lexeme ++ [c]) rest

/-- The text is a lexeme, or the beginning of one. -/
def IsWhole (lexeme : List Char) : Prop :=
  lexeme ≠ [] ∧ Absorbs [] lexeme

/-- The second lexeme does not go on with the first one. -/
def Apart (first second : List Char) : Prop :=
  ∀ c ∈ second.head?, takes first c = false

variable {lexeme text : List Char}

private theorem takes_word {first : Char} {rest : List Char} (word : isWordCharacter first = true)
    (c : Char) : takes (first :: rest) c =
      (isWordCharacter c || ((c == '+' || c == '-') && awaitsSign (first :: rest))) :=
  if_pos word

/-- A lexeme that is not a word only takes a character with which it is a longer mark. -/
theorem takes_mark {first : Char} {rest : List Char} (mark : isWordCharacter first = false)
    (c : Char) : takes (first :: rest) c = compounds.contains (first :: rest ++ [c]) :=
  if_neg (by simp [mark])

private theorem absorbs_append {first second : List Char} :
    Absorbs lexeme (first ++ second) ↔
      Absorbs lexeme first ∧ Absorbs (lexeme ++ first) second := by
  induction first generalizing lexeme with
  | nil => simp [Absorbs]
  | cons c rest ih => simp [Absorbs, ih, and_assoc]

private theorem splitFrom_append (absorbs : Absorbs lexeme text) (rest : List Char) :
    splitFrom lexeme (text ++ rest) = splitFrom (lexeme ++ text) rest := by
  induction text generalizing lexeme with
  | nil => simp
  | cons c text ih =>
      rw [List.cons_append, splitFrom, if_pos absorbs.1, ih absorbs.2, List.append_assoc,
        List.singleton_append]

private theorem splitFrom_whole {next : List Char} (whole : IsWhole next)
    (apart : Apart lexeme next) (rest : List Char) :
    splitFrom lexeme (next ++ rest) = lexeme :: splitFrom next rest := by
  obtain ⟨nonempty, absorbs⟩ := whole
  cases next with
  | nil => exact (nonempty rfl).elim
  | cons c next =>
      have refused : takes lexeme c = false := apart c rfl
      have joined : splitFrom [c] (next ++ rest) = splitFrom (c :: next) rest :=
        splitFrom_append absorbs.2 rest
      rw [List.cons_append, splitFrom, if_neg (by simp [refused]), joined]

/-- Lexemes that are apart are found again. -/
theorem splitFrom_flatten {lexemes : List (List Char)} (whole : ∀ next ∈ lexemes, IsWhole next)
    (apart : (lexeme :: lexemes).IsChain Apart) :
    splitFrom lexeme lexemes.flatten = lexeme :: lexemes := by
  induction lexemes generalizing lexeme with
  | nil => rfl
  | cons next lexemes ih =>
      obtain ⟨first, others⟩ := List.forall_mem_cons.mp whole
      obtain ⟨own, later⟩ := List.isChain_cons_cons.mp apart
      rw [List.flatten_cons, splitFrom_whole first own, ih others later]

/-- Lexemes that do not run into each other are found again in the text that they make up. -/
theorem split_flatten {lexemes : List (List Char)} (nonempty : lexemes ≠ [])
    (whole : ∀ lexeme ∈ lexemes, IsWhole lexeme) (apart : lexemes.IsChain Apart) :
    split lexemes.flatten = lexemes := by
  cases lexemes with
  | nil => exact (nonempty rfl).elim
  | cons lexeme lexemes =>
      obtain ⟨⟨_, absorbs⟩, others⟩ := List.forall_mem_cons.mp whole
      rw [List.flatten_cons, split, splitFrom_append absorbs]
      exact splitFrom_flatten others apart

private theorem mem_splitFrom (closed : ∀ c, takes lexeme c = false) (text : List Char) :
    lexeme ∈ splitFrom lexeme text := by
  cases text with
  | nil => exact List.mem_singleton_self lexeme
  | cons c rest =>
      rw [splitFrom, if_neg (by simp [closed c])]
      exact List.mem_cons_self

private theorem not_takes_decrement (c : Char) : takes ['-', '-'] c = false := by
  rw [takes_mark (by decide)]
  simp [compounds]

/-- Where a minus sign follows a minus sign, the two are one lexeme. -/
theorem decrement_mem_splitFrom {lexemes : List (List Char)}
    (whole : ∀ next ∈ lexemes, IsWhole next)
    (meets : (lexeme :: lexemes).IsChain fun first second =>
      Apart first second ∨ first = ['-'] ∧ second = ['-'])
    (touching : ¬(lexeme :: lexemes).IsChain Apart) :
    ['-', '-'] ∈ splitFrom lexeme lexemes.flatten := by
  induction lexemes generalizing lexeme with
  | nil => exact (touching (.singleton lexeme)).elim
  | cons next lexemes ih =>
      obtain ⟨first, others⟩ := List.forall_mem_cons.mp whole
      obtain ⟨own, later⟩ := List.isChain_cons_cons.mp meets
      rw [List.isChain_cons_cons] at touching
      rw [List.flatten_cons]
      rcases own with apart | ⟨rfl, rfl⟩
      · rw [splitFrom_whole first apart]
        exact List.mem_cons_of_mem _ (ih others later fun chain => touching ⟨apart, chain⟩)
      · exact mem_splitFrom not_takes_decrement lexemes.flatten

/-- Lexemes that only run into each other at two minus signs are read with a decrement. -/
theorem decrement_mem_split {lexemes : List (List Char)}
    (whole : ∀ lexeme ∈ lexemes, IsWhole lexeme)
    (meets : lexemes.IsChain fun first second =>
      Apart first second ∨ first = ['-'] ∧ second = ['-'])
    (touching : ¬lexemes.IsChain Apart) : ['-', '-'] ∈ split lexemes.flatten := by
  cases lexemes with
  | nil => exact (touching .nil).elim
  | cons lexeme lexemes =>
      obtain ⟨⟨_, absorbs⟩, others⟩ := List.forall_mem_cons.mp whole
      rw [List.flatten_cons, split, splitFrom_append absorbs]
      exact decrement_mem_splitFrom others meets touching

/-- All characters of the text are those of words. -/
theorem absorbs_word {first : Char} {rest : List Char} (word : isWordCharacter first = true)
    (all : ∀ c ∈ text, isWordCharacter c = true) : Absorbs (first :: rest) text := by
  induction text generalizing rest with
  | nil => trivial
  | cons c text ih =>
      obtain ⟨own, others⟩ := List.forall_mem_cons.mp all
      refine ⟨?_, ih others⟩
      rw [takes_word word, own, Bool.true_or]

private theorem isWordCharacter_of_isAlpha {c : Char} (letter : c.isAlpha = true) :
    isWordCharacter c = true := by
  simp [isWordCharacter, Char.isAlphanum, letter]

private theorem isWordCharacter_of_isDigit {c : Char} (digit : c.isDigit = true) :
    isWordCharacter c = true := by
  simp [isWordCharacter, Char.isAlphanum, digit]

private theorem isBlank_eq_false {c : Char} (word : isWordCharacter c = true) :
    Text.isBlank c = false := by
  have range : 46 ≤ c.toNat ∧ c.toNat ≤ 122 := by
    simp only [isWordCharacter, Char.isAlphanum, Bool.or_eq_true, beq_iff_eq] at word
    rcases word with (letter | digit) | rfl
    · have bounds := Cell.isLetter_iff.mp letter
      omega
    · have bounds : 48 ≤ c.toNat ∧ c.toNat ≤ 57 := Char.isDigit_iff_toNat.mp digit
      omega
    · exact ⟨by decide, by decide⟩
  simp only [Text.isBlank, Bool.or_eq_false_iff, Bool.and_eq_false_iff, decide_eq_false_iff_not,
    beq_eq_false_iff_ne]
  omega

private theorem visible_of_absorbs {first : Char} {rest : List Char}
    (word : isWordCharacter first = true) (absorbs : Absorbs (first :: rest) text) :
    ∀ c ∈ text, Text.isBlank c = false := by
  induction text generalizing rest with
  | nil => simp
  | cons c text ih =>
      refine List.forall_mem_cons.mpr ⟨?_, ih absorbs.2⟩
      have taken := absorbs.1
      rw [takes_word word, Bool.or_eq_true] at taken
      rcases taken with own | signed
      · exact isBlank_eq_false own
      · simp only [Bool.and_eq_true, Bool.or_eq_true, beq_iff_eq] at signed
        rcases signed.1 with rfl | rfl <;> rfl

/-- The character is a digit or a decimal point. -/
def IsDecimal (c : Char) : Prop :=
  c.isDigit = true ∨ c = '.'

private theorem IsDecimal.isWordCharacter {c : Char} (decimal : IsDecimal c) :
    isWordCharacter c = true := by
  rcases decimal with digit | rfl
  · exact isWordCharacter_of_isDigit digit
  · rfl

/-- The lexeme is a number or a name: it is one lexeme and begins with one of their characters, and
no operator or parenthesis goes on with it. -/
structure IsWord (lexeme : List Char) : Prop where
  whole : IsWhole lexeme
  begins : ∃ c ∈ lexeme.head?, isWordCharacter c = true
  ends : ∀ c, isWordCharacter c = false → takes lexeme c = false

/-- A word of a script has no blanks. -/
theorem IsWord.visible (word : IsWord lexeme) : ∀ c ∈ lexeme, Text.isBlank c = false := by
  obtain ⟨c, first, begins⟩ := word.begins
  obtain ⟨rest, rfl⟩ : ∃ rest, lexeme = c :: rest := List.head?_eq_some_iff.mp first
  exact List.forall_mem_cons.mpr
    ⟨isBlank_eq_false begins, visible_of_absorbs begins word.whole.2.2⟩

private theorem isWord_of_last {first : Char} {rest : List Char}
    (word : isWordCharacter first = true) (absorbs : Absorbs [first] rest)
    (last : ∃ c ∈ (first :: rest).getLast?, IsDecimal c) :
    IsWord (first :: rest) := by
  have complete : awaitsSign (first :: rest) = false := by
    obtain ⟨c, final, decimal⟩ := last
    have unmarked : Operand.isExponentMark c = false := by
      rw [← Bool.not_eq_true]
      intro mark
      simp only [Operand.isExponentMark, Bool.or_eq_true, beq_iff_eq] at mark
      rcases mark with rfl | rfl <;> simp [IsDecimal] at decimal
    rw [awaitsSign, show (first :: rest).getLast? = some c from final, Option.any_some, unmarked,
      Bool.and_false]
  refine ⟨⟨List.cons_ne_nil _ _, rfl, absorbs⟩, ⟨first, rfl, word⟩, fun c other => ?_⟩
  rw [takes_word word, other, complete, Bool.and_false, Bool.or_false]

private theorem exists_last {text : List Char} (nonempty : text ≠ [])
    (all : ∀ c ∈ text, IsDecimal c) : ∃ c ∈ text.getLast?, IsDecimal c :=
  ⟨_, List.getLast?_eq_some_getLast nonempty, all _ (List.getLast_mem nonempty)⟩

/-- A number is digits with an optional point, and an optional exponent after them. -/
theorem exists_decimals (number : Operand.isNumber text = true) :
    ∃ decimals exponent, text = decimals ++ exponent ∧ decimals ≠ [] ∧
      (∀ c ∈ decimals, IsDecimal c) ∧ Operand.isOptionalExponent exponent = true := by
  have digits (part : List Char) : ∀ c ∈ part.takeWhile Char.isDigit, IsDecimal c :=
    fun c member => .inl (List.mem_takeWhile_imp member)
  have parts := @List.takeWhile_append_dropWhile _ Char.isDigit text
  unfold Operand.isNumber at number
  dsimp only at number
  split at number
  · rename_i rest point
    simp only [Bool.and_eq_true] at number
    refine ⟨text.takeWhile Char.isDigit ++ '.' :: rest.takeWhile Char.isDigit,
      rest.dropWhile Char.isDigit, ?_, by simp, ?_, number.2⟩
    · rw [List.append_assoc, List.cons_append, List.takeWhile_append_dropWhile, ← point, parts]
    · exact List.forall_mem_append.mpr
        ⟨digits text, List.forall_mem_cons.mpr ⟨.inr rfl, digits rest⟩⟩
  · simp only [Bool.and_eq_true, Bool.not_eq_true', List.isEmpty_eq_false_iff] at number
    exact ⟨_, _, parts.symm, number.1, digits text, number.2⟩

private theorem absorbs_exponent {first : Char} {rest exponent : List Char}
    (awaits : awaitsSign (first :: rest) = true) (word : isWordCharacter first = true)
    (digits : Operand.isDigits (Operand.dropSign exponent) = true) :
    Absorbs (first :: rest) exponent ∧ ∃ c ∈ exponent.getLast?, IsDecimal c := by
  have all {text : List Char} (digits : Operand.isDigits text = true) :
      (∀ c ∈ text, isWordCharacter c = true) ∧ ∃ c ∈ text.getLast?, IsDecimal c := by
    simp only [Operand.isDigits, Bool.and_eq_true, Bool.not_eq_true',
      List.isEmpty_eq_false_iff, List.all_eq_true] at digits
    exact ⟨fun c member => isWordCharacter_of_isDigit (digits.2 c member),
      exists_last digits.1 fun c member => .inl (digits.2 c member)⟩
  have signed {sign : Char} {text : List Char} (isSign : (sign == '+' || sign == '-') = true)
      (digits : Operand.isDigits text = true) :
      Absorbs (first :: rest) (sign :: text) ∧ ∃ c ∈ (sign :: text).getLast?, IsDecimal c := by
    obtain ⟨words, c, final, decimal⟩ := all digits
    refine ⟨⟨?_, absorbs_word word words⟩, c, ?_, decimal⟩
    · rw [takes_word word, isSign, awaits, Bool.and_true, Bool.or_true]
    · rw [List.getLast?_cons, show text.getLast? = some c from final]
      rfl
  unfold Operand.dropSign at digits
  split at digits
  · exact signed rfl digits
  · exact signed rfl digits
  · exact ⟨absorbs_word word (all digits).1, (all digits).2⟩

/-- A number is a word of a script. -/
theorem isWord_number (number : Operand.isNumber text = true) : IsWord text := by
  obtain ⟨decimals, exponent, rfl, nonempty, all, optional⟩ := exists_decimals number
  obtain ⟨first, rest, rfl⟩ := List.exists_cons_of_ne_nil nonempty
  have word := (all first List.mem_cons_self).isWordCharacter
  have front : Absorbs [first] rest :=
    absorbs_word word fun c member => (all c (List.mem_cons_of_mem _ member)).isWordCharacter
  cases exponent with
  | nil =>
      rw [List.append_nil]
      exact isWord_of_last word front (exists_last nonempty all)
  | cons mark exponent =>
      simp only [Operand.isOptionalExponent, Bool.and_eq_true] at optional
      obtain ⟨marked, digits⟩ := optional
      have awaits : awaitsSign (first :: (rest ++ [mark])) = true := by
        rcases all first List.mem_cons_self with digit | rfl
        · simp [awaitsSign, List.getLast?_cons, marked, digit]
        · simp [awaitsSign, List.getLast?_cons, marked]
      obtain ⟨absorbs, c, final, decimal⟩ := absorbs_exponent awaits word digits
      apply isWord_of_last word
      · refine absorbs_append.mpr ⟨front, ?_, absorbs⟩
        simp only [Operand.isExponentMark, Bool.or_eq_true, beq_iff_eq] at marked
        rcases marked with rfl | rfl
        · exact takes_word word _ ▸ rfl
        · exact takes_word word _ ▸ rfl
      · refine ⟨c, ?_, decimal⟩
        simp [List.getLast?_cons, List.getLast?_append, show exponent.getLast? = some c from final]

/-- A reference without dollar signs is letters and digits after them. -/
theorem isWord_cell {cell : Cell} (read : Cell.parse? text = some cell) (plain : '$' ∉ text) :
    IsWord text ∧ Operand.isNumber text = false := by
  obtain ⟨letters, digits, spells⟩ := Cell.exists_spells read
  have bare : text = letters ++ digits := by
    obtain ⟨first, isFirst, second, isSecond, rfl⟩ := spells.written
    simp only [List.mem_append, not_or] at plain
    simp only [List.mem_cons, List.not_mem_nil, or_false] at isFirst isSecond
    rcases isFirst with rfl | rfl
    · rcases isSecond with rfl | rfl
      · simp
      · exact (plain.1.2 (List.mem_singleton_self _)).elim
    · exact (plain.1.1.1 (List.mem_singleton_self _)).elim
  obtain ⟨first, rest, rfl⟩ : ∃ first rest, letters = first :: rest := by
    apply List.exists_cons_of_ne_nil
    rintro rfl
    exact absurd spells.length.1 (by decide)
  have positive : digits ≠ [] := by
    rintro rfl
    exact absurd spells.row.1 (by decide)
  have letter := spells.alphabetic first List.mem_cons_self
  rw [bare]
  constructor
  · apply isWord_of_last (isWordCharacter_of_isAlpha letter)
    · refine absorbs_word (isWordCharacter_of_isAlpha letter) (List.forall_mem_append.mpr ⟨?_, ?_⟩)
      · intro c member
        exact isWordCharacter_of_isAlpha (spells.alphabetic c (List.mem_cons_of_mem _ member))
      · intro c member
        exact isWordCharacter_of_isDigit (spells.numeric c member)
    · obtain ⟨c, final, decimal⟩ :=
        exists_last positive fun c member => .inl (spells.numeric c member)
      refine ⟨c, ?_, decimal⟩
      simp [List.getLast?_cons, List.getLast?_append, show digits.getLast? = some c from final]
  · rw [← Bool.not_eq_true]
    intro number
    obtain ⟨decimals, exponent, same, nonempty, all, _⟩ := exists_decimals number
    obtain ⟨c, others, rfl⟩ := List.exists_cons_of_ne_nil nonempty
    obtain rfl : first = c := (List.cons.inj same).1
    rcases all first List.mem_cons_self with digit | rfl
    · cases letter.symm.trans (Cell.isLetter_of_isDigit digit)
    · cases letter

end Lexeme

/-- What a lexeme of an arithmetic expression is. -/
inductive ScriptSymbol where
  | opening
  | closing
  | operator (operator : ArithmeticOperator)
  | operand (tree : ArithmeticTree)
  deriving DecidableEq, Repr

namespace ScriptSymbol

/-- Parentheses and operators. -/
def marks : List (List Char × ScriptSymbol) :=
  [("(".toList, opening), (")".toList, closing), ("+".toList, operator .plus),
    ("-".toList, operator .minus), ("*".toList, operator .times), ("/".toList, operator .divide),
    ("**".toList, operator .power)]

/-- The symbol of a lexeme.  The other names of a script have none. -/
def ofLexeme? (lexeme : List Char) : Option ScriptSymbol :=
  if Operand.isNumber lexeme then some (operand (.number lexeme))
  else
    match Cell.parse? lexeme with
    | some cell => some (operand (.cell cell))
    | none => marks.lookup lexeme

/-- A number is read as an operand. -/
theorem ofLexeme?_number {lexeme : List Char} (number : Operand.isNumber lexeme = true) :
    ofLexeme? lexeme = some (operand (.number lexeme)) :=
  if_pos number

/-- A cell is read as an operand, unless it could be read as a number. -/
theorem ofLexeme?_cell {lexeme : List Char} {cell : Cell} (other : Operand.isNumber lexeme = false)
    (read : Cell.parse? lexeme = some cell) :
    ofLexeme? lexeme = some (operand (.cell cell)) := by
  rw [ofLexeme?, if_neg (by simp [other]), read]

private theorem ofLexeme?_scriptText (sign : ArithmeticOperator) :
    ofLexeme? sign.scriptText = some (operator sign) := by
  cases sign <;> rfl

end ScriptSymbol

namespace Script

/-- A row that lacks its last operand: what stands before it and its signs. -/
structure Pending where
  front : Option (Joined Signed × ArithmeticOperator)
  signs : Nat
  deriving DecidableEq, Repr

namespace Pending

/-- The row with other rows after what it begins with. -/
def attach (front : Option (Joined Signed × ArithmeticOperator)) (row : Joined Signed) :
    Joined Signed :=
  match front with
  | none => row
  | some (earlier, operator) => earlier.append operator row

/-- The row with its last operand. -/
def complete (pending : Pending) (value : ArithmeticTree) : Joined Signed :=
  attach pending.front (.single ⟨pending.signs, value⟩)

/-- A row can be extended before or after it is attached to what it follows. -/
theorem attach_append (front : Option (Joined Signed × ArithmeticOperator)) (row : Joined Signed)
    (operator : ArithmeticOperator) (others : Joined Signed) :
    attach front (row.append operator others) = (attach front row).append operator others := by
  cases front with
  | none => rfl
  | some earlier => exact Joined.append_assoc ..

/-- Divisions by a hundred can be added before or after a row is attached to what it follows. -/
theorem attach_overHundred (front : Option (Joined Signed × ArithmeticOperator))
    (row : Joined Signed) (count : Nat) :
    attach front (row.overHundred count) = (attach front row).overHundred count := by
  cases front with
  | none => rfl
  | some earlier => exact Joined.append_overHundred ..

end Pending

/-- A place between two symbols: before an operand or after one. -/
inductive Place where
  | before (pending : Pending)
  | after (row : Joined Signed)
  deriving DecidableEq, Repr

/-- The rows of the open parentheses, innermost first, and the place in the row within them. -/
structure ReadingState where
  outer : List Pending
  place : Place
  deriving DecidableEq, Repr

namespace ReadingState

/-- The state at the beginning. -/
def start : ReadingState :=
  ⟨[], .before ⟨none, 0⟩⟩

/-- Read one symbol. -/
def step? : ReadingState → ScriptSymbol → Option ReadingState
  | ⟨outer, .before pending⟩, .operand tree => some ⟨outer, .after (pending.complete tree)⟩
  | ⟨outer, .before pending⟩, .operator .minus =>
      some ⟨outer, .before ⟨pending.front, pending.signs + 1⟩⟩
  | ⟨outer, .before pending⟩, .opening => some ⟨pending :: outer, .before ⟨none, 0⟩⟩
  | ⟨outer, .after row⟩, .operator operator => some ⟨outer, .before ⟨some (row, operator), 0⟩⟩
  | ⟨pending :: outer, .after row⟩, .closing =>
      row.scriptTree?.map fun tree => ⟨outer, .after (pending.complete tree)⟩
  | _, _ => none

/-- Read one lexeme. -/
def read? (state : ReadingState) (lexeme : List Char) : Option ReadingState :=
  (ScriptSymbol.ofLexeme? lexeme).bind state.step?

/-- The expression at the end. -/
def result? : ReadingState → Option ArithmeticTree
  | ⟨[], .after row⟩ => row.scriptTree?
  | _ => none

end ReadingState

/-- The expression that a script is. -/
def read? (script : List Char) : Option ArithmeticTree :=
  ((Lexeme.split script).foldlM ReadingState.read? .start).bind ReadingState.result?

namespace ReadingState

/-- An operand completes the row that lacks one. -/
theorem read?_operand {lexeme : List Char} {tree : ArithmeticTree}
    (symbol : ScriptSymbol.ofLexeme? lexeme = some (.operand tree)) (outer : List Pending)
    (pending : Pending) :
    read? ⟨outer, .before pending⟩ lexeme = some ⟨outer, .after (pending.complete tree)⟩ := by
  rw [read?, symbol]
  rfl

/-- An operator makes a complete row lack its next operand. -/
theorem read?_operator (outer : List Pending) (row : Joined Signed)
    (operator : ArithmeticOperator) :
    read? ⟨outer, .after row⟩ operator.scriptText =
      some ⟨outer, .before ⟨some (row, operator), 0⟩⟩ := by
  rw [read?, ScriptSymbol.ofLexeme?_scriptText]
  rfl

/-- An opening parenthesis puts the row that lacks an operand aside and begins another one. -/
theorem read?_opening (outer : List Pending) (pending : Pending) :
    read? ⟨outer, .before pending⟩ ['('] = some ⟨pending :: outer, .before ⟨none, 0⟩⟩ :=
  rfl

/-- A closing parenthesis groups the row inside it, which then completes the row around it. -/
theorem read?_closing (outer : List Pending) (pending : Pending) (row : Joined Signed) :
    read? ⟨pending :: outer, .after row⟩ [')'] =
      row.scriptTree?.map fun tree => ⟨outer, .after (pending.complete tree)⟩ :=
  rfl

/-- Lexemes cannot be read if one of them has no meaning. -/
theorem foldlM_eq_none {lexemes : List (List Char)} {lexeme : List Char} (member : lexeme ∈ lexemes)
    (unknown : ScriptSymbol.ofLexeme? lexeme = none) (state : ReadingState) :
    lexemes.foldlM read? state = none := by
  induction lexemes generalizing state with
  | nil => cases member
  | cons first lexemes ih =>
      rw [List.foldlM_cons]
      rcases List.mem_cons.mp member with rfl | later
      · rw [read?, unknown]
        rfl
      · cases state.read? first with
        | none => rfl
        | some next => exact ih later next

variable (outer : List Pending)

/-- Minus signs where an operand is missing count as signs of that operand. -/
theorem foldlM_signs (front : Option (Joined Signed × ArithmeticOperator)) (signs count : Nat) :
    (List.replicate count ['-']).foldlM read? ⟨outer, .before ⟨front, signs⟩⟩ =
      some ⟨outer, .before ⟨front, signs + count⟩⟩ := by
  induction count generalizing signs with
  | zero => rfl
  | succ count ih =>
      rw [List.replicate_succ, List.foldlM_cons, Nat.add_comm count, ← Nat.add_assoc, ← ih]
      rfl

/-- What a script writes for percent signs is read as divisions by a hundred. -/
theorem foldlM_percents (row : Joined Signed) (count : Nat) :
    (List.replicate count [['/'], "100".toList]).flatten.foldlM read? ⟨outer, .after row⟩ =
      some ⟨outer, .after (row.overHundred count)⟩ := by
  induction count with
  | zero => rfl
  | succ count ih =>
      rw [List.replicate_succ', List.flatten_append, List.foldlM_append, ih]
      rfl

end ReadingState

end Script

end SheetFormula
