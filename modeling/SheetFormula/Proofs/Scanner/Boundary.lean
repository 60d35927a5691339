import SheetFormula.Proofs.Scanner.End
import SheetFormula.Text.Escape

/-!
# Where a token ends

The scanner may be at the end of a token that more characters could still add to.  A character that
`Parts` from the token is read as if the token had been emitted already (`Meets`).  The lemmas
`reads_word`, `reads_text` and so on say, for each token, that a scanner which is not in the middle
of anything reads the text of the token as that token.
-/

namespace SheetFormula

/-- The character ends a word. -/
def Terminates (convention : Convention) (c : Char) : Prop :=
  Text.isBlank c = true ∨ c ∈ infixCharacters ∨ c ∈ ['%', ')', '\x7d', ';'] ∨
    c = convention.separator

/-- The character is not read as a part of the token before it. -/
structure Token.Parts (convention : Convention) (token : Token) (c : Char) : Prop where
  word : token.isWord = true →
    Terminates convention c ∧ ¬(IsSign c ∧ Operand.awaitsExponent token.value = true)
  text : token.isText = true → c ≠ '"'
  blank : token.kind = .blank → Text.isBlank c = false
  comparison : ∀ first, token = ⟨[first], .infixOperator, none⟩ →
    Scanner.isComparisonPair first c = false

namespace Scanner

variable {convention : Convention} {scanner after : Scanner} {c : Char}

/-- The scanner is not in the middle of anything. -/
def Clean (scanner : Scanner) : Prop :=
  scanner.reading = .formula ∧ scanner.pending = []

/-- The scanner is at the end of a token, even though more characters may add to it. -/
def Steady (scanner : Scanner) : Prop :=
  match scanner.reading with
  | .formula | .pathQuote | .textQuote => True
  | .blanks | .comparison _ => scanner.pending = []
  | _ => False

/-- The scanner with the token at whose end it is emitted. -/
def settle (scanner : Scanner) : Scanner :=
  scanner.resume.flush .operand

/-- A settled scanner is not in the middle of anything. -/
theorem settle_clean : scanner.settle.Clean := by
  refine ⟨?_, flush_pending _⟩
  rw [settle, flush_reading]
  unfold resume
  split <;> rfl

/-- Settling opens and closes no scope. -/
theorem settle_kinds : scanner.settle.kinds = scanner.kinds := by
  rw [settle, flush_kinds]
  unfold resume
  split <;> rfl

/-- Settling emits what the end of the text would make of the token. -/
theorem Steady.settle_emitted (steady : scanner.Steady) :
    scanner.settle.emitted.toList = scanner.emitted.toList ++ scanner.leftover := by
  unfold Steady at steady
  rw [settle, flush_emitted]
  cases sort : scanner.reading with
  | formula => simp only [resume, leftover, sort, continueAs, pendingTokens]
  | pathQuote => simp only [resume, leftover, sort, continueAs, pendingTokens]
  | textQuote => simp [resume, leftover, sort, endText, emitPending, continueAs, pendingTokens]
  | blanks =>
      simp only [sort] at steady
      simp [resume, leftover, sort, continueAs, pendingTokens, steady]
  | comparison first =>
      simp only [sort] at steady
      simp [resume, leftover, sort, continueAs, emit, pendingTokens, steady]
  | _ => simp only [sort] at steady

/-- A scanner that is not in the middle of anything is at the end of a token. -/
theorem Clean.steady (clean : scanner.Clean) : scanner.Steady := by
  rw [Steady, clean.1]
  trivial

/-- A scanner that is not in the middle of anything leaves nothing over. -/
theorem Clean.leftover_eq (clean : scanner.Clean) : scanner.leftover = [] := by
  rw [leftover, clean.1]
  exact pendingTokens_of_empty clean.2

/-- The scanner reads the character as it would after the token at whose end it is. -/
def Meets (convention : Convention) (scanner : Scanner) (c : Char) : Prop :=
  scanner.read convention c = scanner.settle.read convention c

private theorem Clean.read_eq (clean : scanner.Clean) :
    scanner.read convention c = scanner.readFormula convention c := by
  rw [read, clean.1]

private theorem Clean.flush_eq (clean : scanner.Clean) (kind : TokenKind) :
    scanner.flush kind = scanner := by
  rw [flush, clean.2]
  rfl

private theorem Clean.meets (clean : scanner.Clean) : scanner.Meets convention c := by
  have same : scanner.settle = scanner := by
    have resumed : scanner.resume = scanner := by
      simp only [resume, clean.1, continueAs]
      rw [← clean.1]
    rw [settle, resumed, clean.flush_eq]
  rw [Meets, same]

/-- A character that does not go on with what the scanner is reading is read on its own. -/
theorem read_of_resumes (resumes : scanner.Resumes c) :
    scanner.read convention c = scanner.resume.readFormula convention c := by
  unfold Resumes at resumes
  cases sort : scanner.reading with
  | formula =>
      have same : scanner.continueAs .formula = scanner := by rw [continueAs, ← sort]
      simp only [read, resume, sort, same]
  | blanks =>
      simp only [sort] at resumes
      simp only [read, resume, sort, resumes, Bool.false_eq_true, ↓reduceIte]
  | comparison first =>
      simp only [sort] at resumes
      simp only [read, resume, sort, resumes, Bool.false_eq_true, ↓reduceIte]
  | textQuote =>
      simp only [sort] at resumes
      simp only [read, resume, sort, resumes, ↓reduceIte]
  | pathQuote =>
      simp only [sort] at resumes
      simp only [read, resume, sort, resumes, ↓reduceIte]
  | _ => simp only [sort] at resumes

private theorem meets_of_resume (resumes : scanner.Resumes c)
    (same : scanner.resume.readFormula convention c =
      (scanner.resume.flush .operand).readFormula convention c) :
    scanner.Meets convention c := by
  rw [Meets, settle_clean.read_eq, settle, ← same, read_of_resumes resumes]

private theorem flush_flush (kind other : TokenKind) :
    (scanner.flush kind).flush other = scanner.flush kind := by
  rw [flush, flush_pending]
  rfl

/-- A blank ends the pending operand and begins a run of blanks, which is one token. -/
theorem readFormula_blank (blank : Text.isBlank c = true) :
    scanner.readFormula convention c =
      .ok (((scanner.flush .operand).emit ⟨[' '], .blank, none⟩).continueAs .blanks) := by
  have other (mark : Char) (visible : Text.isBlank mark = false) : c ≠ mark := by
    rintro rfl
    rw [blank] at visible
    cases visible
  have unsigned : ¬((c = '+' ∨ c = '-') ∧
      Operand.awaitsExponent scanner.pending.reverse = true) := fun both =>
    both.1.elim (other '+' rfl) (other '-' rfl)
  rw [readFormula, if_neg unsigned, if_neg (other '"' rfl), if_neg (other '\'' rfl),
    if_neg (other '[' rfl), if_neg (other '#' rfl), if_neg (other '\x7b' rfl),
    if_neg (other '\x7d' rfl), if_pos blank]

/-- A character that ends a word is read after the word as it is after its token. -/
theorem readFormula_flush (terminates : Terminates convention c)
    (apart : ¬(IsSign c ∧ Operand.awaitsExponent scanner.pending.reverse = true)) :
    scanner.readFormula convention c = (scanner.flush .operand).readFormula convention c := by
  rcases terminates with blank | terminates
  · rw [readFormula_blank blank, readFormula_blank blank, flush_flush]
  have alone : ¬((c = '+' ∨ c = '-') ∧ Operand.awaitsExponent (List.reverse []) = true) := by
    simp [Operand.awaitsExponent]
  change ¬((c = '+' ∨ c = '-') ∧ _) at apart
  unfold readFormula
  simp only [flush_flush]
  rw [if_neg apart, flush_pending, if_neg alone]
  rcases terminates with operator | mark | separator
  · simp only [infixCharacters, List.mem_cons, List.not_mem_nil, or_false] at operator
    rcases operator with rfl | rfl | rfl | rfl | rfl | rfl | rfl | rfl | rfl <;> rfl
  · simp only [List.mem_cons, List.not_mem_nil, or_false] at mark
    cases convention <;> rcases mark with rfl | rfl | rfl | rfl <;> rfl
  · subst separator
    cases convention <;> rfl

private theorem meets_of_empty (resumes : scanner.Resumes c) (empty : scanner.resume.pending = []) :
    scanner.Meets convention c := by
  refine meets_of_resume resumes ?_
  rw [flush, empty]
  rfl

/-- The state after a word. -/
theorem meets_of_word (isOpen : scanner.reading.isOpen = true)
    (terminates : Terminates convention c)
    (apart : ¬(IsSign c ∧ Operand.awaitsExponent scanner.pending.reverse = true)) :
    scanner.Meets convention c := by
  have resumes : scanner.Resumes c := by
    unfold Resumes
    cases sort : scanner.reading with
    | formula => trivial
    | pathQuote =>
        rintro rfl
        rcases terminates with blank | operator | mark | separator
        · cases blank
        · exact absurd operator (by decide)
        · exact absurd mark (by decide)
        · cases convention <;> cases separator
    | _ => simp [sort, Reading.isOpen] at isOpen
  refine meets_of_resume resumes (readFormula_flush terminates ?_)
  have pending : scanner.resume.pending = scanner.pending := by
    unfold resume
    cases sort : scanner.reading with
    | formula => rfl
    | pathQuote => rfl
    | _ => simp [sort, Reading.isOpen] at isOpen
  rwa [pending]

/-- A scanner that is not in the middle of anything reads the text as the tokens.  Then the given
scopes are open, and a character that parts from the last of the tokens is read on its own. -/
def Reads (convention : Convention) (scanner : Scanner) (text : List Char) (tokens : List Token)
    (last : Token) (scopes : List ScopeKind) : Prop :=
  ∃ after, scanner.run convention text = .ok after ∧ after.Steady ∧ after.kinds = scopes ∧
    after.emitted.toList ++ after.leftover = scanner.emitted.toList ++ tokens ∧
      ∀ c, last.Parts convention c → after.Meets convention c

private theorem run_single {scanned : Scanner} (result : scanner.read convention c = .ok scanned) :
    scanner.run convention [c] = .ok (scanned.past c) :=
  run_cons_eq_ok.mpr ⟨_, step_eq_ok.mpr ⟨scanned, result, rfl⟩, rfl⟩

private theorem reads_of_clean {text : List Char} {tokens : List Token} {last : Token}
    {scopes : List ScopeKind} (result : scanner.run convention text = .ok after)
    (clean : after.Clean) (kinds : after.kinds = scopes)
    (emitted : after.emitted.toList = scanner.emitted.toList ++ tokens) :
    scanner.Reads convention text tokens last scopes := by
  refine ⟨after, result, clean.steady, kinds, ?_, fun _ _ => clean.meets⟩
  rw [clean.leftover_eq, List.append_nil, emitted]

private theorem reads_single {scanned : Scanner} {tokens : List Token} {last : Token}
    {scopes : List ScopeKind} (clean : scanner.Clean)
    (result : scanner.readFormula convention c = .ok scanned) (formula : scanned.Clean)
    (kinds : scanned.kinds = scopes)
    (emitted : scanned.emitted.toList = scanner.emitted.toList ++ tokens) :
    scanner.Reads convention [c] tokens last scopes :=
  reads_of_clean (run_single (clean.read_eq.trans result)) formula kinds emitted

/-- A word is read as an operand. -/
theorem reads_word (clean : scanner.Clean) {text : List Char} (word : IsWord convention text) :
    scanner.Reads convention text [⟨text, .operand, none⟩] ⟨text, .operand, none⟩
      scanner.kinds := by
  obtain ⟨present, reading, isOpen, gathered⟩ := word
  obtain ⟨position, result⟩ := run_gathered gathered clean.1 clean.2
  rw [List.reverse_reverse] at result
  refine ⟨_, result, ?_, rfl, ?_, fun c parts => ?_⟩
  · unfold Steady
    cases reading <;> simp [Reading.isOpen] at isOpen <;> trivial
  · cases reading <;> simp [Reading.isOpen] at isOpen <;> simp [leftover, pendingTokens, present]
  · refine meets_of_word isOpen (parts.word rfl).1 ?_
    rw [List.reverse_reverse]
    exact (parts.word rfl).2

/-- Inside of a text, doubled quotes are gathered as one and every other character as itself. -/
private theorem run_text {content : List Char} (reading : scanner.reading = .text) :
    ∃ position, scanner.run convention (Text.doubleQuotes content) =
      .ok { scanner with pending := content.reverse ++ scanner.pending, position := position } := by
  induction content generalizing scanner with
  | nil => exact ⟨scanner.position, rfl⟩
  | cons c rest ih =>
      by_cases quote : c = '"'
      · subst quote
        have first : scanner.read convention '"' = .ok (scanner.continueAs .textQuote) := by
          simp [read, reading]
        have second : ((scanner.continueAs .textQuote).past '"').read convention '"' =
            .ok ((((scanner.continueAs .textQuote).past '"').push '"').continueAs .text) := rfl
        obtain ⟨position, result⟩ := @ih
          (((((scanner.continueAs .textQuote).past '"').push '"').continueAs .text).past '"') rfl
        refine ⟨position, ?_⟩
        change scanner.run convention ('"' :: '"' :: Text.doubleQuotes rest) = _
        rw [run_cons_eq_ok]
        refine ⟨_, step_eq_ok.mpr ⟨_, first, rfl⟩, ?_⟩
        rw [run_cons_eq_ok]
        refine ⟨_, step_eq_ok.mpr ⟨_, second, rfl⟩, ?_⟩
        rw [result]
        simp [continueAs, push, past, reading]
      · have first : scanner.read convention c = .ok (scanner.push c) := by
          simp [read, reading, quote]
        obtain ⟨position, result⟩ := @ih ((scanner.push c).past c) reading
        refine ⟨position, ?_⟩
        have doubled : Text.doubleQuotes (c :: rest) = c :: Text.doubleQuotes rest := by
          simp [Text.doubleQuotes, quote]
        rw [doubled, run_cons_eq_ok]
        refine ⟨_, step_eq_ok.mpr ⟨_, first, rfl⟩, ?_⟩
        rw [result]
        simp [push, past]

/-- A text between quotes, with its own quotes doubled, is read as a text operand. -/
theorem reads_text (clean : scanner.Clean) (content : List Char) :
    scanner.Reads convention ('"' :: (Text.doubleQuotes content ++ ['"']))
      [⟨content, .operand, some .text⟩] ⟨content, .operand, some .text⟩ scanner.kinds := by
  have first : scanner.read convention '"' = .ok (scanner.continueAs .text) := by
    rw [clean.read_eq]
    simp [readFormula, clean.flush_eq]
  obtain ⟨position, inside⟩ :=
    @run_text convention ((scanner.continueAs .text).past '"') content rfl
  refine ⟨_, run_cons_eq_ok.mpr ⟨_, step_eq_ok.mpr ⟨_, first, rfl⟩, run_append_eq_ok.mpr
    ⟨_, inside, run_single rfl⟩⟩, ?_, ?_, ?_, fun c parts => ?_⟩
  · trivial
  · rfl
  · simp [leftover, past, continueAs, clean.2]
  · exact meets_of_empty (parts.text rfl) rfl

/-- An error code is read as an operand with that role. -/
theorem reads_code (clean : scanner.Clean) {text : List Char} (code : text ∈ errorCodes) :
    scanner.Reads convention text [⟨text, .operand, some .error⟩] ⟨text, .operand, some .error⟩
      scanner.kinds := by
  obtain ⟨position, reading, pending, scopes, emitted⟩ := scanner
  obtain ⟨rfl, rfl⟩ : reading = .formula ∧ pending = [] := clean
  simp only [errorCodes, List.mem_cons, List.not_mem_nil, or_false] at code
  rcases code with rfl | rfl | rfl | rfl | rfl | rfl | rfl | rfl | rfl | rfl <;>
    exact reads_of_clean rfl ⟨rfl, rfl⟩ rfl Array.toList_push

/-- After a first blank, all further blanks only move the scanner on. -/
theorem run_blanks {gap : List Char} (reading : scanner.reading = .blanks)
    (blank : ∀ c ∈ gap, Text.isBlank c = true) :
    ∃ position, scanner.run convention gap = .ok { scanner with position := position } := by
  induction gap generalizing scanner with
  | nil => exact ⟨scanner.position, rfl⟩
  | cons c rest ih =>
      obtain ⟨isBlank, restBlank⟩ := List.forall_mem_cons.mp blank
      have first : scanner.read convention c = .ok scanner := by
        simp [read, reading, isBlank]
      obtain ⟨position, result⟩ := @ih (scanner.past c) reading restBlank
      exact ⟨position, run_cons_eq_ok.mpr ⟨_, step_eq_ok.mpr ⟨_, first, rfl⟩, result⟩⟩

private theorem Clean.not_exponent (clean : scanner.Clean) :
    ¬((c = '+' ∨ c = '-') ∧ Operand.awaitsExponent scanner.pending.reverse = true) := by
  rw [clean.2]
  simp [Operand.awaitsExponent]

/-- Blanks, however many, are read as one token. -/
theorem reads_blank (clean : scanner.Clean) {gap : List Char} (present : gap ≠ [])
    (blank : ∀ c ∈ gap, Text.isBlank c = true) :
    scanner.Reads convention gap [⟨[' '], .blank, none⟩] ⟨[' '], .blank, none⟩ scanner.kinds := by
  cases gap with
  | nil => exact (present rfl).elim
  | cons c rest =>
      obtain ⟨isBlank, restBlank⟩ := List.forall_mem_cons.mp blank
      have first : scanner.read convention c =
          .ok ((scanner.emit ⟨[' '], .blank, none⟩).continueAs .blanks) := by
        rw [clean.read_eq, readFormula_blank isBlank, clean.flush_eq]
      obtain ⟨position, result⟩ :=
        @run_blanks convention (((scanner.emit ⟨[' '], .blank, none⟩).continueAs .blanks).past c)
          rest rfl restBlank
      refine ⟨_, run_cons_eq_ok.mpr ⟨_, step_eq_ok.mpr ⟨_, first, rfl⟩, result⟩, clean.2, rfl, ?_,
        fun d parts => ?_⟩
      · simp [leftover, pendingTokens, past, continueAs, emit, clean.2]
      · exact meets_of_empty (parts.blank rfl) clean.2

/-- A single character that stands for an operator is read as that operator. -/
theorem reads_operator (clean : scanner.Clean) (mark : c ∈ infixCharacters) :
    scanner.Reads convention [c] [⟨[c], .infixOperator, none⟩] ⟨[c], .infixOperator, none⟩
      scanner.kinds := by
  by_cases comparison : c = '<' ∨ c = '>'
  · have first : scanner.read convention c = .ok (scanner.continueAs (.comparison c)) := by
      rw [clean.read_eq]
      rcases comparison with rfl | rfl <;> simp [readFormula, clean.flush_eq, Text.isBlank]
    refine ⟨_, run_single first, clean.2, rfl, ?_, fun d parts => ?_⟩
    · simp [leftover, continueAs, past]
    · exact meets_of_empty (parts.comparison c rfl) clean.2
  · have first : scanner.readFormula convention c =
        .ok (scanner.emit ⟨[c], .infixOperator, none⟩) := by
      simp only [infixCharacters, List.mem_cons, List.not_mem_nil, or_false] at mark
      rw [readFormula, if_neg clean.not_exponent]
      rcases mark with rfl | rfl | rfl | rfl | rfl | rfl | rfl | rfl | rfl <;>
        simp [clean.flush_eq, Text.isBlank, infixCharacters] at comparison ⊢
    exact reads_single clean first clean rfl Array.toList_push

/-- Two characters that make up a comparison are read as one operator. -/
theorem reads_comparison (clean : scanner.Clean) {first second : Char}
    (pair : isComparisonPair first second = true) :
    scanner.Reads convention [first, second] [⟨[first, second], .infixOperator, none⟩]
      ⟨[first, second], .infixOperator, none⟩ scanner.kinds := by
  have mark : first = '<' ∨ first = '>' := by
    simp only [isComparisonPair, Bool.or_eq_true, Bool.and_eq_true, beq_iff_eq] at pair
    exact pair.imp (·.1) (·.1)
  have one : scanner.read convention first = .ok (scanner.continueAs (.comparison first)) := by
    rw [clean.read_eq]
    rcases mark with rfl | rfl <;> simp [readFormula, clean.flush_eq, Text.isBlank]
  have two : ((scanner.continueAs (.comparison first)).past first).read convention second =
      .ok ((((scanner.continueAs (.comparison first)).past first).emit
        ⟨[first, second], .infixOperator, none⟩).continueAs .formula) := by
    simp [read, past, continueAs, pair]
  exact reads_of_clean
    (run_cons_eq_ok.mpr ⟨_, step_eq_ok.mpr ⟨_, one, rfl⟩, run_single two⟩) ⟨rfl, clean.2⟩ rfl
    Array.toList_push

/-- A percent sign is read as an operator behind its operand. -/
theorem reads_percent (clean : scanner.Clean) :
    scanner.Reads convention ['%'] [⟨['%'], .postfixOperator, none⟩] ⟨['%'], .postfixOperator, none⟩
      scanner.kinds := by
  have first : scanner.readFormula convention '%' =
      .ok (scanner.emit ⟨['%'], .postfixOperator, none⟩) := by
    simp [readFormula, clean.flush_eq, Text.isBlank, infixCharacters]
  exact reads_single clean first clean rfl Array.toList_push

/-- The separator of the convention ends the pending operand, whatever else the character could
mean. -/
theorem readFormula_separator :
    scanner.readFormula convention convention.separator =
      .ok ((scanner.flush .operand).separate convention.separator) := by
  cases convention <;> simp [readFormula, Convention.separator, Text.isBlank, infixCharacters]

/-- In a scope that takes arguments, the separator ends an argument. -/
theorem reads_argument (clean : scanner.Clean) (inside : takeArguments scanner.kinds = true) :
    scanner.Reads convention [convention.separator] [argumentToken convention.separator]
      (argumentToken convention.separator) scanner.kinds := by
  have first : scanner.readFormula convention convention.separator =
      .ok (scanner.emit (argumentToken convention.separator)) := by
    rw [readFormula_separator, clean.flush_eq, separate, ← takeArguments_kinds, if_pos inside]
    rfl
  exact reads_single clean first clean rfl Array.toList_push

/-- In a scope that takes no arguments, the separator stands for a union. -/
theorem reads_union (clean : scanner.Clean) (outside : takeArguments scanner.kinds = false) :
    scanner.Reads convention [convention.separator] [unionToken convention.separator]
      (unionToken convention.separator) scanner.kinds := by
  have first : scanner.readFormula convention convention.separator =
      .ok (scanner.emit (unionToken convention.separator)) := by
    rw [readFormula_separator, clean.flush_eq, separate, ← takeArguments_kinds,
      if_neg (by simp [outside])]
    rfl
  exact reads_single clean first clean rfl Array.toList_push

private theorem readFormula_parenthesis :
    scanner.readFormula convention '(' = .ok scanner.openParenthesis := by
  simp [readFormula, Text.isBlank, infixCharacters]

/-- An opening parenthesis with no name before it opens a subexpression. -/
theorem reads_group (clean : scanner.Clean) :
    scanner.Reads convention ['('] [ScopeKind.subexpression.startToken []]
      (ScopeKind.subexpression.startToken []) (.subexpression :: scanner.kinds) := by
  have first : scanner.readFormula convention '(' = .ok (scanner.openScope .subexpression []) := by
    rw [readFormula_parenthesis, openParenthesis, clean.2]
    rfl
  exact reads_single clean first clean rfl Array.toList_push

/-- A word with an opening parenthesis behind it opens a call of that name. -/
theorem reads_call (clean : scanner.Clean) {name : List Char} (word : IsWord convention name) :
    scanner.Reads convention (name ++ ['(']) [ScopeKind.function.startToken name]
      (ScopeKind.function.startToken name) (.function :: scanner.kinds) := by
  obtain ⟨present, reading, isOpen, gathered⟩ := word
  obtain ⟨position, result⟩ := run_gathered gathered clean.1 clean.2
  rw [List.reverse_reverse] at result
  have opened : ({ scanner with
      reading := reading, pending := name.reverse, position := position } :
      Scanner).read convention '(' = .ok (({ scanner with position := position } :
        Scanner).openScope .function name) := by
    rw [read_of_isOpen isOpen (fun _ => by decide), readFormula_parenthesis, openParenthesis,
      if_neg (by simpa [continueAs] using present)]
    simp [continueAs, openScope, clean.1, clean.2]
  exact reads_of_clean (run_append_eq_ok.mpr ⟨_, result, run_single opened⟩) clean rfl
    Array.toList_push

/-- An opening brace opens an array and its first row. -/
theorem reads_array (clean : scanner.Clean) :
    scanner.Reads convention ['\x7b']
      [ScopeKind.array.startToken arrayName, ScopeKind.arrayRow.startToken arrayRowName]
      (ScopeKind.arrayRow.startToken arrayRowName) (.arrayRow :: .array :: scanner.kinds) := by
  have first : scanner.readFormula convention '\x7b' =
      .ok ((scanner.openScope .array arrayName).openScope .arrayRow arrayRowName) := by
    simp [readFormula, clean.flush_eq]
  exact reads_single clean first clean rfl (by simp [openScope])

/-- Closing the innermost scope. -/
theorem closeScope_of_kinds {kind : ScopeKind} {outer : List ScopeKind} {expected : List ScopeKind}
    (kinds : scanner.kinds = kind :: outer) (member : kind ∈ expected) (found : Char) :
    ∃ scopes : ScopeStack, scopes.map OpenScope.kind = outer ∧
      scanner.closeScope found expected = .ok { scanner with
        scopes := scopes
        emitted := scanner.emitted.push kind.stopToken } := by
  unfold Scanner.kinds at kinds
  obtain ⟨scope, scopes, same, rfl, rfl⟩ := List.map_eq_cons_iff.mp kinds
  exact ⟨scopes, rfl, closeScope_eq_ok.mpr ⟨scope, scopes, same, member, rfl⟩⟩

/-- A closing parenthesis closes the innermost scope, if this is a call or a subexpression. -/
theorem reads_close (clean : scanner.Clean) {kind : ScopeKind} {outer : List ScopeKind}
    (kinds : scanner.kinds = kind :: outer) (round : kind = .function ∨ kind = .subexpression) :
    scanner.Reads convention [')'] [kind.stopToken] kind.stopToken outer := by
  obtain ⟨scopes, same, closed⟩ := @closeScope_of_kinds scanner kind outer
    [.function, .subexpression] kinds (by simpa using round) ')'
  have first : scanner.readFormula convention ')' =
      scanner.closeScope ')' [.function, .subexpression] := by
    simp [readFormula, clean.flush_eq, Text.isBlank, infixCharacters]
  exact reads_single clean (first.trans closed) clean same Array.toList_push

/-- A closing brace closes the row and the array around it. -/
theorem reads_arrayEnd (clean : scanner.Clean) {outer : List ScopeKind}
    (kinds : scanner.kinds = .arrayRow :: .array :: outer) :
    scanner.Reads convention ['\x7d']
      [ScopeKind.arrayRow.stopToken, ScopeKind.array.stopToken] ScopeKind.array.stopToken
      outer := by
  obtain ⟨inner, innerSame, row⟩ := @closeScope_of_kinds scanner .arrayRow (.array :: outer)
    [.arrayRow] kinds (by simp) '\x7d'
  obtain ⟨scopes, same, array⟩ := @closeScope_of_kinds
    { scanner with scopes := inner, emitted := scanner.emitted.push ScopeKind.arrayRow.stopToken }
    .array outer [.array] innerSame (by simp) '\x7d'
  have first : scanner.readFormula convention '\x7d' =
      scanner.closeScope '\x7d' [.arrayRow] >>= fun row => row.closeScope '\x7d' [.array] := by
    simp [readFormula, clean.flush_eq]
  exact reads_single clean (first.trans (bind_eq_ok.mpr ⟨_, row, array⟩)) clean same (by simp)

/-- In the US convention, a semicolon directly in an array ends a row and begins the next one. -/
theorem reads_nextRow (clean : scanner.Clean) (us : convention = .us) {outer : List ScopeKind}
    (kinds : scanner.kinds = .arrayRow :: .array :: outer) :
    scanner.Reads convention [';']
      [ScopeKind.arrayRow.stopToken, argumentToken ';', ScopeKind.arrayRow.startToken arrayRowName]
      (ScopeKind.arrayRow.startToken arrayRowName) (.arrayRow :: .array :: outer) := by
  subst us
  obtain ⟨inner, innerSame, row⟩ := @closeScope_of_kinds scanner .arrayRow (.array :: outer)
    [.arrayRow] kinds (by simp) ';'
  have inRow : scanner.scopes.innermost? = some .arrayRow := by
    have head := congrArg List.head? kinds
    rwa [Scanner.kinds, List.head?_map] at head
  have first : scanner.readFormula .us ';' = scanner.nextRow := by
    simp [readFormula, clean.flush_eq, Text.isBlank, infixCharacters, Convention.separator]
  have next : scanner.nextRow = .ok ((({ scanner with
      scopes := inner
      emitted := scanner.emitted.push ScopeKind.arrayRow.stopToken } : Scanner).emit
        (argumentToken ';')).openScope .arrayRow arrayRowName) := by
    rw [nextRow, if_pos inRow, bind_eq_ok]
    exact ⟨_, row, rfl⟩
  refine reads_single clean (first.trans next) clean ?_ (by simp [openScope, emit])
  simp [Scanner.kinds, openScope, emit, innerSame]

end Scanner

end SheetFormula
