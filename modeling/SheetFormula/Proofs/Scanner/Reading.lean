import SheetFormula.Token.Scanner
import Mathlib.Tactic.Common

/-!
# What reading one character does

A character either continues what the scanner is in the middle of, or it ends that and is read on
its own.  `Continues` lists the ways of going on and `Turns` the ways of being read on its own;
`read_cases` says that there are no others.  Everything that is said about all scans below is said
about these two lists first.
-/

namespace SheetFormula

/-- A computation in two steps succeeds if both steps do. -/
theorem bind_eq_ok {ε α β : Type} {computed : Except ε α} {next : α → Except ε β} {b : β} :
    (computed >>= next) = .ok b ↔ ∃ a, computed = .ok a ∧ next a = .ok b := by
  cases computed <;> simp [bind, Except.bind]

/-- A value that is returned is the result. -/
theorem pure_eq_ok {ε α : Type} {a b : α} :
    (pure a : Except ε α) = .ok b ↔ a = b := by
  simp [pure, Except.pure]

/-- The characters with a meaning of their own outside of texts, paths, brackets and error codes,
apart from blanks and the separator of arguments. -/
def markCharacters : List Char :=
  ['"', '\'', '[', '#', '{', '}', '%', '(', ')', ';'] ++ infixCharacters

/-- The character has no meaning of its own: it is part of a name, a number or a reference. -/
def IsOrdinary (convention : Convention) (c : Char) : Prop :=
  c ∉ markCharacters ∧ Text.isBlank c = false ∧ c ≠ convention.separator

/-- The character is a plus or a minus. -/
def IsSign (c : Char) : Prop :=
  c = '+' ∨ c = '-'

namespace Scanner

variable {convention : Convention} {scanner after : Scanner} {c : Char}

/-- The kinds of the open scopes, innermost first. -/
def kinds (scanner : Scanner) : List ScopeKind :=
  scanner.scopes.map OpenScope.kind

/-- The scanner moved past a character. -/
def past (scanner : Scanner) (c : Char) : Scanner :=
  { scanner with position := scanner.position + c.utf8Size }

/-- A step reads the character and moves past it. -/
theorem step_eq_ok :
    scanner.step convention c = .ok after ↔
      ∃ scanned, scanner.read convention c = .ok scanned ∧ after = scanned.past c := by
  simp only [step, bind_eq_ok, pure_eq_ok]
  constructor
  · rintro ⟨scanned, result, rfl⟩
    exact ⟨scanned, result, rfl⟩
  · rintro ⟨scanned, result, rfl⟩
    exact ⟨scanned, result, rfl⟩

/-- Nothing is read from the empty text. -/
theorem run_nil : scanner.run convention [] = .ok scanner := rfl

/-- A text is read from its first character. -/
theorem run_cons (rest : List Char) :
    scanner.run convention (c :: rest) =
      scanner.step convention c >>= fun next => next.run convention rest := rfl

/-- A text is read through its parts. -/
theorem run_append (first second : List Char) :
    scanner.run convention (first ++ second) =
      scanner.run convention first >>= fun next => next.run convention second := by
  simp only [run, List.foldlM_append]

/-- A text can be read if its first character can, and the rest from there. -/
theorem run_cons_eq_ok {rest : List Char} :
    scanner.run convention (c :: rest) = .ok after ↔
      ∃ next, scanner.step convention c = .ok next ∧ next.run convention rest = .ok after := by
  rw [run_cons, bind_eq_ok]

/-- A text can be read if its first part can, and the second one from there. -/
theorem run_append_eq_ok {first second : List Char} :
    scanner.run convention (first ++ second) = .ok after ↔
      ∃ middle, scanner.run convention first = .ok middle ∧
        middle.run convention second = .ok after := by
  rw [run_append, bind_eq_ok]

/-- The character goes on with what the scanner is reading. -/
inductive Continues (scanner : Scanner) (c : Char) : Scanner → Prop where
  | blank (reading : scanner.reading = .blanks) (blank : Text.isBlank c = true) :
      Continues scanner c scanner
  | comparison {first : Char} (reading : scanner.reading = .comparison first)
      (pair : isComparisonPair first c = true) :
      Continues scanner c
        ((scanner.emit { value := [first, c], kind := .infixOperator }).continueAs .formula)
  | text (reading : scanner.reading = .text) (inside : c ≠ '"') :
      Continues scanner c (scanner.push c)
  | quote (reading : scanner.reading = .text) (quote : c = '"') :
      Continues scanner c (scanner.continueAs .textQuote)
  | doubledQuote (reading : scanner.reading = .textQuote) (quote : c = '"') :
      Continues scanner c ((scanner.push c).continueAs .text)
  | path (reading : scanner.reading = .path) (inside : c ≠ '\'') :
      Continues scanner c (scanner.push c)
  | pathEnd (reading : scanner.reading = .path) (quote : c = '\'') :
      Continues scanner c ((scanner.push c).continueAs .pathQuote)
  | doubledPathQuote (reading : scanner.reading = .pathQuote) (quote : c = '\'') :
      Continues scanner c ((scanner.push c).continueAs .path)
  | bracket (reading : scanner.reading = .bracket) (inside : c ≠ ']') :
      Continues scanner c (scanner.push c)
  | bracketEnd (reading : scanner.reading = .bracket) (closing : c = ']') :
      Continues scanner c ((scanner.push c).continueAs .formula)
  | errorCode (reading : scanner.reading = .errorCode)
      (incomplete : (c :: scanner.pending).reverse ∉ errorCodes) :
      Continues scanner c (scanner.push c)
  | errorCodeEnd (reading : scanner.reading = .errorCode)
      (complete : (c :: scanner.pending).reverse ∈ errorCodes) :
      Continues scanner c
        (((scanner.push c).emitPending .operand (some .error)).continueAs .formula)

/-- The scanner as it meets a character that does not go on with what it is reading. -/
def resume (scanner : Scanner) : Scanner :=
  match scanner.reading with
  | .textQuote => scanner.endText
  | .comparison first =>
      (scanner.emit { value := [first], kind := .infixOperator }).continueAs .formula
  | _ => scanner.continueAs .formula

/-- The character does not go on with what the scanner is reading. -/
def Resumes (scanner : Scanner) (c : Char) : Prop :=
  match scanner.reading with
  | .formula => True
  | .blanks => Text.isBlank c = false
  | .comparison first => isComparisonPair first c = false
  | .textQuote => c ≠ '"'
  | .pathQuote => c ≠ '\''
  | _ => False

/-- The scanner knows an error code by its characters, which are pending in reverse. -/
theorem any_errorCodes_iff (pending : List Char) :
    (errorCodes.any fun code => code.reverse == pending) = true ↔ pending.reverse ∈ errorCodes := by
  simp only [List.any_eq_true, beq_iff_eq]
  constructor
  · rintro ⟨code, member, rfl⟩
    rwa [List.reverse_reverse]
  · intro member
    exact ⟨pending.reverse, member, List.reverse_reverse pending⟩

/-- A character either goes on with what the scanner is reading, or ends it and is read on its own.
-/
theorem read_cases (result : scanner.read convention c = .ok after) :
    scanner.Continues c after ∨
      scanner.Resumes c ∧ scanner.resume.readFormula convention c = .ok after := by
  unfold read at result
  cases reading : scanner.reading with
  | formula =>
      right
      simp only [reading] at result
      have same : scanner.continueAs .formula = scanner := by
        rw [continueAs, ← reading]
      simp only [Resumes, resume, reading, same]
      exact ⟨trivial, result⟩
  | blanks =>
      simp only [reading] at result
      by_cases blank : Text.isBlank c = true
      · simp only [blank, ↓reduceIte, Except.ok.injEq] at result
        subst result
        exact .inl (.blank reading blank)
      · simp only [blank, ↓reduceIte, Bool.false_eq_true] at result
        simp only [Resumes, resume, reading]
        exact .inr ⟨by simpa using blank, result⟩
  | comparison first =>
      simp only [reading] at result
      by_cases pair : isComparisonPair first c = true
      · simp only [pair, ↓reduceIte, Except.ok.injEq] at result
        subst result
        exact .inl (.comparison reading pair)
      · simp only [pair, ↓reduceIte, Bool.false_eq_true] at result
        simp only [Resumes, resume, reading]
        exact .inr ⟨by simpa using pair, result⟩
  | text =>
      left
      simp only [reading, Except.ok.injEq] at result
      by_cases quote : c = '"'
      · simp only [quote, ↓reduceIte] at result
        exact result ▸ .quote reading quote
      · simp only [quote, ↓reduceIte] at result
        exact result ▸ .text reading quote
  | textQuote =>
      simp only [reading] at result
      by_cases quote : c = '"'
      · simp only [quote, ↓reduceIte, Except.ok.injEq] at result
        left
        rw [← result, ← quote]
        exact .doubledQuote reading quote
      · simp only [quote, ↓reduceIte] at result
        simp only [Resumes, resume, reading]
        exact .inr ⟨quote, result⟩
  | path =>
      left
      simp only [reading, Except.ok.injEq] at result
      by_cases quote : c = '\''
      · simp only [quote, ↓reduceIte] at result
        rw [← result, ← quote]
        exact .pathEnd reading quote
      · simp only [quote, ↓reduceIte] at result
        exact result ▸ .path reading quote
  | pathQuote =>
      simp only [reading] at result
      by_cases quote : c = '\''
      · simp only [quote, ↓reduceIte, Except.ok.injEq] at result
        left
        rw [← result, ← quote]
        exact .doubledPathQuote reading quote
      · simp only [quote, ↓reduceIte] at result
        simp only [Resumes, resume, reading]
        exact .inr ⟨quote, result⟩
  | bracket =>
      left
      simp only [reading, Except.ok.injEq] at result
      by_cases closing : c = ']'
      · simp only [closing, ↓reduceIte] at result
        rw [← result, ← closing]
        exact .bracketEnd reading closing
      · simp only [closing, ↓reduceIte] at result
        exact result ▸ .bracket reading closing
  | errorCode =>
      left
      simp only [reading, Except.ok.injEq, any_errorCodes_iff] at result
      change (if (c :: scanner.pending).reverse ∈ errorCodes then _ else _) = after at result
      by_cases complete : (c :: scanner.pending).reverse ∈ errorCodes
      · rw [if_pos complete] at result
        exact result ▸ .errorCodeEnd reading complete
      · rw [if_neg complete] at result
        exact result ▸ .errorCode reading complete

/-- Reading a character on its own. -/
inductive Turns (convention : Convention) (scanner : Scanner) (c : Char) : Scanner → Prop where
  | exponent (sign : IsSign c) (awaited : Operand.awaitsExponent scanner.pending.reverse = true) :
      Turns convention scanner c (scanner.push c)
  | text (quote : c = '"') :
      Turns convention scanner c ((scanner.flush .unknown).continueAs .text)
  | path (quote : c = '\'') :
      Turns convention scanner c (((scanner.flush .unknown).push c).continueAs .path)
  | bracket (opening : c = '[') :
      Turns convention scanner c ((scanner.push c).continueAs .bracket)
  | errorCode (mark : c = '#') :
      Turns convention scanner c (((scanner.flush .unknown).push c).continueAs .errorCode)
  | array (opening : c = '\x7b') :
      Turns convention scanner c
        (((scanner.flush .unknown).openScope .array arrayName).openScope .arrayRow arrayRowName)
  | arrayEnd {row after : Scanner} (closing : c = '\x7d')
      (closedRow : (scanner.flush .operand).closeScope c [.arrayRow] = .ok row)
      (closedArray : row.closeScope c [.array] = .ok after) :
      Turns convention scanner c after
  | blank (blank : Text.isBlank c = true) :
      Turns convention scanner c
        (((scanner.flush .operand).emit { value := [' '], kind := .blank }).continueAs .blanks)
  | comparison (mark : c = '<' ∨ c = '>') :
      Turns convention scanner c ((scanner.flush .operand).continueAs (.comparison c))
  | operator (mark : c ∈ infixCharacters) (single : c ≠ '<' ∧ c ≠ '>') :
      Turns convention scanner c
        ((scanner.flush .operand).emit { value := [c], kind := .infixOperator })
  | percent (mark : c = '%') :
      Turns convention scanner c
        ((scanner.flush .operand).emit { value := [c], kind := .postfixOperator })
  | opened (opening : c = '(') : Turns convention scanner c scanner.openParenthesis
  | closed {after : Scanner} (closing : c = ')')
      (closed : (scanner.flush .operand).closeScope c [.function, .subexpression] = .ok after) :
      Turns convention scanner c after
  | separator (separator : c = convention.separator) :
      Turns convention scanner c ((scanner.flush .operand).separate c)
  | row {after : Scanner} (semicolon : c = ';') (us : convention = .us)
      (result : (scanner.flush .operand).nextRow = .ok after) :
      Turns convention scanner c after
  | ordinary (ordinary : IsOrdinary convention c) : Turns convention scanner c (scanner.push c)

/-- The ways to read a character on its own are all there are. -/
theorem turns_of_readFormula (result : scanner.readFormula convention c = .ok after) :
    scanner.Turns convention c after := by
  unfold readFormula at result
  by_cases exponent : (c = '+' ∨ c = '-') ∧ Operand.awaitsExponent scanner.pending.reverse
  · rw [if_pos exponent] at result
    exact Except.ok.inj result ▸ .exponent exponent.1 exponent.2
  rw [if_neg exponent] at result
  by_cases quote : c = '"'
  · rw [if_pos quote] at result
    exact Except.ok.inj result ▸ .text quote
  rw [if_neg quote] at result
  by_cases apostrophe : c = '\''
  · rw [if_pos apostrophe] at result
    exact Except.ok.inj result ▸ .path apostrophe
  rw [if_neg apostrophe] at result
  by_cases bracket : c = '['
  · rw [if_pos bracket] at result
    exact Except.ok.inj result ▸ .bracket bracket
  rw [if_neg bracket] at result
  by_cases number : c = '#'
  · rw [if_pos number] at result
    exact Except.ok.inj result ▸ .errorCode number
  rw [if_neg number] at result
  by_cases brace : c = '\x7b'
  · rw [if_pos brace] at result
    exact Except.ok.inj result ▸ .array brace
  rw [if_neg brace] at result
  by_cases braceEnd : c = '\x7d'
  · rw [if_pos braceEnd] at result
    obtain ⟨row, closedRow, closedArray⟩ := bind_eq_ok.mp result
    exact .arrayEnd braceEnd closedRow closedArray
  rw [if_neg braceEnd] at result
  by_cases blank : Text.isBlank c = true
  · rw [if_pos blank] at result
    exact Except.ok.inj result ▸ .blank blank
  rw [if_neg blank] at result
  by_cases comparison : c = '<' ∨ c = '>'
  · rw [if_pos comparison] at result
    exact Except.ok.inj result ▸ .comparison comparison
  rw [if_neg comparison] at result
  by_cases operator : c ∈ infixCharacters
  · rw [if_pos operator] at result
    exact Except.ok.inj result ▸ .operator operator (not_or.mp comparison)
  rw [if_neg operator] at result
  by_cases percent : c = '%'
  · rw [if_pos percent] at result
    exact Except.ok.inj result ▸ .percent percent
  rw [if_neg percent] at result
  by_cases parenthesis : c = '('
  · rw [if_pos parenthesis] at result
    exact Except.ok.inj result ▸ .opened parenthesis
  rw [if_neg parenthesis] at result
  by_cases parenthesisEnd : c = ')'
  · rw [if_pos parenthesisEnd] at result
    exact .closed parenthesisEnd result
  rw [if_neg parenthesisEnd] at result
  by_cases separator : c = convention.separator
  · rw [if_pos separator] at result
    exact Except.ok.inj result ▸ .separator separator
  rw [if_neg separator] at result
  by_cases semicolon : c = ';'
  · rw [if_pos semicolon] at result
    cases convention with
    | us => exact .row semicolon rfl result
    | eu => exact (separator semicolon).elim
  rw [if_neg semicolon] at result
  refine Except.ok.inj result ▸ .ordinary ⟨?_, by simpa using blank, separator⟩
  simp only [markCharacters, List.mem_append, List.mem_cons, List.not_mem_nil, quote,
    apostrophe, bracket, number, brace, braceEnd, percent, parenthesis, parenthesisEnd, semicolon,
    operator, or_self, not_false_eq_true]

end Scanner

end SheetFormula
