import SheetFormula.Proofs.Stream.Finish
import Mathlib.Data.List.TakeWhile

/-!
# Where a formula is refused

The scanner stops at the first closing character that finds no scope of its own open, and nowhere
else (`Scanner.step_eq_error`).  Its position is the number of bytes that it has passed, so the
error says where the character stands.  What stands before the character can be read, and what
stands behind it is never looked at (`tokenize_refused`).
-/

namespace SheetFormula

/-- A computation in two steps fails at the first or at the second one. -/
theorem bind_eq_error {ε α β : Type} {computed : Except ε α} {next : α → Except ε β} {e : ε} :
    (computed >>= next) = .error e ↔
      computed = .error e ∨ ∃ a, computed = .ok a ∧ next a = .error e := by
  cases computed <;> simp [bind, Except.bind]

private theorem error_of_ite {ε α : Type} {condition : Prop} [Decidable condition] {a : α}
    {other : Except ε α} {e : ε} (refused : (if condition then .ok a else other) = .error e) :
    other = .error e := by
  by_cases holds : condition
  · rw [if_pos holds] at refused
    cases refused
  · rwa [if_neg holds] at refused

namespace Scanner

variable {convention : Convention} {scanner after : Scanner} {c : Char} {error : FormulaError}

/-- A scope that cannot be closed is blamed on the character, at its position. -/
theorem closeScope_eq_error {found : Char} {expected : List ScopeKind}
    (refused : scanner.closeScope found expected = .error error) :
    error = .unbalanced scanner.position found := by
  unfold closeScope at refused
  split at refused
  · split at refused
    · cases refused
    · exact (Except.error.inj refused).symm
  · exact (Except.error.inj refused).symm

/-- A semicolon is never refused. -/
theorem nextRow_ne_error : scanner.nextRow ≠ .error error := by
  intro refused
  unfold nextRow at refused
  split at refused
  · rename_i inRow
    rcases bind_eq_error.mp refused with unclosed | ⟨closed, _, opened⟩
    · unfold closeScope at unclosed
      unfold ScopeStack.innermost? at inRow
      cases scopes : scanner.scopes with
      | nil => simp [scopes] at inRow
      | cons scope outer => simp_all
    · cases opened
  · cases refused

/-- Emitting the pending text does not move the scanner. -/
@[simp]
theorem flush_position (kind : TokenKind) : (scanner.flush kind).position = scanner.position := by
  unfold flush
  split <;> rfl

/-- Read on its own, only a closing parenthesis or brace is refused, and blamed where it stands. -/
theorem readFormula_eq_error (refused : scanner.readFormula convention c = .error error) :
    (c = ')' ∨ c = '\x7d') ∧ error = .unbalanced scanner.position c := by
  unfold readFormula at refused
  -- the characters before the closing brace
  iterate 6 replace refused := error_of_ite refused
  by_cases brace : c = '\x7d'
  · rw [if_pos brace] at refused
    refine ⟨.inr brace, ?_⟩
    rcases bind_eq_error.mp refused with row | ⟨closed, row, array⟩
    · simpa using closeScope_eq_error row
    · obtain ⟨_, _, _, _, rfl⟩ := closeScope_eq_ok.mp row
      simpa using closeScope_eq_error array
  rw [if_neg brace] at refused
  -- blanks, operators and the opening parenthesis
  iterate 5 replace refused := error_of_ite refused
  by_cases parenthesis : c = ')'
  · rw [if_pos parenthesis] at refused
    exact ⟨.inl parenthesis, by simpa using closeScope_eq_error refused⟩
  rw [if_neg parenthesis] at refused
  replace refused := error_of_ite refused
  split at refused
  · exact (nextRow_ne_error refused).elim
  · cases refused

/-- A character that goes on with what the scanner is reading is never refused. -/
theorem read_eq_error (refused : scanner.read convention c = .error error) :
    scanner.Resumes c ∧ scanner.resume.readFormula convention c = .error error := by
  unfold read at refused
  unfold Resumes resume
  cases reading : scanner.reading with
  | formula =>
      simp only [reading] at refused
      have same : scanner.continueAs .formula = scanner := by rw [continueAs, ← reading]
      exact ⟨trivial, same.symm ▸ refused⟩
  | blanks =>
      simp only [reading] at refused
      split at refused
      · cases refused
      · rename_i visible
        exact ⟨by simpa using visible, refused⟩
  | comparison first =>
      simp only [reading] at refused
      split at refused
      · cases refused
      · rename_i single
        exact ⟨by simpa using single, refused⟩
  | textQuote =>
      simp only [reading] at refused
      split at refused
      · cases refused
      · rename_i other
        exact ⟨other, refused⟩
  | pathQuote =>
      simp only [reading] at refused
      split at refused
      · cases refused
      · rename_i other
        exact ⟨other, refused⟩
  | _ =>
      simp only [reading] at refused
      cases refused

/-- Ending what the scanner is reading does not move it. -/
theorem resume_position : scanner.resume.position = scanner.position := by
  unfold resume
  split <;> rfl

/-- The scanner only stops at a closing character, and blames it where it stands. -/
theorem step_eq_error (refused : scanner.step convention c = .error error) :
    (c = ')' ∨ c = '\x7d') ∧ error = .unbalanced scanner.position c := by
  rcases bind_eq_error.mp refused with unread | ⟨_, _, moved⟩
  · obtain ⟨closer, blamed⟩ := readFormula_eq_error (read_eq_error unread).2
    rw [resume_position] at blamed
    exact ⟨closer, blamed⟩
  · cases moved

private theorem Turns.position_eq (turn : scanner.Turns convention c after) :
    after.position = scanner.position := by
  cases turn with
  | arrayEnd _ closedRow closedArray =>
      obtain ⟨_, _, _, _, rfl⟩ := closeScope_eq_ok.mp closedRow
      obtain ⟨_, _, _, _, rfl⟩ := closeScope_eq_ok.mp closedArray
      exact flush_position _
  | closed _ closed =>
      obtain ⟨_, _, _, _, rfl⟩ := closeScope_eq_ok.mp closed
      exact flush_position _
  | opened _ =>
      unfold openParenthesis
      split <;> rfl
  | separator _ =>
      unfold separate
      split <;> exact flush_position _
  | row _ _ result =>
      unfold nextRow at result
      split at result
      · obtain ⟨closed, closing, opened⟩ := bind_eq_ok.mp result
        obtain ⟨_, _, _, _, rfl⟩ := closeScope_eq_ok.mp closing
        obtain rfl := pure_eq_ok.mp opened
        exact flush_position _
      · obtain rfl := Except.ok.inj result
        exact flush_position _
  | exponent _ _ => rfl
  | bracket _ => rfl
  | ordinary _ => rfl
  | _ => exact flush_position _

private theorem step_position (result : scanner.step convention c = .ok after) :
    after.position = scanner.position + c.utf8Size := by
  obtain ⟨scanned, read, rfl⟩ := step_eq_ok.mp result
  have stays : scanned.position = scanner.position := by
    rcases read_cases read with continues | ⟨_, alone⟩
    · cases continues <;> rfl
    · rw [(turns_of_readFormula alone).position_eq, resume_position]
  rw [past, stays]

/-- The position counts the bytes of the text that was read. -/
theorem run_position {text : List Char} (result : scanner.run convention text = .ok after) :
    after.position = scanner.position + Text.byteCount text := by
  induction text generalizing scanner with
  | nil =>
      obtain rfl := Except.ok.inj result
      rfl
  | cons c rest ih =>
      obtain ⟨next, stepped, ran⟩ := run_cons_eq_ok.mp result
      rw [ih ran, step_position stepped]
      exact Nat.add_assoc _ _ _

/-- A text is refused at one of its characters, after all before it has been read. -/
theorem run_eq_error {text : List Char} :
    scanner.run convention text = .error error ↔
      ∃ before c rest middle, text = before ++ c :: rest ∧
        scanner.run convention before = .ok middle ∧ middle.step convention c = .error error := by
  constructor
  · intro refused
    induction text generalizing scanner with
    | nil => cases refused
    | cons c rest ih =>
        rcases bind_eq_error.mp refused with first | ⟨next, stepped, later⟩
        · exact ⟨[], c, rest, scanner, rfl, rfl, first⟩
        · obtain ⟨before, d, further, middle, rfl, ran, stopped⟩ := ih later
          exact ⟨c :: before, d, further, middle, rfl, run_cons_eq_ok.mpr ⟨next, stepped, ran⟩,
            stopped⟩
  · rintro ⟨before, c, rest, middle, rfl, ran, stopped⟩
    rw [run_append, ran]
    change middle.run convention (c :: rest) = .error error
    rw [run_cons, stopped]
    rfl

end Scanner

namespace Text

/-- The bytes of two texts add up. -/
theorem byteCount_append (first second : List Char) :
    byteCount (first ++ second) = byteCount first + byteCount second := by
  induction first with
  | nil => exact (Nat.zero_add _).symm
  | cons c rest ih =>
      change c.utf8Size + byteCount (rest ++ second) = c.utf8Size + byteCount rest + _
      omega

private theorem byteCount_eq_zero {text : List Char} (empty : byteCount text = 0) : text = [] := by
  cases text with
  | nil => rfl
  | cons c rest =>
      change c.utf8Size + byteCount rest = 0 at empty
      have := c.utf8Size_pos
      omega

end Text

/-- The body of a formula with an equals sign begins behind that sign. -/
theorem formulaBody_of_equals {formula rest : List Char}
    (start : Text.trimStart formula = '=' :: rest) : formulaBody formula = rest := by
  rw [formulaBody, start]
  rfl

/-- The body of a formula without an equals sign begins with its first visible character. -/
theorem formulaBody_of_other {formula : List Char}
    (other : ∀ rest, Text.trimStart formula ≠ '=' :: rest) :
    formulaBody formula = Text.trimStart formula := by
  rw [formulaBody]
  split
  · rename_i rest start
    exact (other rest start).elim
  · rfl

/-- What stands before the body of a formula has no body of its own, and it stands before the body
of every text that begins with it and the first character of the body. -/
structure IsLead (lead formula : List Char) : Prop where
  split : formula = lead ++ formulaBody formula
  empty : ∀ shorter, shorter <+: lead → formulaBody shorter = []
  stands : ∀ c rest more, formulaBody formula = c :: rest →
    formulaBody (lead ++ c :: more) = c :: more

/-- Every formula consists of a lead and its body. -/
theorem exists_isLead (formula : List Char) : ∃ lead, IsLead lead formula := by
  have blanks : ∀ c ∈ formula.takeWhile Text.isBlank, Text.isBlank c = true := by
    intro c member
    exact List.mem_takeWhile_imp member
  have shorterBlank {shorter : List Char} (inside : shorter <+: formula.takeWhile Text.isBlank) :
      formulaBody shorter = [] := by
    have dropped : Text.trimStart shorter = [] := by
      rw [Text.trimStart, List.dropWhile_eq_nil_iff]
      intro c member
      exact blanks c (inside.subset member)
    rw [formulaBody, dropped]
  have whole : formula.takeWhile Text.isBlank ++ Text.trimStart formula = formula :=
    List.takeWhile_append_dropWhile
  have trimmed (text : List Char) (visible : ∀ c ∈ text.head?, Text.isBlank c = false) :
      Text.trimStart (formula.takeWhile Text.isBlank ++ text) = text := by
    rw [Text.trimStart, List.dropWhile_append_of_pos blanks]
    cases text with
    | nil => rfl
    | cons c rest => exact List.dropWhile_cons_of_neg (by simp [visible c rfl])
  by_cases equals : ∃ rest, Text.trimStart formula = '=' :: rest
  · obtain ⟨rest, start⟩ := equals
    have body : formulaBody formula = rest := formulaBody_of_equals start
    refine ⟨formula.takeWhile Text.isBlank ++ ['='], ?_, ?_, ?_⟩
    · rw [body, List.append_assoc, List.singleton_append, ← start, whole]
    · intro shorter inside
      rcases List.prefix_concat_iff.mp inside with rfl | inside
      · exact formulaBody_of_equals (trimmed ['='] (by simp; rfl))
      · exact shorterBlank inside
    · intro c rest more _
      rw [List.append_assoc, List.singleton_append]
      exact formulaBody_of_equals (trimmed _ (by simp; rfl))
  · have body : formulaBody formula = Text.trimStart formula :=
      formulaBody_of_other fun rest start => equals ⟨rest, start⟩
    refine ⟨formula.takeWhile Text.isBlank, ?_, fun shorter => shorterBlank, ?_⟩
    · rw [body, whole]
    · intro c rest more start
      rw [body] at start
      have visible : Text.isBlank c = false := by
        have := List.head?_dropWhile_not Text.isBlank formula
        rw [← Text.trimStart, start] at this
        simpa using this
      have other : c ≠ '=' := by
        rintro rfl
        exact equals ⟨rest, start⟩
      have start := trimmed (c :: more) (by simpa using visible)
      rw [formulaBody_of_other, start]
      intro rest same
      rw [start] at same
      exact other (List.cons.inj same).1

variable {convention : Convention} {formula lead : List Char}

/-- Scanning starts empty, at the position behind the lead. -/
theorem start_of_split (split : formula = lead ++ formulaBody formula) :
    Scanner.start formula = { position := Text.byteCount lead } := by
  have size : Text.byteCount formula =
      Text.byteCount lead + Text.byteCount (formulaBody formula) := by
    rw [← Text.byteCount_append, ← split]
  rw [Scanner.start, size, Nat.add_sub_cancel]

/-- A text that begins like the formula is scanned from the same state. -/
theorem IsLead.scanFormula_eq (isLead : IsLead lead formula) {c : Char} {rest : List Char}
    (body : formulaBody formula = c :: rest) (more : List Char) :
    scanFormula convention (lead ++ c :: more) =
      (Scanner.start formula).run convention (c :: more) := by
  have stands := isLead.stands c rest more body
  have split : lead ++ c :: more = lead ++ formulaBody (lead ++ c :: more) := by rw [stands]
  rw [scanFormula, start_of_split split, stands, start_of_split isLead.split]

/-- Only scanning can fail: finishing the tokens cannot. -/
theorem tokenize_eq_error {error : FormulaError} :
    tokenize convention formula = .error error ↔ scanFormula convention formula = .error error := by
  rw [tokenize, bind_eq_error]
  constructor
  · rintro (refused | ⟨_, _, finished⟩)
    · exact refused
    · cases finished
  · exact .inl

/-- Nothing is refused before the end of a text that the scanner reads to its end. -/
theorem IsLead.tokenize_prefix (isLead : IsLead lead formula) {before rest : List Char}
    {middle : Scanner} (body : formulaBody formula = before ++ rest)
    (ran : (Scanner.start formula).run convention before = .ok middle) {shorter : List Char}
    (inside : shorter <+: lead ++ before) : ∃ tokens, tokenize convention shorter = .ok tokens := by
  have scanned {text : List Char} {scanner : Scanner}
      (result : scanFormula convention text = .ok scanner) :
      ∃ tokens, tokenize convention text = .ok tokens :=
    ⟨_, tokenize_eq_ok.mpr ⟨scanner, result, rfl⟩⟩
  rcases List.prefix_or_prefix_of_prefix inside (List.prefix_append lead before) with short | long
  · have empty := isLead.empty shorter short
    exact scanned (by rw [scanFormula, empty]; rfl)
  · obtain ⟨part, rfl⟩ := long
    obtain ⟨more, rfl⟩ := (List.prefix_append_right_inj lead).mp inside
    obtain ⟨scanner, result, _⟩ := Scanner.run_append_eq_ok.mp ran
    cases part with
    | nil =>
        have empty := isLead.empty lead List.prefix_rfl
        rw [List.append_nil]
        exact scanned (by rw [scanFormula, empty]; rfl)
    | cons c part =>
        exact scanned ((isLead.scanFormula_eq body part).trans result)

/-- A refused formula is refused at a closing character that stands at the position of the error.
All that ends before it can be read, and all that begins with the text up to it is refused in the
same way. -/
theorem tokenize_refused {position : Nat} {found : Char}
    (refused : tokenize convention formula = .error (.unbalanced position found)) :
    (found = ')' ∨ found = '\x7d') ∧
      ∃ before rest, formula = before ++ found :: rest ∧ Text.byteCount before = position ∧
        (∀ shorter, shorter <+: formula → Text.byteCount shorter ≤ position →
          ∃ tokens, tokenize convention shorter = .ok tokens) ∧
        ∀ longer, before ++ [found] <+: longer →
          tokenize convention longer = .error (.unbalanced position found) := by
  obtain ⟨before, c, rest, middle, body, ran, stopped⟩ :=
    Scanner.run_eq_error.mp (tokenize_eq_error.mp refused)
  obtain ⟨closer, blamed⟩ := Scanner.step_eq_error stopped
  obtain ⟨rfl, rfl⟩ := FormulaError.unbalanced.inj blamed
  obtain ⟨lead, isLead⟩ := exists_isLead formula
  have position : Text.byteCount (lead ++ before) = middle.position := by
    rw [Scanner.run_position ran, start_of_split isLead.split, Text.byteCount_append]
  have split : formula = lead ++ before ++ found :: rest := by
    rw [List.append_assoc, ← body]
    exact isLead.split
  refine ⟨closer, lead ++ before, rest, split, position, fun shorter inside size => ?_,
    fun longer begins => ?_⟩
  · refine isLead.tokenize_prefix body ran ?_
    rw [split] at inside
    rcases List.prefix_or_prefix_of_prefix inside (List.prefix_append _ _) with short | long
    · exact short
    · obtain ⟨extra, rfl⟩ := long
      rw [Text.byteCount_append] at size
      have nothing : extra = [] := Text.byteCount_eq_zero (by omega)
      exact ⟨[], by rw [nothing, List.append_nil, List.append_nil]⟩
  · obtain ⟨more, rfl⟩ := begins
    obtain ⟨d, tail, first⟩ := List.exists_cons_of_ne_nil (List.concat_ne_nil found before)
    have whole : formulaBody formula = d :: (tail ++ rest) := by
      rw [body, ← List.cons_append, ← first, List.append_assoc, List.singleton_append]
    have again : lead ++ before ++ [found] ++ more = lead ++ d :: (tail ++ more) := by
      rw [List.append_assoc lead, first, List.append_assoc, List.cons_append]
    rw [tokenize_eq_error, again, isLead.scanFormula_eq whole, Scanner.run_eq_error]
    refine ⟨before, found, more, middle, ?_, ran, stopped⟩
    rw [← List.cons_append, ← first, List.append_assoc, List.singleton_append]

/-- The first brace is text, and the second one finds a call open, whatever stands behind it. -/
theorem tokenize_refused_brace :
    tokenize .us " =é\"\x7d\"&F(\x7d+1".toList = .error (.unbalanced 10 '\x7d') ∧
      ∃ before rest, " =é\"\x7d\"&F(\x7d+1".toList = before ++ '\x7d' :: rest ∧
        Text.byteCount before = 10 ∧
        (∀ shorter, shorter <+: " =é\"\x7d\"&F(\x7d+1".toList → Text.byteCount shorter ≤ 10 →
          ∃ tokens, tokenize .us shorter = .ok tokens) ∧
        ∀ longer, before ++ ['\x7d'] <+: longer →
          tokenize .us longer = .error (.unbalanced 10 '\x7d') := by
  have refused : tokenize .us " =é\"\x7d\"&F(\x7d+1".toList = .error (.unbalanced 10 '\x7d') := by
    rfl
  exact ⟨refused, (tokenize_refused refused).2⟩

end SheetFormula
