import SheetFormula.Proofs.Scanner.Opened
import SheetFormula.Proofs.Stream.Finish

/-!
# Literals

Texts, paths, brackets and error codes are literals: their characters have no meaning of their own.
`Literal` follows a formula through its literals by its characters alone.  The scanner agrees with
it at every character that it reads (`Scanner.run_literal`), and so the text operands of a formula
can be read off the formula without a scan (`tokenize_texts`).
-/

namespace SheetFormula

/-- The characters that may bound a scope or separate. -/
def delimiters : List Char :=
  ['(', ')', '\x7b', '\x7d', ',', ';']

/-- What a place in a formula lies in. -/
inductive Literal where
  | outside
  | text
  | path
  | bracket
  /-- An error code, of which some characters have been met, latest first. -/
  | errorCode (held : List Char)
  deriving DecidableEq, Repr

namespace Literal

/-- What the place behind a character lies in.  A doubled quote leaves a literal and enters it
again. -/
def next : Literal → Char → Literal
  | outside, c =>
      if c = '"' then text
      else if c = '\'' then path
      else if c = '[' then bracket
      else if c = '#' then errorCode ['#']
      else outside
  | text, c => if c = '"' then outside else text
  | path, c => if c = '\'' then outside else path
  | bracket, c => if c = ']' then outside else bracket
  | errorCode held, c =>
      if errorCodes.any fun code => code.reverse == c :: held then outside
      else errorCode (c :: held)

/-- What the end of a text lies in. -/
def after (literal : Literal) (text : List Char) : Literal :=
  text.foldl next literal

/-- The characters that begin a literal. -/
def beginners : List Char :=
  ['"', '\'', '[', '#']

variable {c : Char} {held : Option (List Char)}

@[simp]
private theorem after_nil (literal : Literal) : literal.after [] = literal := rfl

/-- A text is followed from its first character. -/
@[simp]
theorem after_cons (literal : Literal) (rest : List Char) :
    literal.after (c :: rest) = (literal.next c).after rest := rfl

/-- A text is followed through its parts. -/
theorem after_append (literal : Literal) (first second : List Char) :
    literal.after (first ++ second) = (literal.after first).after second :=
  List.foldl_append

/-- Only the characters that begin a literal lead into one. -/
theorem outside_next (plain : c ∉ beginners) : outside.next c = outside := by
  simp only [beginners, List.mem_cons, List.not_mem_nil, or_false, not_or] at plain
  simp [next, plain]

/-- A text without characters that begin literals stays outside of them. -/
theorem outside_after {text : List Char} (plain : ∀ c ∈ text, c ∉ beginners) :
    outside.after text = outside := by
  induction text with
  | nil => rfl
  | cons c rest ih =>
      obtain ⟨first, others⟩ := List.forall_mem_cons.mp plain
      rw [after_cons, outside_next first, ih others]

/-- No character of the text ends the literal. -/
def keeps (literal : Literal) (text : List Char) : Bool :=
  text.all fun c => literal.next c == literal

/-- A literal goes on through a text if it goes on through the first character and the rest. -/
theorem keeps_cons {literal : Literal} {rest : List Char} :
    literal.keeps (c :: rest) = true ↔ literal.next c = literal ∧ literal.keeps rest = true := by
  simp [keeps]

/-- A text that goes on with a literal ends in it. -/
theorem after_of_keeps {literal : Literal} {text : List Char} (kept : literal.keeps text = true) :
    literal.after text = literal := by
  induction text with
  | nil => rfl
  | cons c rest ih =>
      obtain ⟨first, others⟩ := keeps_cons.mp kept
      rw [after_cons, first, ih others]

/-- A bracket goes on as long as no closing bracket is met. -/
theorem bracket_keeps {field : List Char} (inside : ']' ∉ field) :
    bracket.keeps field = true := by
  refine List.all_eq_true.mpr fun c member => beq_iff_eq.mpr ?_
  rw [next, if_neg]
  rintro rfl
  exact inside member

/-- A blank neither begins a literal nor delimits anything. -/
theorem plain_of_isBlank (blank : Text.isBlank c = true) : c ∉ beginners ++ delimiters := by
  have visible : ∀ d ∈ beginners ++ delimiters, Text.isBlank d = false := by
    simp [beginners, delimiters, Text.isBlank]
  intro member
  rw [visible c member] at blank
  cases blank

/-- A blank begins no literal. -/
theorem not_beginner_of_isBlank (blank : Text.isBlank c = true) : c ∉ beginners :=
  fun member => plain_of_isBlank blank (List.mem_append_left _ member)

private theorem next_isBlank {literal : Literal} (blank : Text.isBlank c = true)
    (ended : literal.next c = outside) : literal = outside := by
  have other {d : Char} (visible : Text.isBlank d = false) : c ≠ d := by
    rintro rfl
    rw [blank] at visible
    cases visible
  cases literal with
  | outside => rfl
  | text => simp [next, @other '"' rfl] at ended
  | path => simp [next, @other '\'' rfl] at ended
  | bracket => simp [next, @other ']' rfl] at ended
  | errorCode held =>
      -- No error code ends with a blank, so the blank does not complete one.
      have complete : (c :: held).reverse ∈ errorCodes := by
        by_contra incomplete
        rw [next, if_neg (mt (Scanner.any_errorCodes_iff _).mp incomplete)] at ended
        cases ended
      have codes : ∀ code ∈ errorCodes, ∀ last ∈ code.getLast?, Text.isBlank last = false := by
        simp [errorCodes, Text.isBlank]
      have visible := codes _ complete c (by simp)
      rw [blank] at visible
      cases visible

/-- Blanks do not end a literal: a place behind which they end outside of literals is outside
itself. -/
theorem outside_of_blanks {literal : Literal} {blanks : List Char}
    (blank : ∀ c ∈ blanks, Text.isBlank c = true) (ended : literal.after blanks = outside) :
    literal = outside := by
  induction blanks generalizing literal with
  | nil => exact ended
  | cons c blanks ih =>
      obtain ⟨first, others⟩ := List.forall_mem_cons.mp blank
      exact next_isBlank first (ih others ended)

/-- The texts that a character ends, and the text that is open behind it, latest character first.
A text stays open behind its quote, in case the quote is doubled. -/
def gather : Literal → Option (List Char) → Char → List (List Char) × Option (List Char)
  | text, held, c => ([], if c = '"' then held else held.map (c :: ·))
  | outside, held, c =>
      if c = '"' then ([], some (held.elim [] ('"' :: ·)))
      else (held.toList.map List.reverse, none)
  | _, held, _ => (held.toList.map List.reverse, none)

/-- The contents of the texts in a text, the first of which may be open before it. -/
def texts : Literal → Option (List Char) → List Char → List (List Char)
  | _, held, [] => held.toList.map List.reverse
  | literal, held, c :: rest =>
      (literal.gather held c).1 ++ (literal.next c).texts (literal.gather held c).2 rest

/-- The text holds no double quote and ends outside of literals if it begins there. -/
structure IsMute (text : List Char) : Prop where
  unquoted : '"' ∉ text
  closed : outside.after text = outside

/-- A text without characters that begin literals is mute. -/
theorem isMute_of_plain {text : List Char} (plain : ∀ c ∈ text, c ∉ beginners) : IsMute text :=
  ⟨fun member => plain _ member (by decide), outside_after plain⟩

/-- Two mute texts are mute together. -/
theorem IsMute.append {first second : List Char} (before : IsMute first) (behind : IsMute second) :
    IsMute (first ++ second) := by
  refine ⟨?_, by rw [after_append, before.closed, behind.closed]⟩
  intro member
  exact (List.mem_append.mp member).elim before.unquoted behind.unquoted

/-- Mute texts, however many, are mute together. -/
theorem IsMute.flatMap {α : Type} {items : List α} {write : α → List Char}
    (mute : ∀ item ∈ items, IsMute (write item)) : IsMute (items.flatMap write) := by
  induction items with
  | nil => exact ⟨List.not_mem_nil, rfl⟩
  | cons item rest ih =>
      obtain ⟨first, others⟩ := List.forall_mem_cons.mp mute
      exact first.append (ih others)

/-- Outside of texts no text is found up to the next double quote. -/
theorem texts_unquoted {literal : Literal} {word : List Char} (other : literal ≠ text)
    (unquoted : '"' ∉ word) (closed : literal.after word = outside) (rest : List Char) :
    literal.texts none (word ++ rest) = outside.texts none rest := by
  induction word generalizing literal with
  | nil =>
      rw [after_nil] at closed
      rw [closed, List.nil_append]
  | cons c word ih =>
      obtain ⟨plain, others⟩ := not_or.mp (mt List.mem_cons.mpr unquoted)
      have unheld : literal.gather none c = ([], none) := by
        cases literal with
        | text => exact (other rfl).elim
        | outside => exact if_neg (Ne.symm plain)
        | _ => rfl
      have outsideText : literal.next c ≠ text := by
        cases literal with
        | text => exact (other rfl).elim
        | outside =>
            rw [next, if_neg (Ne.symm plain)]
            split_ifs <;> simp
        | _ =>
            rw [next]
            split_ifs <;> simp
      rw [List.cons_append, texts, unheld]
      exact ih outsideText others closed

/-- A word without texts ends the text that is open before it. -/
theorem IsMute.texts {word : List Char} (mute : IsMute word) (present : word ≠ [])
    (held : Option (List Char)) (rest : List Char) :
    outside.texts held (word ++ rest) =
      held.toList.map List.reverse ++ outside.texts none rest := by
  cases word with
  | nil => exact (present rfl).elim
  | cons c word =>
      have first : c ≠ '"' := by
        rintro rfl
        exact mute.unquoted List.mem_cons_self
      have ended (open' : Option (List Char)) :
          outside.gather open' c = (open'.toList.map List.reverse, none) := if_neg first
      have later := texts_unquoted (by simp) mute.unquoted mute.closed rest
      rw [List.cons_append, Literal.texts, ended] at later ⊢
      rw [← later]
      rfl

/-- In a path or a bracket no text is found, and the text that is open before it ends. -/
theorem texts_of_keeps {literal : Literal} (named : literal ∈ [path, bracket]) {word : List Char}
    (kept : literal.keeps word = true) (present : word ≠ []) (held : Option (List Char))
    (rest : List Char) :
    literal.texts held (word ++ rest) =
      held.toList.map List.reverse ++ literal.texts none rest := by
  have ended (held : Option (List Char)) (c : Char) :
      literal.gather held c = (held.toList.map List.reverse, none) := by
    simp only [List.mem_cons, List.not_mem_nil, or_false] at named
    rcases named with rfl | rfl <;> rfl
  induction word generalizing held with
  | nil => exact (present rfl).elim
  | cons c word ih =>
      obtain ⟨first, others⟩ := keeps_cons.mp kept
      rw [List.cons_append, texts, ended, first]
      cases word with
      | nil => rfl
      | cons d word => rw [ih others (List.cons_ne_nil d word)]; rfl

/-- The texts of a text that goes on, by what its first part leaves open. -/
theorem texts_append (literal : Literal) (held : Option (List Char)) (first : List Char) :
    ∃ found last, ∀ second, literal.texts held (first ++ second) =
      found ++ (literal.after first).texts last second := by
  induction first generalizing literal held with
  | nil => exact ⟨[], held, fun _ => rfl⟩
  | cons c first ih =>
      obtain ⟨found, last, split⟩ := ih (literal.next c) (literal.gather held c).2
      refine ⟨(literal.gather held c).1 ++ found, last, fun second => ?_⟩
      rw [List.cons_append, texts, split, List.append_assoc]
      rfl

/-- What is not part of a literal at the end of a text does not count. -/
theorem texts_concat {first last : List Char} (closed : outside.after first = outside)
    (plain : ∀ c ∈ last, c ∉ beginners) :
    outside.texts none (first ++ last) = outside.texts none first := by
  cases last with
  | nil => rw [List.append_nil]
  | cons c last =>
      obtain ⟨found, held, split⟩ := texts_append outside none first
      have whole := (isMute_of_plain plain).texts (List.cons_ne_nil c last) held []
      have bare := split []
      rw [List.append_nil] at whole bare
      rw [split, bare, closed, whole]
      exact congrArg _ (List.append_nil _)

end Literal

/-- No character of the text begins a literal, bounds a scope or separates. -/
def IsPlain (text : List Char) : Prop :=
  ∀ c ∈ text, c ∉ Literal.beginners ++ delimiters

instance (text : List Char) : Decidable (IsPlain text) :=
  List.decidableBAll (fun c => c ∉ Literal.beginners ++ delimiters) text

/-- No character of a plain text begins a literal. -/
theorem IsPlain.not_beginner {text : List Char} (plain : IsPlain text) :
    ∀ c ∈ text, c ∉ Literal.beginners :=
  fun c member begins => plain c member (List.mem_append_left _ begins)

/-- Blanks are plain. -/
theorem isPlain_of_blank {text : List Char} (blank : ∀ c ∈ text, Text.isBlank c = true) :
    IsPlain text :=
  fun c member => Literal.plain_of_isBlank (blank c member)

/-- The content of a text operand. -/
def Token.text? (token : Token) : Option (List Char) :=
  if token.isText then some token.value else none

/-- The contents of the text operands among the tokens. -/
def textValues (tokens : List Token) : List (List Char) :=
  tokens.filterMap Token.text?

private theorem textValues_append (first second : List Token) :
    textValues (first ++ second) = textValues first ++ textValues second :=
  List.filterMap_append

private theorem textValues_finishStream (convention : Convention) (tokens : List Token) :
    textValues (finishStream convention tokens) = textValues tokens := by
  refine seen_finishStream rfl fun token _ => ⟨?_, ?_, ?_⟩
  · intro blank
    simp [Token.text?, Token.isText, blank]
  · intro previous
    have alike := alike_resolveToken convention previous token
    rw [Token.text?, Token.text?, alike.isText, resolveToken_value]
  · intro previous discarded
    have alike := alike_resolveToken convention previous token
    rw [Token.text?, ← alike.isText]
    simp [Token.isText, discarded]

namespace Scanner

variable {convention : Convention} {scanner next : Scanner} {c : Char}

/-- The literal that the scanner is reading. -/
def literal (scanner : Scanner) : Literal :=
  match scanner.reading with
  | .text => .text
  | .path => .path
  | .bracket => .bracket
  | .errorCode => .errorCode scanner.pending
  | _ => .outside

/-- The text that the scanner is reading. -/
def openText (scanner : Scanner) : Option (List Char) :=
  match scanner.reading with
  | .text | .textQuote => some scanner.pending
  | _ => none

/-- The contents of the texts that the scanner has read. -/
def texts (scanner : Scanner) : List (List Char) :=
  textValues scanner.emitted.toList

private theorem texts_emit {token : Token} (plain : token.isText = false) :
    (scanner.emit token).texts = scanner.texts := by
  simp [texts, textValues, Token.text?, emit, plain]

private theorem texts_openScope (kind : ScopeKind) (value : List Char) :
    (scanner.openScope kind value).texts = scanner.texts := by
  cases kind <;> simp [texts, textValues, openScope, ScopeKind.startToken, ScopeKind.tokenKind,
    Token.text?, Token.isText]

@[simp]
private theorem texts_flush (kind : TokenKind) : (scanner.flush kind).texts = scanner.texts := by
  rw [texts, flush_emitted, textValues_append, pendingTokens]
  split
  · exact List.append_nil _
  · cases kind <;> exact List.append_nil _

private theorem texts_closeScope {found : Char} {expected : List ScopeKind}
    (closed : scanner.closeScope found expected = .ok next) : next.texts = scanner.texts := by
  obtain ⟨scope, outer, _, _, rfl⟩ := closeScope_eq_ok.mp closed
  simp [texts, textValues, Token.text?, scope.kind.stopToken_isText]

private theorem texts_nextRow (result : scanner.nextRow = .ok next) :
    next.texts = scanner.texts ∧ next.reading = scanner.reading := by
  unfold nextRow at result
  by_cases inRow : scanner.scopes.innermost? = some .arrayRow
  · rw [if_pos inRow] at result
    obtain ⟨closed, closing, opened⟩ := bind_eq_ok.mp result
    obtain rfl := pure_eq_ok.mp opened
    rw [texts_openScope, texts_emit rfl, texts_closeScope closing]
    obtain ⟨_, _, _, _, rfl⟩ := closeScope_eq_ok.mp closing
    exact ⟨rfl, rfl⟩
  · rw [if_neg inRow] at result
    obtain rfl := Except.ok.inj result
    exact ⟨texts_emit rfl, rfl⟩

private theorem outside_of_reading (reading : scanner.reading = .formula) :
    scanner.literal = .outside ∧ scanner.openText = none := by
  simp only [literal, openText, reading, and_self]

/-- What a character that is read on its own does to literals and texts. -/
theorem Turns.literal (turn : scanner.Turns convention c next)
    (reading : scanner.reading = .formula) :
    next.literal = Literal.outside.next c ∧ next.texts = scanner.texts ∧
      next.openText = if c = '"' then some [] else none := by
  have stays (plain : c ∉ Literal.beginners)
      (kept : next.literal = .outside ∧ next.openText = none)
      (same : next.texts = scanner.texts) :
      next.literal = Literal.outside.next c ∧ next.texts = scanner.texts ∧
        next.openText = if c = '"' then some [] else none := by
    have other : c ≠ '"' := by
      rintro rfl
      exact plain (by decide)
    refine ⟨?_, same, ?_⟩
    · rw [Literal.outside_next plain, kept.1]
    · rw [kept.2, if_neg other]
  have mark {expected : Char} (found : c = expected) (plain : expected ∉ Literal.beginners) :
      c ∉ Literal.beginners := found ▸ plain
  cases turn with
  | exponent sign _ =>
      exact stays (sign.elim (mark · (by decide)) (mark · (by decide)))
        (outside_of_reading reading) rfl
  | text quote =>
      subst quote
      refine ⟨rfl, texts_flush _, ?_⟩
      simp [openText, continueAs]
  | path quote =>
      subst quote
      exact ⟨rfl, texts_flush _, rfl⟩
  | bracket opening =>
      subst opening
      exact ⟨rfl, rfl, rfl⟩
  | errorCode number =>
      subst number
      refine ⟨?_, texts_flush _, rfl⟩
      simp [Scanner.literal, continueAs, push, Literal.next]
  | array opening =>
      refine stays (mark opening (by decide))
        (outside_of_reading (by simpa [openScope] using reading)) ?_
      rw [texts_openScope, texts_openScope, texts_flush]
  | arrayEnd closing closedRow closedArray =>
      have same := (texts_closeScope closedArray).trans
        ((texts_closeScope closedRow).trans (texts_flush .operand))
      obtain ⟨_, _, _, _, rfl⟩ := closeScope_eq_ok.mp closedRow
      obtain ⟨_, _, _, _, rfl⟩ := closeScope_eq_ok.mp closedArray
      exact stays (mark closing (by decide)) (outside_of_reading (by simpa using reading)) same
  | blank blank =>
      exact stays (Literal.not_beginner_of_isBlank blank) ⟨rfl, rfl⟩
        ((texts_emit rfl).trans (texts_flush _))
  | comparison sign =>
      exact stays (sign.elim (mark · (by decide)) (mark · (by decide))) ⟨rfl, rfl⟩ (texts_flush _)
  | operator sign _ =>
      have plain : ∀ d ∈ infixCharacters, d ∉ Literal.beginners := by
        simp [infixCharacters, Literal.beginners]
      exact stays (plain c sign) (outside_of_reading (by simpa [emit] using reading))
        ((texts_emit rfl).trans (texts_flush _))
  | percent sign =>
      exact stays (mark sign (by decide)) (outside_of_reading (by simpa [emit] using reading))
        ((texts_emit rfl).trans (texts_flush _))
  | opened opening =>
      refine stays (mark opening (by decide)) (outside_of_reading ?_) ?_
      · unfold openParenthesis
        split <;> exact reading
      · unfold openParenthesis
        split
        · exact texts_openScope _ _
        · exact texts_openScope _ _
  | closed closing closed =>
      have same := (texts_closeScope closed).trans (texts_flush .operand)
      obtain ⟨_, _, _, _, rfl⟩ := closeScope_eq_ok.mp closed
      exact stays (mark closing (by decide)) (outside_of_reading (by simpa using reading)) same
  | separator separator =>
      have plain : convention.separator ∉ Literal.beginners := by cases convention <;> decide
      refine stays (mark separator plain) (outside_of_reading ?_) ?_
      · unfold separate
        split <;> simpa [emit] using reading
      · unfold separate
        split <;> exact (texts_emit rfl).trans (texts_flush _)
  | row semicolon _ result =>
      obtain ⟨same, kept⟩ := texts_nextRow result
      exact stays (mark semicolon (by decide))
        (outside_of_reading (by rw [kept, flush_reading, reading])) (same.trans (texts_flush _))
  | ordinary ordinary =>
      refine stays ?_ (outside_of_reading reading) rfl
      have marks : ∀ d ∈ Literal.beginners, d ∈ markCharacters := by
        simp [Literal.beginners, markCharacters]
      exact fun member => ordinary.not_mark (marks c member)

/-- While a character goes on with what is read, literals and the texts in them are followed from
the character alone. -/
private theorem Continues.literal (continues : scanner.Continues c next) :
    next.literal = scanner.literal.next c ∧
      next.texts = scanner.texts ++ (scanner.literal.gather scanner.openText c).1 ∧
      next.openText = (scanner.literal.gather scanner.openText c).2 := by
  have outside (plain : c ∉ Literal.beginners) (here : scanner.literal = .outside)
      (closed : scanner.openText = none) :
      scanner.literal.next c = .outside ∧
        scanner.literal.gather scanner.openText c = ([], none) := by
    have other : c ≠ '"' := by
      rintro rfl
      exact plain (by decide)
    rw [here, closed, Literal.outside_next plain]
    exact ⟨rfl, if_neg other⟩
  cases continues with
  | blank reading blank =>
      have here : scanner.literal = .outside := by rw [Scanner.literal, reading]
      have closed : scanner.openText = none := by rw [openText, reading]
      obtain ⟨goal, gathered⟩ := outside (Literal.not_beginner_of_isBlank blank) here closed
      rw [goal, gathered, here, closed]
      exact ⟨rfl, (List.append_nil _).symm, rfl⟩
  | @comparison first reading pair =>
      have here : scanner.literal = .outside := by rw [Scanner.literal, reading]
      have closed : scanner.openText = none := by rw [openText, reading]
      have plain : c ∉ Literal.beginners := by
        intro member
        simp only [Literal.beginners, List.mem_cons, List.not_mem_nil, or_false] at member
        rcases member with rfl | rfl | rfl | rfl <;> simp [isComparisonPair] at pair
      obtain ⟨goal, gathered⟩ := outside plain here closed
      rw [goal, gathered]
      refine ⟨rfl, ?_, rfl⟩
      rw [List.append_nil]
      exact texts_emit rfl
  | text reading inside =>
      simp [Scanner.literal, openText, texts, push, reading, inside, Literal.next, Literal.gather]
  | quote reading quote =>
      simp [Scanner.literal, openText, texts, continueAs, reading, quote, Literal.next,
        Literal.gather]
  | doubledQuote reading quote =>
      simp [Scanner.literal, openText, texts, push, continueAs, reading, quote, Literal.next,
        Literal.gather]
  | path reading inside =>
      simp [Scanner.literal, openText, texts, push, reading, inside, Literal.next, Literal.gather]
  | pathEnd reading quote =>
      simp [Scanner.literal, openText, texts, push, continueAs, reading, quote, Literal.next,
        Literal.gather]
  | doubledPathQuote reading quote =>
      simp [Scanner.literal, openText, texts, push, continueAs, reading, quote, Literal.next,
        Literal.gather]
  | bracket reading inside =>
      simp [Scanner.literal, openText, texts, push, reading, inside, Literal.next, Literal.gather]
  | bracketEnd reading closing =>
      simp [Scanner.literal, openText, texts, push, continueAs, reading, closing, Literal.next,
        Literal.gather]
  | errorCode reading incomplete =>
      rw [List.reverse_cons] at incomplete
      simp [Scanner.literal, openText, texts, push, reading, incomplete, Literal.next,
        Literal.gather]
  | errorCodeEnd reading complete =>
      rw [List.reverse_cons] at complete
      simp [Scanner.literal, openText, texts, textValues, push, emitPending, continueAs, reading,
        complete, Literal.next, Literal.gather, Token.text?, Token.isText]

/-- A character that does not go on with what is read stands outside of literals.  A text that was
open before it is closed and counted, so the character is not another quote. -/
theorem Resumes.literal (resumes : scanner.Resumes c) :
    scanner.literal = .outside ∧
      scanner.resume.texts = scanner.texts ++ scanner.openText.toList.map List.reverse ∧
      (scanner.openText.isSome → c ≠ '"') := by
  unfold Resumes at resumes
  unfold resume
  cases reading : scanner.reading <;>
    simp_all [Scanner.literal, openText, texts, textValues, continueAs, endText, emitPending,
      emit, Token.text?, Token.isText]

/-- What one character does to literals and texts. -/
theorem step_literal (result : scanner.step convention c = .ok next) :
    next.literal = scanner.literal.next c ∧
      next.texts = scanner.texts ++ (scanner.literal.gather scanner.openText c).1 ∧
      next.openText = (scanner.literal.gather scanner.openText c).2 := by
  obtain ⟨scanned, read, rfl⟩ := step_eq_ok.mp result
  change scanned.literal = _ ∧ scanned.texts = _ ∧ scanned.openText = _
  rcases read_cases read with continues | ⟨resumes, alone⟩
  · exact continues.literal
  · obtain ⟨goal, same, opened⟩ := (turns_of_readFormula alone).literal resume_reading
    obtain ⟨here, resumed, unquoted⟩ := resumes.literal
    rw [here, goal, same, resumed, opened, Literal.gather]
    by_cases quote : c = '"'
    · have closed : scanner.openText = none := by
        by_contra held
        exact unquoted (Option.isSome_iff_ne_none.mpr held) quote
      simp [closed, quote]
    · simp [quote]

/-- The scanner is in a literal exactly where following the quotes and brackets of the text says so.
-/
theorem run_literal {text : List Char} (result : scanner.run convention text = .ok next) :
    next.literal = scanner.literal.after text := by
  induction text generalizing scanner with
  | nil =>
      obtain rfl := Except.ok.inj result
      rfl
  | cons c rest ih =>
      obtain ⟨one, first, others⟩ := run_cons_eq_ok.mp result
      rw [ih others, (step_literal first).1]
      rfl

private theorem run_texts {text : List Char} (result : scanner.run convention text = .ok next) :
    next.texts ++ next.openText.toList.map List.reverse =
      scanner.texts ++ scanner.literal.texts scanner.openText text := by
  induction text generalizing scanner with
  | nil =>
      obtain rfl := Except.ok.inj result
      rfl
  | cons c rest ih =>
      obtain ⟨one, first, others⟩ := run_cons_eq_ok.mp result
      obtain ⟨literal, texts, held⟩ := step_literal first
      rw [ih others, literal, texts, held, List.append_assoc]
      rfl

private theorem textValues_finish :
    textValues scanner.finish.toList =
      scanner.texts ++ scanner.openText.toList.map List.reverse := by
  have stops : textValues (scanner.kinds.map ScopeKind.stopToken) = [] := by
    simp [textValues, Token.text?, ScopeKind.stopToken_isText]
  have word : textValues (scanner.pendingTokens .operand) = [] := by
    unfold pendingTokens
    split <;> rfl
  have left : textValues scanner.leftover = scanner.openText.toList.map List.reverse := by
    unfold leftover openText
    cases scanner.reading with
    | text => rfl
    | textQuote => rfl
    | errorCode => rfl
    | comparison first => rfl
    | _ => exact word
  rw [finish_toList, textValues_append, textValues_append, stops, left, List.append_nil]
  rfl

end Scanner

/-- The text operands of a formula are the texts of its body. -/
theorem tokenize_texts {convention : Convention} {formula : List Char} {tokens : List Token}
    (read : tokenize convention formula = .ok tokens) :
    textValues tokens = Literal.outside.texts none (formulaBody formula) := by
  obtain ⟨scanner, scanned, rfl⟩ := tokenize_eq_ok.mp read
  rw [textValues_finishStream, Scanner.textValues_finish, Scanner.run_texts scanned]
  rfl

end SheetFormula
