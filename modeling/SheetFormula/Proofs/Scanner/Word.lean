import SheetFormula.Proofs.Scanner.Reading

/-!
# Words

A word is a text that the scanner gathers without emitting a token: a name, a number or a reference,
with paths and brackets in it.  `Gathers` follows the pending text character by character, and
`run_gathered` says that a scanner with nothing pending comes to hold exactly that text.
-/

namespace SheetFormula

/-- A word may end while the scanner reads in this way. -/
def Reading.isOpen : Reading → Bool
  | .formula | .pathQuote => true
  | _ => false

/-- The pending characters, latest first, are gathered into one word and leave the scanner reading
in the given way. -/
inductive Gathers (convention : Convention) : List Char → Reading → Prop where
  | start : Gathers convention [] .formula
  | ordinary {c : Char} {pending : List Char} {reading : Reading}
      (ordinary : IsOrdinary convention c) (isOpen : reading.isOpen = true)
      (before : Gathers convention pending reading) : Gathers convention (c :: pending) .formula
  | exponent {c : Char} {pending : List Char} {reading : Reading} (sign : IsSign c)
      (awaited : Operand.awaitsExponent pending.reverse = true) (isOpen : reading.isOpen = true)
      (before : Gathers convention pending reading) : Gathers convention (c :: pending) .formula
  | pathStart : Gathers convention ['\''] .path
  | path {c : Char} {pending : List Char} (inside : c ≠ '\'')
      (before : Gathers convention pending .path) : Gathers convention (c :: pending) .path
  | pathEnd {pending : List Char} (before : Gathers convention pending .path) :
      Gathers convention ('\'' :: pending) .pathQuote
  | doubledQuote {pending : List Char} (before : Gathers convention pending .pathQuote) :
      Gathers convention ('\'' :: pending) .path
  | bracketStart {pending : List Char} {reading : Reading} (isOpen : reading.isOpen = true)
      (before : Gathers convention pending reading) : Gathers convention ('[' :: pending) .bracket
  | bracket {c : Char} {pending : List Char} (inside : c ≠ ']')
      (before : Gathers convention pending .bracket) : Gathers convention (c :: pending) .bracket
  | bracketEnd {pending : List Char} (before : Gathers convention pending .bracket) :
      Gathers convention (']' :: pending) .formula

/-- The text is a name, a number or a reference. -/
def IsWord (convention : Convention) (text : List Char) : Prop :=
  text ≠ [] ∧ ∃ reading, reading.isOpen = true ∧ Gathers convention text.reverse reading

variable {convention : Convention}

/-- An ordinary character is none of those with a meaning of their own. -/
theorem IsOrdinary.not_mark {c : Char} (ordinary : IsOrdinary convention c) :
    c ∉ markCharacters :=
  ordinary.1

/-- An ordinary character is not a blank. -/
theorem IsOrdinary.not_blank {c : Char} (ordinary : IsOrdinary convention c) :
    Text.isBlank c = false :=
  ordinary.2.1

private theorem IsSign.not_blank {c : Char} (sign : IsSign c) : Text.isBlank c = false := by
  rcases sign with rfl | rfl <;> decide

namespace Gathers

variable {pending : List Char} {reading : Reading}

/-- While a word is gathered, the scanner is in the open or inside of a path or a bracket. -/
theorem reading_eq (gathered : Gathers convention pending reading) :
    reading.isOpen = true ∨ reading = .path ∨ reading = .bracket := by
  cases gathered <;> simp [Reading.isOpen]

/-- A word does not end in a blank. -/
theorem last_not_blank {c : Char} (gathered : Gathers convention (c :: pending) reading)
    (isOpen : reading.isOpen = true) : Text.isBlank c = false := by
  cases gathered with
  | ordinary ordinary _ _ => exact ordinary.not_blank
  | exponent sign _ _ _ => exact sign.not_blank
  | pathStart => cases isOpen
  | path _ _ => cases isOpen
  | pathEnd _ => decide
  | doubledQuote _ => cases isOpen
  | bracketStart _ _ => cases isOpen
  | bracket _ _ => cases isOpen
  | bracketEnd _ => decide

/-- A word begins with an ordinary character, a path or a bracket. -/
theorem first_character (gathered : Gathers convention pending reading) :
    ∀ c ∈ pending.getLast?, IsOrdinary convention c ∨ c = '\'' ∨ c = '[' := by
  have extend {pending : List Char} {c : Char}
      (ih : ∀ first ∈ pending.getLast?, IsOrdinary convention first ∨ first = '\'' ∨ first = '[')
      (alone : pending = [] → IsOrdinary convention c ∨ c = '\'' ∨ c = '[') :
      ∀ first ∈ (c :: pending).getLast?,
        IsOrdinary convention first ∨ first = '\'' ∨ first = '[' := by
    cases pending with
    | nil =>
        intro first member
        obtain rfl : c = first := by simpa using member
        exact alone rfl
    | cons d pending =>
        intro first member
        rw [List.getLast?_cons_cons] at member
        exact ih first member
  induction gathered with
  | start => simp
  | ordinary ordinary _ _ ih => exact extend ih fun _ => .inl ordinary
  | exponent _ awaited _ _ ih =>
      exact extend ih fun empty => by
        rw [empty] at awaited
        cases awaited
  | pathStart => simp
  | path _ before ih =>
      exact extend ih fun empty => by
        rw [empty] at before
        cases before
  | pathEnd _ ih => exact extend ih fun _ => .inr (.inl rfl)
  | doubledQuote _ ih => exact extend ih fun _ => .inr (.inl rfl)
  | bracketStart _ _ ih => exact extend ih fun _ => .inr (.inr rfl)
  | bracket _ before ih =>
      exact extend ih fun empty => by
        rw [empty] at before
        cases before
  | bracketEnd before ih =>
      exact extend ih fun empty => by
        rw [empty] at before
        cases before

end Gathers

namespace Scanner

variable {scanner : Scanner} {c : Char}

private theorem readFormula_exponent (sign : IsSign c)
    (awaited : Operand.awaitsExponent scanner.pending.reverse = true) :
    scanner.readFormula convention c = .ok (scanner.push c) := by
  have condition : (c = '+' ∨ c = '-') ∧
      Operand.awaitsExponent scanner.pending.reverse = true := ⟨sign, awaited⟩
  rw [readFormula, if_pos condition]

private theorem readFormula_ordinary (ordinary : IsOrdinary convention c) :
    scanner.readFormula convention c = .ok (scanner.push c) := by
  obtain ⟨unmarked, blank, separator⟩ := ordinary
  simp only [markCharacters, infixCharacters, List.cons_append, List.nil_append, List.mem_cons,
    List.not_mem_nil, or_false, not_or] at unmarked
  simp [readFormula, infixCharacters, unmarked, blank, separator]

private theorem readFormula_bracket :
    scanner.readFormula convention '[' = .ok ((scanner.push '[').continueAs .bracket) := by
  simp [readFormula]

/-- Reading a character on its own while a word may end. -/
theorem read_of_isOpen (isOpen : scanner.reading.isOpen = true)
    (other : scanner.reading = .pathQuote → c ≠ '\'') :
    scanner.read convention c = (scanner.continueAs .formula).readFormula convention c := by
  unfold read
  cases reading : scanner.reading with
  | formula => rw [show scanner.continueAs .formula = scanner by rw [continueAs, ← reading]]
  | pathQuote => exact if_neg (other reading)
  | _ => simp [reading, Reading.isOpen] at isOpen

/-- A scanner with nothing pending gathers the characters of a word. -/
theorem run_gathered {pending : List Char} {reading : Reading}
    (gathered : Gathers convention pending reading) (ready : scanner.reading = .formula)
    (empty : scanner.pending = []) :
    ∃ position, scanner.run convention pending.reverse =
      .ok { scanner with reading := reading, pending := pending, position := position } := by
  have extend {pending : List Char} {reading next : Reading} {c : Char}
      (before : ∃ position, scanner.run convention pending.reverse =
        .ok { scanner with reading := reading, pending := pending, position := position })
      (read : ∀ position : Nat,
        ({ scanner with reading := reading, pending := pending, position := position } :
            Scanner).read convention c =
          .ok { scanner with reading := next, pending := c :: pending, position := position }) :
      ∃ position, scanner.run convention (c :: pending).reverse =
        .ok { scanner with reading := next, pending := c :: pending, position := position } := by
    obtain ⟨position, result⟩ := before
    refine ⟨position + c.utf8Size, ?_⟩
    rw [List.reverse_cons, run_append_eq_ok]
    refine ⟨_, result, run_cons_eq_ok.mpr ⟨_, step_eq_ok.mpr ⟨_, read position, rfl⟩, rfl⟩⟩
  induction gathered with
  | start =>
      refine ⟨scanner.position, ?_⟩
      rw [List.reverse_nil, run_nil, ← ready, ← empty]
  | ordinary ordinary isOpen _ ih =>
      refine extend ih fun position => ?_
      rw [read_of_isOpen isOpen, readFormula_ordinary ordinary]
      · rfl
      · rintro _ rfl
        exact ordinary.not_mark (by decide)
  | exponent sign awaited isOpen _ ih =>
      refine extend ih fun position => ?_
      rw [read_of_isOpen isOpen, readFormula_exponent sign awaited]
      · rfl
      · rintro _ rfl
        rcases sign with sign | sign <;> cases sign
  | pathStart =>
      refine @extend [] .formula .path '\'' ⟨scanner.position, ?_⟩ fun position => ?_
      · rw [List.reverse_nil, run_nil, ← ready, ← empty]
      · simp [read, readFormula, flush, push, continueAs]
  | path inside _ ih =>
      refine extend ih fun position => ?_
      simp [read, inside, push]
  | pathEnd _ ih => exact extend ih fun position => rfl
  | doubledQuote _ ih => exact extend ih fun position => rfl
  | bracketStart isOpen _ ih =>
      refine extend ih fun position => ?_
      rw [read_of_isOpen isOpen, readFormula_bracket]
      · rfl
      · rintro _ ⟨⟩
  | bracket inside _ ih =>
      refine extend ih fun position => ?_
      simp [read, inside, push]
  | bracketEnd _ ih => exact extend ih fun position => rfl

end Scanner

/-- A number up to and including its exponent mark: one digit that is not zero, a fraction or none,
and the mark. -/
inductive BeforeExponent : List Char → Prop where
  | whole {first mark : Char} (digit : first.isDigit = true) (nonzero : first ≠ '0')
      (marks : mark = 'e' ∨ mark = 'E') : BeforeExponent [first, mark]
  | fraction {first point mark : Char} {digits : List Char} (digit : first.isDigit = true)
      (nonzero : first ≠ '0') (points : point = '.' ∨ point = ',') (present : digits ≠ [])
      (decimal : ∀ d ∈ digits, d.isDigit = true) (marks : mark = 'e' ∨ mark = 'E') :
      BeforeExponent (first :: point :: (digits ++ [mark]))

namespace Operand

private theorem isLoneExponentMark_iff {text : List Char} :
    isLoneExponentMark text = true ↔ ∃ mark, (mark = 'e' ∨ mark = 'E') ∧ text = [mark] := by
  unfold isLoneExponentMark
  split
  · simp [isExponentMark]
  · rename_i several
    refine ⟨nofun, ?_⟩
    rintro ⟨mark, _, rfl⟩
    exact (several mark rfl).elim

/-- A sign is awaited exactly behind the exponent mark of a number. -/
theorem awaitsExponent_iff {text : List Char} :
    awaitsExponent text = true ↔ BeforeExponent text := by
  constructor
  · intro awaited
    cases text with
    | nil => cases awaited
    | cons first rest =>
        simp only [awaitsExponent, Bool.and_eq_true, bne_iff_ne, Bool.or_eq_true] at awaited
        obtain ⟨⟨digit, nonzero⟩, alone | behind⟩ := awaited
        · obtain ⟨mark, marks, rfl⟩ := isLoneExponentMark_iff.mp alone
          exact .whole digit nonzero marks
        · cases rest with
          | nil => cases behind
          | cons point rest =>
              simp only [Bool.and_eq_true, Bool.or_eq_true, beq_iff_eq, Bool.not_eq_true',
                List.isEmpty_eq_false_iff] at behind
              obtain ⟨⟨points, present⟩, alone⟩ := behind
              obtain ⟨mark, marks, rest_eq⟩ := isLoneExponentMark_iff.mp alone
              rw [← List.takeWhile_append_dropWhile (p := Char.isDigit) (l := rest), rest_eq]
              exact .fraction digit nonzero points present
                (List.all_eq_true.mp List.all_takeWhile) marks
  · intro before
    cases before with
    | whole digit nonzero marks =>
        have lone := isLoneExponentMark_iff.mpr ⟨_, marks, rfl⟩
        simp [awaitsExponent, digit, nonzero, lone]
    | @fraction first point mark digits digit nonzero points present decimal marks =>
        have letter : mark.isDigit = false := by rcases marks with rfl | rfl <;> rfl
        have taken : (digits ++ [mark]).takeWhile Char.isDigit = digits := by
          rw [List.takeWhile_append_of_pos decimal, List.takeWhile_cons_of_neg (by simp [letter]),
            List.append_nil]
        have dropped : (digits ++ [mark]).dropWhile Char.isDigit = [mark] := by
          rw [List.dropWhile_append_of_pos decimal, List.dropWhile_cons_of_neg (by simp [letter])]
        have lone := isLoneExponentMark_iff.mpr ⟨_, marks, rfl⟩
        simp [awaitsExponent, digit, nonzero, taken, dropped, lone, points, present]

end Operand

instance {text : List Char} : Decidable (BeforeExponent text) :=
  decidable_of_iff _ Operand.awaitsExponent_iff

end SheetFormula
