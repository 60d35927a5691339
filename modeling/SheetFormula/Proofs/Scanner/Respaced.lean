import SheetFormula.Proofs.Scanner.Boundary
import SheetFormula.Proofs.Scanner.Literal
import SheetFormula.Proofs.Scanner.Refusal

/-!
# Runs of blanks

The blanks outside of literals count only by being there.  `Respaced` says that two texts differ in
nothing but the length and the characters of such runs.  Their scans keep abreast: a step does not
look at the position (`Scanner.read_placed`), and a run of blanks leaves the same state behind
whatever it consists of (`Scanner.run_gap`).  So the two formulas have the same tokens, or they are
refused at the same closing character (`tokenize_respaced`).
-/

namespace SheetFormula

/-- From a place in the literal on, the second text is the first one with some runs of blanks
outside of literals replaced by others.  A run need not be replaced as a whole; what is put in its
place has at least one blank. -/
inductive Respaced : Literal → List Char → List Char → Prop where
  | nil {literal : Literal} : Respaced literal [] []
  | same {literal : Literal} {c : Char} {first second : List Char}
      (after : Respaced (literal.next c) first second) :
      Respaced literal (c :: first) (c :: second)
  | gap {old new first second : List Char} (present : old ≠ [] ∧ new ≠ [])
      (blank : ∀ c ∈ old ++ new, Text.isBlank c = true) (after : Respaced .outside first second) :
      Respaced .outside (old ++ first) (new ++ second)

namespace Literal

private theorem outside_after_blanks {blanks : List Char}
    (blank : ∀ c ∈ blanks, Text.isBlank c = true) : outside.after blanks = outside :=
  outside_after fun c member => not_beginner_of_isBlank (blank c member)

end Literal

namespace Respaced

variable {literal : Literal} {first second more other : List Char}

private theorem refl (literal : Literal) (text : List Char) : Respaced literal text text := by
  induction text generalizing literal with
  | nil => exact .nil
  | cons c rest ih => exact .same (ih (literal.next c))

private theorem append (front : Respaced literal first second)
    (back : Respaced (literal.after first) more other) :
    Respaced literal (first ++ more) (second ++ other) := by
  induction front with
  | nil => exact back
  | same _ ih => exact .same (ih back)
  | gap present blank _ ih =>
      obtain ⟨old, _⟩ := List.forall_mem_append.mp blank
      rw [Literal.after_append, Literal.outside_after_blanks old] at back
      rw [List.append_assoc, List.append_assoc]
      exact .gap present blank (ih back)

private theorem symm (respaced : Respaced literal first second) :
    Respaced literal second first := by
  induction respaced with
  | nil => exact .nil
  | same _ ih => exact .same ih
  | gap present blank _ ih =>
      refine .gap present.symm (fun c member => blank c ?_) ih
      exact List.mem_append.mpr (List.mem_append.mp member).symm

/-- The blanks at the start of both texts are respaced on their own. -/
theorem exists_blanks (respaced : Respaced literal first second) (outside : literal = .outside) :
    ∃ blanks spaced, first = blanks ++ Text.trimStart first ∧
      second = spaced ++ Text.trimStart second ∧ Respaced .outside blanks spaced ∧
      (∀ c ∈ blanks, Text.isBlank c = true) ∧
      Respaced .outside (Text.trimStart first) (Text.trimStart second) := by
  induction respaced with
  | nil => exact ⟨[], [], rfl, rfl, .nil, List.forall_mem_nil _, .nil⟩
  | @same literal c first second after ih =>
      subst outside
      by_cases blank : Text.isBlank c = true
      · have next := Literal.outside_next (Literal.not_beginner_of_isBlank blank)
        obtain ⟨blanks, spaced, split, splitToo, lead, all, trimmed⟩ := ih next
        have dropped (rest : List Char) : Text.trimStart (c :: rest) = Text.trimStart rest :=
          List.dropWhile_cons_of_pos blank
        rw [dropped, dropped]
        refine ⟨c :: blanks, c :: spaced, congrArg (c :: ·) split, congrArg (c :: ·) splitToo,
          .same ?_, List.forall_mem_cons.mpr ⟨blank, all⟩, trimmed⟩
        rw [next]
        exact lead
      · have kept (rest : List Char) : Text.trimStart (c :: rest) = c :: rest :=
          List.dropWhile_cons_of_neg blank
        rw [kept, kept]
        exact ⟨[], [], rfl, rfl, .nil, List.forall_mem_nil _, .same after⟩
  | @gap old new first second present blank after ih =>
      obtain ⟨blanks, spaced, split, splitToo, lead, all, trimmed⟩ := ih rfl
      obtain ⟨oldBlank, newBlank⟩ := List.forall_mem_append.mp blank
      have dropped {gap : List Char} (blank : ∀ c ∈ gap, Text.isBlank c = true)
          (rest : List Char) : Text.trimStart (gap ++ rest) = Text.trimStart rest :=
        List.dropWhile_append_of_pos blank
      rw [dropped oldBlank, dropped newBlank]
      refine ⟨old ++ blanks, new ++ spaced, ?_, ?_, .gap present blank lead,
        List.forall_mem_append.mpr ⟨oldBlank, all⟩, trimmed⟩
      · rw [List.append_assoc, ← split]
      · rw [List.append_assoc, ← splitToo]

/-- What comes first in one text and is no blank comes first in the other. -/
theorem exists_cons {c : Char} (respaced : Respaced literal (c :: first) second)
    (visible : Text.isBlank c = false) :
    ∃ rest, second = c :: rest ∧ Respaced (literal.next c) first rest := by
  generalize whole : c :: first = text at respaced
  cases respaced with
  | nil => cases whole
  | same after =>
      obtain ⟨rfl, rfl⟩ := List.cons.inj whole
      exact ⟨_, rfl, after⟩
  | @gap old new _ _ present blank _ =>
      obtain ⟨d, rest, rfl⟩ := List.exists_cons_of_ne_nil present.1
      obtain ⟨rfl, _⟩ := List.cons.inj whole
      rw [blank c (by simp)] at visible
      cases visible

/-- The bodies of respaced formulas are respaced, and so is what stands before them. -/
theorem exists_leads (respaced : Respaced .outside first second) :
    ∃ lead spaced, first = lead ++ formulaBody first ∧ second = spaced ++ formulaBody second ∧
      Respaced .outside lead spaced ∧ Literal.outside.after lead = .outside ∧
      Respaced .outside (formulaBody first) (formulaBody second) := by
  obtain ⟨blanks, spaced, split, splitToo, lead, blank, trimmed⟩ := respaced.exists_blanks rfl
  have outside := Literal.outside_after_blanks blank
  by_cases equals : ∃ rest, Text.trimStart first = '=' :: rest
  · obtain ⟨rest, start⟩ := equals
    rw [start] at trimmed
    obtain ⟨other, startToo, body⟩ := trimmed.exists_cons rfl
    rw [formulaBody_of_equals start, formulaBody_of_equals startToo]
    refine ⟨blanks ++ ['='], spaced ++ ['='], ?_, ?_, lead.append ?_, ?_, body⟩
    · rw [List.append_assoc, List.singleton_append, ← start, ← split]
    · rw [List.append_assoc, List.singleton_append, ← startToo, ← splitToo]
    · exact .refl _ ['=']
    · rw [Literal.after_append, outside]
      rfl
  · have other (rest : List Char) : Text.trimStart first ≠ '=' :: rest :=
      fun start => equals ⟨rest, start⟩
    have otherToo (rest : List Char) : Text.trimStart second ≠ '=' :: rest := by
      intro start
      rw [start] at trimmed
      obtain ⟨_, same, _⟩ := trimmed.symm.exists_cons rfl
      exact other _ same
    rw [formulaBody_of_other other, formulaBody_of_other otherToo]
    exact ⟨blanks, spaced, split, splitToo, lead, outside, trimmed⟩

end Respaced

namespace Scanner

variable {convention : Convention} {scanner : Scanner} {c : Char}

/-- The scanner at another position. -/
def placed (scanner : Scanner) (position : Nat) : Scanner :=
  { scanner with position := position }

/-- What reading a character comes to at another position. -/
def placedResult (position : Nat) : Except FormulaError Scanner → Except FormulaError Scanner
  | .ok scanner => .ok (scanner.placed position)
  | .error (.unbalanced _ found) => .error (.unbalanced position found)
  | .error other => .error other

@[simp]
private theorem placedResult_ok (position : Nat) :
    placedResult position (.ok scanner) = .ok (scanner.placed position) := rfl

private theorem flush_placed (position : Nat) (kind : TokenKind) :
    (scanner.placed position).flush kind = (scanner.flush kind).placed position := by
  unfold flush
  rw [apply_ite (placed · position)]
  rfl

private theorem closeScope_placed (position : Nat) (found : Char) (kinds : List ScopeKind) :
    (scanner.placed position).closeScope found kinds =
      placedResult position (scanner.closeScope found kinds) := by
  have scopes : (scanner.placed position).scopes = scanner.scopes := rfl
  unfold closeScope
  rw [scopes]
  cases scanner.scopes with
  | nil => rfl
  | cons scope outer =>
      by_cases member : scope.kind ∈ kinds
      · simp only [member, ↓reduceIte]
        rfl
      · simp only [member, ↓reduceIte]
        rfl

private theorem closeArray_placed (position : Nat) (found : Char) :
    ((scanner.placed position).closeScope found [.arrayRow] >>= fun row =>
        row.closeScope found [.array]) =
      placedResult position (scanner.closeScope found [.arrayRow] >>= fun row =>
        row.closeScope found [.array]) := by
  rw [closeScope_placed]
  cases closed : scanner.closeScope found [.arrayRow] with
  | ok row => exact closeScope_placed position found [.array]
  | error error =>
      rw [closeScope_eq_error closed]
      rfl

private theorem nextRow_placed (position : Nat) :
    (scanner.placed position).nextRow = placedResult position scanner.nextRow := by
  have scopes : (scanner.placed position).scopes = scanner.scopes := rfl
  unfold nextRow
  rw [scopes, apply_ite (placedResult position), closeScope_placed]
  congr 1
  cases closed : scanner.closeScope ';' [.arrayRow] with
  | ok row => rfl
  | error error =>
      rw [closeScope_eq_error closed]
      rfl

private theorem openParenthesis_placed (position : Nat) :
    (scanner.placed position).openParenthesis = scanner.openParenthesis.placed position := by
  unfold openParenthesis
  rw [apply_ite (placed · position)]
  rfl

private theorem separate_placed (position : Nat) :
    (scanner.placed position).separate c = (scanner.separate c).placed position := by
  unfold separate
  rw [apply_ite (placed · position)]
  rfl

/-- A character read on its own is read alike at every position. -/
theorem readFormula_placed (position : Nat) :
    (scanner.placed position).readFormula convention c =
      placedResult position (scanner.readFormula convention c) := by
  have pending : (scanner.placed position).pending = scanner.pending := rfl
  unfold readFormula
  simp only [apply_ite (placedResult position), placedResult_ok, flush_placed, pending,
    ← closeScope_placed, ← closeArray_placed, ← nextRow_placed, ← openParenthesis_placed,
    ← separate_placed]
  rfl

private theorem resume_placed (position : Nat) :
    (scanner.placed position).resume = scanner.resume.placed position := by
  have reading : (scanner.placed position).reading = scanner.reading := rfl
  unfold resume
  rw [reading]
  cases scanner.reading <;> rfl

/-- Every character is read alike at every position. -/
theorem read_placed (position : Nat) :
    (scanner.placed position).read convention c =
      placedResult position (scanner.read convention c) := by
  have reading : (scanner.placed position).reading = scanner.reading := rfl
  rw [read, read, reading]
  cases scanner.reading with
  | formula => exact readFormula_placed position
  | blanks =>
      simp only [apply_ite (placedResult position), ← readFormula_placed]
      rfl
  | comparison first =>
      simp only [apply_ite (placedResult position), ← readFormula_placed]
      rfl
  | textQuote =>
      simp only [apply_ite (placedResult position), ← readFormula_placed]
      rfl
  | pathQuote =>
      simp only [apply_ite (placedResult position), ← readFormula_placed]
      rfl
  | _ =>
      simp only [placedResult_ok, apply_ite (placed · position)]
      rfl

private theorem step_placed_of_ok {next : Scanner} (result : scanner.step convention c = .ok next)
    (position : Nat) :
    (scanner.placed position).step convention c =
      .ok (next.placed (position + c.utf8Size)) := by
  obtain ⟨scanned, read, rfl⟩ := step_eq_ok.mp result
  refine step_eq_ok.mpr ⟨scanned.placed position, ?_, rfl⟩
  rw [read_placed, read]
  rfl

private theorem step_placed_of_error {error : FormulaError}
    (refused : scanner.step convention c = .error error) (position : Nat) :
    (scanner.placed position).step convention c = .error (.unbalanced position c) := by
  obtain ⟨_, rfl⟩ := step_eq_error refused
  rcases bind_eq_error.mp refused with unread | ⟨_, _, moved⟩
  · rw [step, read_placed, unread]
    rfl
  · cases moved

/-- The scanner behind a run of blanks. -/
def spaced (scanner : Scanner) : Scanner :=
  if scanner.reading = .blanks then scanner
  else ((scanner.resume.flush .operand).emit ⟨[' '], .blank, none⟩).continueAs .blanks

private theorem spaced_reading : scanner.spaced.reading = .blanks := by
  unfold spaced
  split
  · assumption
  · rfl

private theorem spaced_placed (position : Nat) :
    (scanner.placed position).spaced = scanner.spaced.placed position := by
  unfold spaced
  rw [apply_ite (placed · position), resume_placed, flush_placed]
  rfl

private theorem spaced_literal : scanner.spaced.literal = .outside := by
  rw [literal, spaced_reading]

/-- Outside of literals a blank is read in the same way whatever blank it is. -/
theorem read_blank (outside : scanner.literal = .outside) (blank : Text.isBlank c = true) :
    scanner.read convention c = .ok scanner.spaced := by
  have other {mark : Char} (visible : Text.isBlank mark = false) : c ≠ mark := by
    intro same
    rw [← same, blank] at visible
    cases visible
  by_cases blanks : scanner.reading = .blanks
  · rw [spaced, if_pos blanks]
    simp only [read, blanks, blank, ↓reduceIte]
  · have resumes : scanner.Resumes c := by
      unfold literal at outside
      unfold Resumes
      cases sort : scanner.reading with
      | formula => trivial
      | blanks => exact (blanks sort).elim
      | comparison first => simp [isComparisonPair, @other '=' rfl, @other '>' rfl]
      | textQuote => exact other rfl
      | pathQuote => exact other rfl
      | _ => simp [sort] at outside
    rw [read_of_resumes resumes, readFormula_blank blank, spaced, if_neg blanks]

/-- A run of blanks outside of literals leaves the same state behind, whatever it consists of. -/
theorem run_gap {gap : List Char} (present : gap ≠ []) (blank : ∀ c ∈ gap, Text.isBlank c = true)
    (outside : scanner.literal = .outside) :
    ∃ position, scanner.run convention gap = .ok (scanner.spaced.placed position) := by
  obtain ⟨c, rest, rfl⟩ := List.exists_cons_of_ne_nil present
  obtain ⟨first, others⟩ := List.forall_mem_cons.mp blank
  obtain ⟨position, ran⟩ :=
    @run_blanks convention (scanner.spaced.past c) rest spaced_reading others
  refine ⟨position, run_cons_eq_ok.mpr ⟨_, ?_, ran⟩⟩
  exact step_eq_ok.mpr ⟨scanner.spaced, read_blank outside first, rfl⟩

/-- Two scanners that differ in their positions read respaced texts to their ends, and differ in
their positions still, or both stop at the same character of the texts. -/
theorem run_respaced {literal : Literal} {first second : List Char}
    (respaced : Respaced literal first second) (inside : scanner.literal = literal)
    (position : Nat) :
    (∃ after last, scanner.run convention first = .ok after ∧
        (scanner.placed position).run convention second = .ok (after.placed last)) ∨
      ∃ c before rest spaced others, first = before ++ c :: rest ∧ second = spaced ++ c :: others ∧
        Respaced literal before spaced ∧ ∃ middle last error,
          scanner.run convention before = .ok middle ∧
          (scanner.placed position).run convention spaced = .ok (middle.placed last) ∧
          middle.step convention c = .error error := by
  -- Along the texts the second scanner stays the first one at another position.
  induction respaced generalizing scanner position with
  | nil => exact .inl ⟨scanner, position, rfl, rfl⟩
  | @same literal c first second after ih =>
      cases stepped : scanner.step convention c with
      | error error =>
          exact .inr ⟨c, [], first, [], second, rfl, rfl, .nil, scanner, position, error, rfl, rfl,
            stepped⟩
      | ok next =>
          have steppedToo := step_placed_of_ok stepped position
          have follows : next.literal = literal.next c := inside ▸ (step_literal stepped).1
          rcases ih follows (position + c.utf8Size) with ⟨last, place, ran, ranToo⟩ |
            ⟨d, before, rest, spaced, others, rfl, rfl, lead, middle, place, error, ran, ranToo,
              stopped⟩
          · exact .inl ⟨last, place, run_cons_eq_ok.mpr ⟨next, stepped, ran⟩,
              run_cons_eq_ok.mpr ⟨_, steppedToo, ranToo⟩⟩
          · exact .inr ⟨d, c :: before, rest, c :: spaced, others, rfl, rfl, .same lead, middle,
              place, error, run_cons_eq_ok.mpr ⟨next, stepped, ran⟩,
              run_cons_eq_ok.mpr ⟨_, steppedToo, ranToo⟩, stopped⟩
  | @gap old new first second present blank after ih =>
      -- The two runs of blanks end at unrelated positions; the hypothesis is for any two of them.
      obtain ⟨oldBlank, newBlank⟩ := List.forall_mem_append.mp blank
      obtain ⟨here, gone⟩ := @run_gap convention scanner old present.1 oldBlank inside
      obtain ⟨there, goneToo⟩ :=
        @run_gap convention (scanner.placed position) new present.2 newBlank inside
      rw [spaced_placed] at goneToo
      rcases @ih (scanner.spaced.placed here) spaced_literal there with
        ⟨last, place, ran, ranToo⟩ |
        ⟨d, before, rest, spaced, others, rfl, rfl, lead, middle, place, error, ran, ranToo,
          stopped⟩
      · exact .inl ⟨last, place, run_append_eq_ok.mpr ⟨_, gone, ran⟩,
          run_append_eq_ok.mpr ⟨_, goneToo, ranToo⟩⟩
      · refine .inr ⟨d, old ++ before, rest, new ++ spaced, others, ?_, ?_,
          .gap present blank lead, middle, place, error, run_append_eq_ok.mpr ⟨_, gone, ran⟩,
          run_append_eq_ok.mpr ⟨_, goneToo, ranToo⟩, stopped⟩
        · rw [List.append_assoc]
        · rw [List.append_assoc]

private theorem finish_placed (position : Nat) :
    (scanner.placed position).finish.toList = scanner.finish.toList := by
  rw [finish_toList, finish_toList]
  rfl

end Scanner

variable {convention : Convention}

/-- A formula is refused with the number of bytes before the character at which its scan stops. -/
theorem tokenize_of_stopped {formula lead before rest : List Char} {c : Char} {middle : Scanner}
    {error : FormulaError} (split : formula = lead ++ formulaBody formula)
    (body : formulaBody formula = before ++ c :: rest)
    (ran : (Scanner.start formula).run convention before = .ok middle)
    (stopped : middle.step convention c = .error error) :
    tokenize convention formula =
      .error (.unbalanced (Text.byteCount (lead ++ before)) c) := by
  obtain ⟨_, rfl⟩ := Scanner.step_eq_error stopped
  have position : middle.position = Text.byteCount (lead ++ before) := by
    rw [Scanner.run_position ran, start_of_split split, Text.byteCount_append]
  rw [position] at stopped
  exact tokenize_eq_error.mpr
    (Scanner.run_eq_error.mpr ⟨before, c, rest, middle, body, ran, stopped⟩)

/-- The length and the characters of runs of blanks outside of literals do not matter: formulas that
differ in nothing else have the same tokens, or the same closing character finds no scope of its own
in both of them. -/
theorem tokenize_respaced {first second : List Char} (respaced : Respaced .outside first second) :
    (∃ tokens, tokenize convention first = .ok tokens ∧ tokenize convention second = .ok tokens) ∨
      ∃ found before rest spaced others, first = before ++ found :: rest ∧
        second = spaced ++ found :: others ∧ Respaced .outside before spaced ∧
        tokenize convention first = .error (.unbalanced (Text.byteCount before) found) ∧
        tokenize convention second = .error (.unbalanced (Text.byteCount spaced) found) := by
  obtain ⟨lead, leadToo, split, splitToo, leads, outside, bodies⟩ := respaced.exists_leads
  have moved : (Scanner.start first).placed (Text.byteCount leadToo) = Scanner.start second := by
    rw [start_of_split split, start_of_split splitToo]
    rfl
  have runs := @Scanner.run_respaced convention (Scanner.start first) _ _ _ bodies rfl
    (Text.byteCount leadToo)
  rw [moved] at runs
  rcases runs with ⟨after, last, ran, ranToo⟩ |
    ⟨found, before, rest, spaced, others, body, bodyToo, alike, middle, last, error, ran, ranToo,
      stopped⟩
  · refine .inl ⟨finishStream convention after.finish.toList, ?_, ?_⟩
    · exact tokenize_eq_ok.mpr ⟨after, ran, rfl⟩
    · exact tokenize_eq_ok.mpr ⟨_, ranToo, by rw [Scanner.finish_placed]⟩
  · have stoppedToo := Scanner.step_placed_of_error stopped last
    refine .inr ⟨found, lead ++ before, rest, leadToo ++ spaced, others, ?_, ?_, ?_,
      tokenize_of_stopped split body ran stopped,
      tokenize_of_stopped splitToo bodyToo ranToo stoppedToo⟩
    · rw [List.append_assoc, ← body, ← split]
    · rw [List.append_assoc, ← bodyToo, ← splitToo]
    · apply leads.append
      rwa [outside]

/-- Line ends before the equals sign, a tab for two blanks between ranges, and a no-break space; the
blanks in the text, the path and the bracket stay as they are. -/
theorem tokenize_respaced_intersection :
    Respaced .outside " =SUM('p  q'!A1  T[a  b] )&\" x\"".toList
        "\n\n=SUM('p  q'!A1\tT[a  b]\u00a0)&\" x\"".toList ∧
      tokenize .us "\n\n=SUM('p  q'!A1\tT[a  b]\u00a0)&\" x\"".toList =
        .ok [⟨"SUM".toList, .function, some .start⟩, ⟨"'p  q'!A1".toList, .operand, some .range⟩,
          intersection, ⟨"T[a  b]".toList, .operand, some .range⟩, ⟨[], .function, some .stop⟩,
          ⟨"&".toList, .infixOperator, none⟩, ⟨" x".toList, .operand, some .text⟩] := by
  have respaced : Respaced .outside " =SUM('p  q'!A1  T[a  b] )&\" x\"".toList
      "\n\n=SUM('p  q'!A1\tT[a  b]\u00a0)&\" x\"".toList := by
    have blanks {old new : List Char} (blank : (old ++ new).all Text.isBlank = true) :
        ∀ c ∈ old ++ new, Text.isBlank c = true := List.all_eq_true.mp blank
    have last := Respaced.refl .outside ")&\" x\"".toList
    have space := @Respaced.gap [' '] ['\u00a0'] _ _ ⟨by simp, by simp⟩ (blanks rfl) last
    have bracket := (Respaced.refl .outside "T[a  b]".toList).append space
    have between := @Respaced.gap [' ', ' '] ['\t'] _ _ ⟨by simp, by simp⟩ (blanks rfl) bracket
    have call := (Respaced.refl .outside "=SUM('p  q'!A1".toList).append between
    exact @Respaced.gap [' '] ['\n', '\n'] _ _ ⟨by simp, by simp⟩ (blanks rfl) call
  refine ⟨respaced, ?_⟩
  rcases @tokenize_respaced .us _ _ respaced with ⟨tokens, read, readToo⟩ | refused
  · rw [readToo, ← read]
    rfl
  · obtain ⟨_, _, _, _, _, _, _, _, refused, _⟩ := refused
    cases refused

end SheetFormula
