import SheetFormula.Proofs.Scanner.Refusal
import SheetFormula.Proofs.Scanner.Written
import SheetFormula.Proofs.Stream.Nesting

/-!
# Numbers of one token

Two rules decide whether a text is one number.  The last pass sorts an operand as a number if it has
a mantissa and an exponent or none (`Operand.isNumber_iff`).  Before that, the scanner goes on with
the operand at the sign of an exponent only if the mantissa is scientific, and a sign behind any
other mantissa leaves three tokens (`tokenize_parted`).  `tokenize_number_iff` says which texts are
numbers by both rules.
-/

namespace SheetFormula

namespace Operand

/-- The text has no characters but decimal digits. -/
def AllDigits (text : List Char) : Prop :=
  ∀ c ∈ text, c.isDigit = true

/-- A number up to its exponent: digits with an optional fraction, or a point and a fraction. -/
inductive Mantissa : List Char → Prop where
  | whole {digits : List Char} (present : digits ≠ []) (decimal : AllDigits digits) :
      Mantissa digits
  | fraction {digits decimals : List Char} (present : digits ≠ []) (decimal : AllDigits digits)
      (fractional : AllDigits decimals) : Mantissa (digits ++ '.' :: decimals)
  | point {decimals : List Char} (present : decimals ≠ []) (fractional : AllDigits decimals) :
      Mantissa ('.' :: decimals)

/-- A mantissa of one digit that is not zero, alone or with a point and a fraction behind it. -/
inductive Scientific : List Char → Prop where
  | whole {first : Char} (digit : first.isDigit = true) (nonzero : first ≠ '0') :
      Scientific [first]
  | fraction {first : Char} {decimals : List Char} (digit : first.isDigit = true)
      (nonzero : first ≠ '0') (present : decimals ≠ []) (fractional : AllDigits decimals) :
      Scientific (first :: '.' :: decimals)

/-- An exponent or none, by the sign that it carries. -/
inductive Exponent : Option Char → List Char → Prop where
  | absent : Exponent none []
  | unsigned {mark : Char} {digits : List Char} (marks : mark = 'e' ∨ mark = 'E')
      (present : digits ≠ []) (decimal : AllDigits digits) : Exponent none (mark :: digits)
  | signed {mark sign : Char} {digits : List Char} (marks : mark = 'e' ∨ mark = 'E')
      (isSign : IsSign sign) (present : digits ≠ []) (decimal : AllDigits digits) :
      Exponent (some sign) (mark :: sign :: digits)

variable {text digits rest mantissa exponent : List Char} {sign : Option Char} {c : Char}

private theorem isDigits_iff : isDigits text = true ↔ text ≠ [] ∧ AllDigits text := by
  simp [isDigits, AllDigits]

private theorem isExponentMark_iff : isExponentMark c = true ↔ c = 'e' ∨ c = 'E' := by
  simp [isExponentMark]

private theorem AllDigits.sign_not_mem (decimal : AllDigits text) (isSign : IsSign c) :
    c ∉ text := by
  intro member
  have digit := decimal c member
  rcases isSign with rfl | rfl <;> cases digit

/-- An exponent that may be missing is recognised by its mark, its sign and its digits. -/
private theorem isOptionalExponent_iff :
    isOptionalExponent text = true ↔ ∃ sign, Exponent sign text := by
  constructor
  · intro optional
    cases text with
    | nil => exact ⟨none, .absent⟩
    | cons mark rest =>
        simp only [isOptionalExponent, Bool.and_eq_true, isExponentMark_iff] at optional
        obtain ⟨marks, digits⟩ := optional
        unfold dropSign at digits
        split at digits
        · obtain ⟨present, decimal⟩ := isDigits_iff.mp digits
          exact ⟨some '+', .signed marks (.inl rfl) present decimal⟩
        · obtain ⟨present, decimal⟩ := isDigits_iff.mp digits
          exact ⟨some '-', .signed marks (.inr rfl) present decimal⟩
        · obtain ⟨present, decimal⟩ := isDigits_iff.mp digits
          exact ⟨none, .unsigned marks present decimal⟩
  · rintro ⟨sign, exponent⟩
    cases exponent with
    | absent => rfl
    | @unsigned mark digits marks present decimal =>
        have same : dropSign digits = digits := by
          unfold dropSign
          split
          · exact (decimal.sign_not_mem (.inl rfl) List.mem_cons_self).elim
          · exact (decimal.sign_not_mem (.inr rfl) List.mem_cons_self).elim
          · rfl
        rw [isOptionalExponent, isExponentMark_iff.mpr marks, same,
          isDigits_iff.mpr ⟨present, decimal⟩]
        rfl
    | @signed mark sign digits marks isSign present decimal =>
        have same : dropSign (sign :: digits) = digits := by
          rcases isSign with rfl | rfl <;> rfl
        rw [isOptionalExponent, isExponentMark_iff.mpr marks, same,
          isDigits_iff.mpr ⟨present, decimal⟩]
        rfl

/-- An exponent begins with neither a digit nor a point. -/
theorem Exponent.head_mark (exponent : Exponent sign text) :
    ∀ c ∈ text.head?, c = 'e' ∨ c = 'E' := by
  cases exponent with
  | absent => simp
  | unsigned marks _ _ => simpa using marks
  | signed marks _ _ _ => simpa using marks

/-- Digits end where something else begins. -/
theorem AllDigits.span (decimal : AllDigits digits) (ends : ∀ c ∈ rest.head?, c.isDigit = false) :
    (digits ++ rest).takeWhile Char.isDigit = digits ∧
      (digits ++ rest).dropWhile Char.isDigit = rest := by
  rw [List.takeWhile_append_of_pos decimal, List.dropWhile_append_of_pos decimal]
  cases rest with
  | nil => simp
  | cons c rest => simp [ends c rfl]

private theorem Exponent.ends_digits (exponent : Exponent sign text) :
    ∀ c ∈ text.head?, c.isDigit = false := by
  intro c first
  rcases exponent.head_mark c first with rfl | rfl <;> rfl

/-- A number consists of a mantissa and an exponent, which may be missing. -/
private theorem exists_of_isNumber (number : isNumber text = true) :
    ∃ mantissa exponent sign, text = mantissa ++ exponent ∧ Mantissa mantissa ∧
      Exponent sign exponent := by
  have decimals (part : List Char) : AllDigits (part.takeWhile Char.isDigit) :=
    fun c member => List.mem_takeWhile_imp member
  have parts := @List.takeWhile_append_dropWhile _ Char.isDigit text
  unfold isNumber at number
  dsimp only at number
  split at number
  · rename_i rest point
    simp only [Bool.and_eq_true, Bool.or_eq_true, Bool.not_eq_true',
      List.isEmpty_eq_false_iff] at number
    obtain ⟨sign, exponent⟩ := isOptionalExponent_iff.mp number.2
    have behind := @List.takeWhile_append_dropWhile _ Char.isDigit rest
    by_cases whole : text.takeWhile Char.isDigit = []
    · refine ⟨'.' :: rest.takeWhile Char.isDigit, _, sign, ?_, ?_, exponent⟩
      · rw [List.cons_append, behind, ← point]
        rwa [whole, List.nil_append, eq_comm] at parts
      · exact .point (number.1.resolve_left (not_not_intro whole)) (decimals rest)
    · refine ⟨text.takeWhile Char.isDigit ++ '.' :: rest.takeWhile Char.isDigit, _, sign, ?_,
        .fraction whole (decimals text) (decimals rest), exponent⟩
      rw [List.append_assoc, List.cons_append, behind, ← point, parts]
  · simp only [Bool.and_eq_true, Bool.not_eq_true', List.isEmpty_eq_false_iff] at number
    obtain ⟨sign, exponent⟩ := isOptionalExponent_iff.mp number.2
    exact ⟨_, _, sign, parts.symm, .whole number.1 (decimals text), exponent⟩

private theorem Mantissa.isNumber_append (isMantissa : Mantissa mantissa)
    (isExponent : Exponent sign exponent) : isNumber (mantissa ++ exponent) = true := by
  have optional := isOptionalExponent_iff.mpr ⟨sign, isExponent⟩
  have ends := isExponent.ends_digits
  unfold isNumber
  cases isMantissa with
  | whole present decimal =>
      obtain ⟨taken, dropped⟩ := decimal.span ends
      rw [taken, dropped]
      dsimp only
      split
      · have mark := isExponent.head_mark '.' rfl
        simp at mark
      · simp [present, optional]
  | @fraction digits decimals present decimal fractional =>
      have apart : ∀ c ∈ ('.' :: (decimals ++ exponent)).head?, c.isDigit = false := by simp
      obtain ⟨taken, dropped⟩ := decimal.span apart
      obtain ⟨_, behind⟩ := fractional.span ends
      rw [List.append_assoc, List.cons_append, taken, dropped]
      simp [present, behind, optional]
  | @point decimals present fractional =>
      obtain ⟨taken, behind⟩ := fractional.span ends
      have none : Char.isDigit '.' = false := rfl
      simp [none, taken, present, behind, optional]

/-- The numbers that the last pass recognises. -/
theorem isNumber_iff :
    isNumber text = true ↔ ∃ mantissa exponent sign, text = mantissa ++ exponent ∧
      Mantissa mantissa ∧ Exponent sign exponent := by
  constructor
  · exact exists_of_isNumber
  · rintro ⟨mantissa, exponent, sign, rfl, isMantissa, isExponent⟩
    exact isMantissa.isNumber_append isExponent

/-- The character of a number that the convention reads in a character: a decimal comma is read as a
point. -/
def pointOf (convention : Convention) (c : Char) : Char :=
  if convention = .eu ∧ c = ',' then '.' else c

variable {convention : Convention}

private theorem withPoint_eq_map (convention : Convention) (text : List Char) :
    withPoint convention text = text.map (pointOf convention) := by
  cases convention with
  | us =>
      refine (List.map_id text).symm.trans (List.map_congr_left fun c _ => ?_)
      exact (if_neg fun comma => Convention.noConfusion comma.1).symm
  | eu => simp [withPoint, pointOf, Text.replaceChar]

private theorem pointOf_cases (convention : Convention) (c : Char) :
    pointOf convention c = c ∨ (convention = .eu ∧ c = ',') ∧ pointOf convention c = '.' := by
  by_cases comma : convention = .eu ∧ c = ','
  · exact .inr ⟨comma, if_pos comma⟩
  · exact .inl (if_neg comma)

private theorem pointOf_of_isDigit (digit : c.isDigit = true) : pointOf convention c = c := by
  rcases pointOf_cases convention c with same | ⟨⟨_, rfl⟩, _⟩
  · exact same
  · cases digit

private theorem AllDigits.map_pointOf (decimal : AllDigits digits) :
    digits.map (pointOf convention) = digits :=
  (List.map_congr_left fun c member => pointOf_of_isDigit (decimal c member)).trans
    (List.map_id digits)

/-- Where the convention reads a digit or a point and finds a decimal mark, it reads a point. -/
theorem pointOf_of_mark (mark : c = '.' ∨ c = ',')
    (read : (pointOf convention c).isDigit = true ∨ pointOf convention c = '.') :
    pointOf convention c = '.' := by
  refine read.resolve_left fun digit => ?_
  rcases pointOf_cases convention c with same | ⟨_, same⟩
  · rw [same] at digit
    rcases mark with rfl | rfl <;> cases digit
  · rw [same] at digit
    cases digit

private theorem eq_of_pointOf {d : Char} (read : pointOf convention c = d) (other : d ≠ '.') :
    c = d := by
  rcases pointOf_cases convention c with same | ⟨_, point⟩
  · exact same.symm.trans read
  · exact (other (read.symm.trans point)).elim

private theorem eq_of_map_pointOf (read : text.map (pointOf convention) = rest)
    (pointless : '.' ∉ rest) : text = rest := by
  subst read
  refine (List.map_id text).symm.trans (List.map_congr_left fun c member => ?_)
  refine eq_of_pointOf rfl fun point => pointless ?_
  exact point ▸ List.mem_map_of_mem member

private theorem AllDigits.point_not_mem (decimal : AllDigits text) : '.' ∉ text := by
  intro member
  cases decimal '.' member

private theorem Exponent.point_not_mem (exponent : Exponent sign text) : '.' ∉ text := by
  cases exponent with
  | absent => exact List.not_mem_nil
  | unsigned marks _ decimal =>
      have := decimal.point_not_mem
      rcases marks with rfl | rfl <;> simpa
  | signed marks isSign _ decimal =>
      have := decimal.point_not_mem
      rcases marks with rfl | rfl <;> rcases isSign with rfl | rfl <;> simpa

/-- A number as it is written falls into its mantissa as it is written and its exponent. -/
theorem Exponent.split_written (isExponent : Exponent sign exponent)
    (written : withPoint convention text = mantissa ++ exponent) :
    ∃ front, text = front ++ exponent ∧ front.map (pointOf convention) = mantissa := by
  rw [withPoint_eq_map] at written
  obtain ⟨front, behind, rfl, same, read⟩ := List.map_eq_append_iff.mp written
  exact ⟨front, by rw [eq_of_map_pointOf read isExponent.point_not_mem], same⟩

private theorem Mantissa.ne_nil (isMantissa : Mantissa mantissa) : mantissa ≠ [] := by
  cases isMantissa with
  | whole present _ => exact present
  | fraction _ _ _ => simp
  | point _ _ => simp

private theorem Mantissa.decimal (isMantissa : Mantissa mantissa) :
    ∀ c ∈ mantissa, c.isDigit = true ∨ c = '.' := by
  intro c member
  cases isMantissa with
  | whole _ decimal => exact .inl (decimal c member)
  | fraction _ decimal fractional =>
      rcases List.mem_append.mp member with whole | behind
      · exact .inl (decimal c whole)
      · exact (List.mem_cons.mp behind).symm.imp_left (fractional c)
  | point _ fractional => exact (List.mem_cons.mp member).symm.imp_left (fractional c)

/-- The scanner waits for the sign of an exponent behind the scientific mantissas. -/
theorem Mantissa.before_iff {front : List Char} {mark : Char}
    (isMantissa : Mantissa (front.map (pointOf convention))) (marks : mark = 'e' ∨ mark = 'E') :
    BeforeExponent (front ++ [mark]) ↔ Scientific (front.map (pointOf convention)) := by
  constructor
  · intro before
    generalize whole : front ++ [mark] = text at before
    cases before with
    | @whole first last digit nonzero _ =>
        have split : front ++ [mark] = [first] ++ [last] := whole
        obtain ⟨rfl, _⟩ := List.append_inj' split rfl
        rw [List.map_singleton, pointOf_of_isDigit digit]
        exact .whole digit nonzero
    | @fraction first point last decimals digit nonzero points present fractional _ =>
        have split : front ++ [mark] = first :: point :: decimals ++ [last] := whole
        obtain ⟨rfl, _⟩ := List.append_inj' split rfl
        have isPoint := pointOf_of_mark points
          (isMantissa.decimal (pointOf convention point) (by simp))
        rw [List.map_cons, List.map_cons, pointOf_of_isDigit digit, isPoint,
          AllDigits.map_pointOf fractional]
        exact .fraction digit nonzero present fractional
  · intro scientific
    generalize read : front.map (pointOf convention) = text at scientific
    have digit_ne {c : Char} (digit : c.isDigit = true) : c ≠ '.' := by
      intro point
      rw [point] at digit
      cases digit
    cases scientific with
    | whole digit nonzero =>
        obtain ⟨c, rfl, first⟩ := List.map_eq_singleton_iff.mp read
        obtain rfl := eq_of_pointOf first (digit_ne digit)
        exact .whole digit nonzero marks
    | fraction digit nonzero present fractional =>
        obtain ⟨c, rest, rfl, first, behind⟩ := List.map_eq_cons_iff.mp read
        obtain ⟨point, decimals, rfl, isPoint, decimalsRead⟩ := List.map_eq_cons_iff.mp behind
        obtain rfl := eq_of_pointOf first (digit_ne digit)
        obtain rfl := eq_of_map_pointOf decimalsRead fractional.point_not_mem
        refine .fraction digit nonzero ?_ present fractional marks
        rcases pointOf_cases convention point with same | ⟨⟨_, comma⟩, _⟩
        · exact .inl (same.symm.trans isPoint)
        · exact .inr comma

end Operand

variable {convention : Convention} {text front digits : List Char} {c sign : Char}

private theorem isOrdinary_of_isDigit (digit : c.isDigit = true) : IsOrdinary convention c := by
  have other {d : Char} (mark : d.isDigit = false) : c ≠ d := by
    rintro rfl
    rw [digit] at mark
    cases mark
  have marks : ∀ mark ∈ markCharacters, mark.isDigit = false := by
    simp [markCharacters, infixCharacters]
  refine ⟨fun member => other (marks c member) rfl, ?_, ?_⟩
  · have range : 48 ≤ c.toNat ∧ c.toNat ≤ 57 := Char.isDigit_iff_toNat.mp digit
    simp only [Text.isBlank, Bool.or_eq_false_iff, Bool.and_eq_false_iff, decide_eq_false_iff_not,
      beq_eq_false_iff_ne]
    omega
  · cases convention
    · exact other rfl
    · exact other rfl

private theorem Operand.AllDigits.ordinary (decimal : AllDigits text) (convention : Convention) :
    ∀ c ∈ text, IsOrdinary convention c :=
  fun c member => isOrdinary_of_isDigit (decimal c member)

private theorem isOrdinary_of_mark (mark : c ∈ ['.', 'e', 'E']) : IsOrdinary convention c := by
  simp only [List.mem_cons, List.not_mem_nil, or_false] at mark
  cases convention <;> rcases mark with rfl | rfl | rfl <;>
    simp [IsOrdinary, markCharacters, infixCharacters, Text.isBlank, Convention.separator]

/-- The characters of a mantissa have no meaning of their own, the decimal comma included. -/
theorem Operand.Mantissa.ordinary (isMantissa : Mantissa (front.map (pointOf convention))) :
    ∀ c ∈ front, IsOrdinary convention c := by
  intro c member
  rcases pointOf_cases convention c with same | ⟨⟨rfl, rfl⟩, _⟩
  · have read := isMantissa.decimal c (same ▸ List.mem_map_of_mem member)
    rcases read with digit | rfl
    · exact isOrdinary_of_isDigit digit
    · exact isOrdinary_of_mark (by simp)
  · simp [IsOrdinary, markCharacters, infixCharacters, Text.isBlank, Convention.separator]

private theorem Operand.Mantissa.ordinary_append {mark : Char}
    (isMantissa : Mantissa (front.map (pointOf convention))) (marks : mark = 'e' ∨ mark = 'E') :
    ∀ c ∈ front ++ [mark], IsOrdinary convention c := by
  refine List.forall_mem_append.mpr ⟨isMantissa.ordinary, List.forall_mem_singleton.mpr ?_⟩
  exact isOrdinary_of_mark (by rcases marks with rfl | rfl <;> simp)

/-- Ordinary characters go on with a word. -/
theorem Gathers.ordinaries {pending : List Char} (gathered : Gathers convention pending .formula)
    (ordinary : ∀ c ∈ text, IsOrdinary convention c) :
    Gathers convention (text.reverse ++ pending) .formula := by
  induction text generalizing pending with
  | nil => exact gathered
  | cons c text ih =>
      obtain ⟨first, others⟩ := List.forall_mem_cons.mp ordinary
      rw [List.reverse_cons, List.append_assoc]
      exact ih (.ordinary first rfl gathered) others

private theorem isWord_of_ordinary (present : text ≠ [])
    (ordinary : ∀ c ∈ text, IsOrdinary convention c) : IsWord convention text := by
  refine ⟨present, .formula, rfl, ?_⟩
  simpa using Gathers.start.ordinaries ordinary

private theorem isWord_of_exponent (ordinary : ∀ c ∈ front, IsOrdinary convention c)
    (before : BeforeExponent front) (isSign : IsSign sign) (decimal : Operand.AllDigits digits) :
    IsWord convention (front ++ sign :: digits) := by
  refine ⟨by simp, .formula, rfl, ?_⟩
  have awaited : Operand.awaitsExponent (front.reverse ++ []).reverse = true := by
    rw [List.append_nil, List.reverse_reverse]
    exact Operand.awaitsExponent_iff.mpr before
  have gathered := (Gathers.start.ordinaries ordinary).exponent isSign awaited rfl
  have whole := gathered.ordinaries (decimal.ordinary convention)
  simpa using whole

/-- A word is not preceded by anything that a formula drops at its start. -/
theorem IsWord.formulaBody_append (word : IsWord convention text) (more : List Char) :
    formulaBody (text ++ more) = text ++ more := by
  obtain ⟨present, reading, _, gathered⟩ := word
  obtain ⟨c, rest, rfl⟩ := List.exists_cons_of_ne_nil present
  have first := gathered.first_character c (by rw [List.getLast?_reverse]; rfl)
  have plain : Text.isBlank c = false ∧ c ≠ '=' := by
    rcases first with ordinary | rfl | rfl
    · refine ⟨ordinary.not_blank, ?_⟩
      rintro rfl
      exact ordinary.not_mark (by decide)
    · exact ⟨rfl, by decide⟩
    · exact ⟨rfl, by decide⟩
  have trimmed : Text.trimStart (c :: rest ++ more) = c :: rest ++ more :=
    List.dropWhile_cons_of_neg (by simp [plain.1])
  rw [formulaBody_of_other, trimmed]
  intro body same
  rw [trimmed] at same
  exact plain.2 (List.cons.inj same).1

/-- A formula without anything before it is read as the raw tokens that it spells out. -/
theorem tokenize_of_writes {raws : List Token}
    (course : Leads convention (IsKnown convention) (IsCallable convention) [] raws [])
    (apart : raws.IsChain Adjoins) (writes : Writes raws text) (body : formulaBody text = text) :
    tokenize convention text = .ok (finishStream convention raws) := by
  have clean : (Scanner.start text).Clean := ⟨rfl, rfl⟩
  obtain ⟨after, ran, _, closed, emitted⟩ := course.run_writes apart writes clean rfl
  refine tokenize_eq_ok.mpr ⟨after, ?_, ?_⟩
  · rw [scanFormula, body]
    exact ran
  · rw [Scanner.finish_toList, closed, emitted, List.map_nil, List.append_nil]
    rfl

private theorem Writes.word {rest : List Token} {more : List Char} (text : List Char)
    (after : Writes rest more) : Writes (⟨text, .operand, none⟩ :: rest) (text ++ more) := by
  have written := @Writes.token ⟨text, .operand, none⟩ rest more (by simp) after
  rwa [Token.spelled_bare rfl] at written

private theorem IsWord.isKnown (word : IsWord convention text) :
    IsKnown convention ⟨text, .operand, none⟩ :=
  ⟨.word word, by simp⟩

private theorem IsWord.tokenize_eq (word : IsWord convention text) :
    tokenize convention text =
      .ok [⟨text, .operand, some (Operand.classify convention text)⟩] := by
  have writes := Writes.nil.word text
  have body := word.formulaBody_append []
  rw [List.append_nil] at writes body
  exact tokenize_of_writes (.plain word.isKnown .done) (.singleton _) writes body

/-- A sign for which the scanner does not wait parts two words. -/
theorem tokenize_parted (left : IsWord convention front) (right : IsWord convention digits)
    (isSign : IsSign sign) (apart : ¬BeforeExponent front) :
    tokenize convention (front ++ sign :: digits) =
      .ok [⟨front, .operand, some (Operand.classify convention front)⟩,
        ⟨[sign], .infixOperator, none⟩,
        ⟨digits, .operand, some (Operand.classify convention digits)⟩] := by
  have mark : sign ∈ infixCharacters := by rcases isSign with rfl | rfl <;> decide
  have operator : IsKnown convention ⟨[sign], .infixOperator, none⟩ := ⟨.operator mark, by simp⟩
  have last : Writes [⟨[sign], .infixOperator, none⟩, ⟨digits, .operand, none⟩]
      (sign :: (digits ++ [])) :=
    .token (by simp) (Writes.nil.word digits)
  have writes := last.word front
  rw [List.append_nil] at writes
  have chain : List.IsChain Adjoins [⟨front, .operand, none⟩, ⟨[sign], .infixOperator, none⟩,
      ⟨digits, .operand, none⟩] := by
    refine .cons_cons ⟨abuts_of_not_value rfl (by simp), ?_⟩
      (.cons_cons ⟨⟨by simp [Token.isWord], by simp [Token.isText], by simp⟩, ?_⟩ (.singleton _))
    · rintro ⟨_, ⟨_, awaited, _⟩ | ⟨_, _, same, _⟩⟩
      · exact apart (Operand.awaitsExponent_iff.mp awaited)
      · cases same
    · rintro ⟨kind, _⟩
      cases kind
  rw [tokenize_of_writes (.plain left.isKnown (.plain operator (.plain right.isKnown .done))) chain
    writes (left.formulaBody_append _)]
  rcases isSign with rfl | rfl <;> rfl

open Operand in
/-- A text is one number exactly if, with its decimal mark written as a point, it is a mantissa with
an exponent or without one, where only a scientific mantissa has an exponent with a sign. -/
theorem tokenize_number_iff :
    tokenize convention text = .ok [⟨text, .operand, some .number⟩] ↔
      ∃ mantissa exponent sign, withPoint convention text = mantissa ++ exponent ∧
        Mantissa mantissa ∧ Exponent sign exponent ∧ (sign ≠ none → Scientific mantissa) := by
  constructor
  · intro read
    have number := isNumber_of_tokenize read _ List.mem_cons_self rfl
    obtain ⟨mantissa, exponent, sign, written, isMantissa, isExponent⟩ := isNumber_iff.mp number
    refine ⟨mantissa, exponent, sign, written, isMantissa, isExponent, fun signed => ?_⟩
    by_contra unscientific
    obtain ⟨front, rfl, rfl⟩ := isExponent.split_written written
    cases isExponent with
    | absent => exact signed rfl
    | unsigned _ _ _ => exact signed rfl
    | @signed mark sign digits marks isSign present decimal =>
        have ordinary := isMantissa.ordinary_append marks
        have left := isWord_of_ordinary (List.concat_ne_nil mark front) ordinary
        have right := isWord_of_ordinary present (decimal.ordinary convention)
        have apart := mt (isMantissa.before_iff marks).mp unscientific
        have parted := tokenize_parted left right isSign apart
        rw [List.append_assoc, List.singleton_append, read] at parted
        simp at parted
  · rintro ⟨mantissa, exponent, sign, written, isMantissa, isExponent, scientific⟩
    have number := isNumber_iff.mpr ⟨mantissa, exponent, sign, written, isMantissa, isExponent⟩
    obtain ⟨front, rfl, rfl⟩ := isExponent.split_written written
    have word : IsWord convention (front ++ exponent) := by
      cases isExponent with
      | absent =>
          rw [List.append_nil]
          exact isWord_of_ordinary (by simpa using isMantissa.ne_nil) isMantissa.ordinary
      | @unsigned mark digits marks present decimal =>
          rw [← List.singleton_append, ← List.append_assoc]
          exact isWord_of_ordinary (by simp) (List.forall_mem_append.mpr
            ⟨isMantissa.ordinary_append marks, decimal.ordinary convention⟩)
      | @signed mark sign digits marks isSign present decimal =>
          have before := (isMantissa.before_iff marks).mpr (scientific (by simp))
          rw [← List.singleton_append, ← List.append_assoc]
          exact isWord_of_exponent (isMantissa.ordinary_append marks) before isSign decimal
    rw [word.tokenize_eq, classify, if_pos number]

open Operand in
/-- A number with a decimal comma and a sign before its exponent, which the convention with decimal
points reads as two operands of a union. -/
theorem tokenize_number_comma :
    (∃ mantissa exponent sign, withPoint .eu "2,5E-3".toList = mantissa ++ exponent ∧
      Mantissa mantissa ∧ Exponent sign exponent ∧ (sign ≠ none → Scientific mantissa)) ∧
    tokenize .eu "2,5E-3".toList = .ok [⟨"2,5E-3".toList, .operand, some .number⟩] ∧
    tokenize .us "2,5E-3".toList =
      .ok [⟨['2'], .operand, some .number⟩, unionToken ',',
        ⟨"5E-3".toList, .operand, some .number⟩] := by
  have five : AllDigits ['5'] := List.forall_mem_singleton.mpr rfl
  have numeral : ∃ mantissa exponent sign, withPoint .eu "2,5E-3".toList = mantissa ++ exponent ∧
      Mantissa mantissa ∧ Exponent sign exponent ∧ (sign ≠ none → Scientific mantissa) :=
    ⟨['2', '.', '5'], ['E', '-', '3'], some '-', rfl,
      .fraction (List.cons_ne_nil '2' []) (List.forall_mem_singleton.mpr rfl) five,
      .signed (.inr rfl) (.inr rfl) (List.cons_ne_nil '3' []) (List.forall_mem_singleton.mpr rfl),
      fun _ => .fraction rfl (by decide) (List.cons_ne_nil '5' []) five⟩
  exact ⟨numeral, tokenize_number_iff.mpr numeral, rfl⟩

end SheetFormula
