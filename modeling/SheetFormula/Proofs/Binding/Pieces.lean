import SheetFormula.LetBinding
import SheetFormula.Proofs.Binding.Pattern
import SheetFormula.Proofs.Binding.Segments
import SheetFormula.Proofs.Scanner.Literal
import SheetFormula.Proofs.Scanner.Refusal
import SheetFormula.Proofs.Text.Visible

/-!
# The pieces of a formula

The references of a formula are found in the stretches outside of double quotes.  The pieces make up
the formula again (`Piece.written_ofFormula`), and binding replaces the references among them and
nothing else (`LetBinding.substituted_eq`).  A reference is written as a plain word or as a bracket
with a plain word behind it, so for the scanner it begins and ends outside of literals if it begins
there (`RowReference.Spelled.closed`).
-/

namespace SheetFormula

/-- What stands before the body of a formula holds neither quotes nor brackets nor separators. -/
theorem exists_plain_lead (formula : List Char) :
    ∃ lead, formula = lead ++ formulaBody formula ∧ IsPlain lead := by
  have whole : formula.takeWhile Text.isBlank ++ Text.trimStart formula = formula :=
    List.takeWhile_append_dropWhile
  have blank : IsPlain (formula.takeWhile Text.isBlank) :=
    isPlain_of_blank fun c => List.mem_takeWhile_imp
  by_cases equals : ∃ rest, Text.trimStart formula = '=' :: rest
  · obtain ⟨rest, start⟩ := equals
    refine ⟨formula.takeWhile Text.isBlank ++ ['='], ?_, ?_⟩
    · rw [formulaBody_of_equals start, List.append_assoc, List.singleton_append, ← start, whole]
    · intro c member
      rcases List.mem_append.mp member with before | sign
      · exact blank c before
      · obtain rfl := List.mem_singleton.mp sign
        decide
  · refine ⟨formula.takeWhile Text.isBlank, ?_, blank⟩
    rw [formulaBody_of_other fun rest start => equals ⟨rest, start⟩, whole]

namespace RowReference

/-- How a reference can be written. -/
inductive Spelled : List Char → Prop where
  | bare {word : List Char} (present : word ≠ []) (plain : IsPlain word) : Spelled word
  | bracketed {field mark : List Char} (inside : ']' ∉ field) (plain : IsPlain mark) :
      Spelled ('[' :: (field ++ ']' :: mark))

/-- A reference is written with at least one character. -/
theorem Spelled.ne_nil {written : List Char} (spelled : Spelled written) : written ≠ [] := by
  cases spelled with
  | bare present _ => exact present
  | bracketed _ _ => exact List.cons_ne_nil _ _

/-- A reference leaves each literal that it enters. -/
theorem Spelled.closed {written : List Char} (spelled : Spelled written) :
    Literal.outside.after written = .outside := by
  cases spelled with
  | bare _ plain => exact Literal.outside_after plain.not_beginner
  | @bracketed field mark inside plain =>
      rw [Literal.after_cons, Literal.after_append]
      change Literal.after (Literal.bracket.after field) _ = _
      rw [Literal.after_of_keeps (Literal.bracket_keeps inside)]
      exact Literal.outside_after plain.not_beginner

private theorem IsMark.plain {mark : List Char} (isMark : IsMark mark) : IsPlain mark := by
  obtain ⟨r, o, w, rfl, isR, isO, isW⟩ := isMark_iff.mp isMark
  have letters : ∀ d ∈ Literal.beginners ++ delimiters,
      d.toLower ≠ 'r' ∧ d.toLower ≠ 'o' ∧ d.toLower ≠ 'w' := by
    simp [Literal.beginners, delimiters]
  simp only [IsPlain, List.forall_mem_cons]
  exact ⟨by decide, fun member => (letters r member).1 isR,
    fun member => (letters o member).2.1 isO, fun member => (letters w member).2.2 isW, by simp⟩

private theorem isPlain_of_continuesName {name : List Char}
    (continues : ∀ c ∈ name, continuesName c = true) :
    IsPlain name := by
  have names : ∀ d ∈ Literal.beginners ++ delimiters, continuesName d = false := by
    simp [Literal.beginners, delimiters, continuesName]
  intro c member reserved
  have named := continues c member
  rw [names c reserved] at named
  cases named

private theorem Matches.spelled {before after : List Char} {found : RowReference}
    (fits : Matches before found after) : Spelled found.written := by
  cases fits with
  | bracketed _ inside isMark _ => exact .bracketed inside isMark.plain
  | @bare first name mark _ starts continues _ isMark _ =>
      have named : IsPlain (first :: name) := isPlain_of_continuesName
        (List.forall_mem_cons.mpr ⟨continuesName_of_startsName starts, continues⟩)
      exact .bare (List.cons_ne_nil _ _) (List.forall_mem_append.mpr ⟨named, isMark.plain⟩)

private theorem at?_eq_some {previous : Option Char} {text : List Char} {found : RowReference}
    (read : at? previous text = some found) :
    found.written <+: text ∧ Spelled found.written := by
  obtain ⟨after, rfl, fits⟩ := (@at?_eq_some_iff previous previous.toList _ _
    (by cases previous <;> rfl)).mp read
  exact ⟨List.prefix_append _ _, fits.spelled⟩

end RowReference

namespace Piece

/-- The pieces from which the skipped characters are left out make up the rest of the text. -/
theorem written_ofStretchFrom (previous : Option Char) (skipped : Nat) (text : List Char) :
    (ofStretchFrom previous skipped text).flatMap written = text.drop skipped := by
  induction text generalizing previous skipped with
  | nil => simp [ofStretchFrom]
  | cons c rest ih =>
      cases skipped with
      | succ skipped => exact ih (some c) skipped
      | zero =>
          rw [ofStretchFrom]
          cases read : RowReference.at? previous (c :: rest) with
          | none => exact congrArg (c :: ·) (ih (some c) 0)
          | some found =>
              obtain ⟨⟨last, split⟩, spelled⟩ := RowReference.at?_eq_some read
              obtain ⟨d, word, written⟩ := List.exists_cons_of_ne_nil spelled.ne_nil
              rw [written, List.cons_append] at split
              obtain ⟨rfl, rfl⟩ := List.cons.inj split
              rw [List.flatMap_cons, ih, Piece.written, written]
              simp

private theorem spelled_of_mem {previous : Option Char} {skipped : Nat} {text : List Char}
    {found : RowReference} (member : reference found ∈ ofStretchFrom previous skipped text) :
    RowReference.Spelled found.written := by
  induction text generalizing previous skipped with
  | nil => simp [ofStretchFrom] at member
  | cons c rest ih =>
      cases skipped with
      | succ skipped => exact ih member
      | zero =>
          rw [ofStretchFrom] at member
          cases read : RowReference.at? previous (c :: rest) with
          | none =>
              rw [read] at member
              rcases List.mem_cons.mp member with same | later
              · cases same
              · exact ih later
          | some other =>
              rw [read] at member
              rcases List.mem_cons.mp member with same | later
              · obtain rfl := reference.inj same
                exact (RowReference.at?_eq_some read).2
              · exact ih later

/-- The pieces of a text make up the text. -/
theorem written_ofFormula (text : List Char) : (ofFormula text).flatMap written = text := by
  rw [ofFormula, List.flatMap_assoc]
  refine (congrArg (Segment.divide text).flatMap (funext fun segment => ?_)).trans
    (Segment.text_divide text)
  cases segment with
  | outside stretch => exact written_ofStretchFrom none 0 stretch
  | quoted stretch => simp [List.flatMap_map, written, Segment.text]

/-- A reference is spelled out of quotes. -/
theorem spelled_of_mem_ofFormula {text : List Char} {found : RowReference}
    (member : reference found ∈ ofFormula text) :
    RowReference.Spelled found.written ∧ '"' ∉ found.written := by
  obtain ⟨segment, divided, inside⟩ := List.mem_flatMap.mp member
  cases segment with
  | outside stretch =>
      refine ⟨spelled_of_mem inside, fun quote => ?_⟩
      refine (Segment.alternate_divide text).unquoted_of_mem divided ?_
      have whole := written_ofStretchFrom none 0 stretch
      rw [List.drop_zero] at whole
      rw [← whole]
      exact List.mem_flatMap.mpr ⟨_, inside, quote⟩
  | quoted stretch => simp at inside

end Piece

namespace LetBinding

variable {convention : Convention} {table : List Mapping} {formula bound : List Char}

/-- The text whose references are bound is the body that is scanned, without the blanks at its end.
-/
theorem body_eq (formula : List Char) : body formula = Text.trimEnd (formulaBody formula) := by
  by_cases equals : ∃ rest, Text.trimStart formula = '=' :: rest
  · obtain ⟨rest, start⟩ := equals
    rw [formulaBody_of_equals start, body, Text.trim, start, Text.trimEnd_cons rfl]
    rfl
  · rw [formulaBody_of_other fun rest start => equals ⟨rest, start⟩, body]
    split
    · rename_i rest trimmed
      obtain ⟨blanks, split, _⟩ := Text.exists_trimEnd (Text.trimStart formula)
      rw [← Text.trim, trimmed] at split
      exact (equals ⟨rest ++ blanks, split⟩).elim
    · rfl

/-- Replacing the references stretch by stretch is the same as replacing them piece by piece. -/
theorem substituted_eq (table : List Mapping) (formula : List Char) :
    substituted table formula =
      (Piece.ofFormula (body formula)).flatMap (substitute table) := by
  rw [substituted, Segment.mapOutside_eq, Piece.ofFormula, List.flatMap_assoc]
  refine congrArg (Segment.divide (body formula)).flatMap (funext fun segment => ?_)
  cases segment with
  | outside stretch => rfl
  | quoted stretch =>
      simp [List.flatMap_map, substitute, Piece.reference?, Piece.written, Segment.changed]

/-- What binding a formula gives, if it succeeds: the formula itself, or one `LET` around it. -/
theorem bind_cases (result : bind convention table formula = .ok bound) :
    unmapped? table formula = none ∧
      (used table formula = [] ∧ bound = formula ∨
        used table formula ≠ [] ∧ bound = "=LET(".toList ++
          (used table formula).flatMap (binding convention) ++
          Text.trim (substituted table formula) ++ ")".toList) := by
  unfold bind at result
  cases missing : unmapped? table formula with
  | some reference =>
      rw [missing] at result
      cases result
  | none =>
      rw [missing] at result
      refine ⟨rfl, ?_⟩
      cases mappings : used table formula with
      | nil =>
          rw [mappings] at result
          exact .inl ⟨rfl, (Except.ok.inj result).symm⟩
      | cons first others =>
          rw [mappings] at result
          exact .inr ⟨List.cons_ne_nil _ _, (Except.ok.inj result).symm⟩

/-- Every field that a formula which can be bound refers to is in the table. -/
theorem find?_of_bind (result : bind convention table formula = .ok bound)
    {found : RowReference} (listed : found ∈ references formula) :
    ∃ mapping, Mapping.find? table found.field = some mapping := by
  have mapped := List.find?_eq_none.mp (bind_cases result).1 found listed
  rwa [Bool.not_eq_true, Option.isNone_eq_false_iff, Option.isSome_iff_exists] at mapped

/-- A reference to a field of the table is replaced by the identifier of the field. -/
theorem substitute_of_find? {reference : RowReference} {mapping : Mapping}
    (found : Mapping.find? table reference.field = some mapping) :
    substitute table (.reference reference) = mapping.identifier := by
  simp only [substitute, Piece.reference?, Option.bind_some, found]

/-- Each reference of a formula that can be bound is replaced by the identifier of a mapping. -/
theorem substitute_of_bind (result : bind convention table formula = .ok bound)
    {found : RowReference} (member : .reference found ∈ Piece.ofFormula (body formula)) :
    ∃ mapping ∈ table, substitute table (.reference found) = mapping.identifier := by
  obtain ⟨mapping, looked⟩ := find?_of_bind result (List.mem_filterMap.mpr ⟨_, member, rfl⟩)
  exact ⟨mapping, List.mem_of_find?_eq_some looked, substitute_of_find? looked⟩

/-- A formula that uses no mapping comes back as it is. -/
theorem bound_of_unused (result : bind convention table formula = .ok bound)
    (unused : used table formula = []) : bound = formula := by
  obtain ⟨_, ⟨_, same⟩ | ⟨present, _⟩⟩ := bind_cases result
  · exact same
  · exact (present unused).elim

/-- The text of a bound formula. -/
theorem bound_eq (result : bind convention table formula = .ok bound)
    (present : used table formula ≠ []) :
    formulaBody bound = "LET(".toList ++ ((used table formula).flatMap (binding convention) ++
      (Text.trim (substituted table formula) ++ ")".toList)) := by
  obtain ⟨_, ⟨unused, _⟩ | ⟨_, rfl⟩⟩ := bind_cases result
  · exact (present unused).elim
  · rw [List.append_assoc, List.append_assoc]
    rfl

end LetBinding

/-- Every reference among the pieces of a text that begins in the literal begins outside of
literals, or lies within one of the given literals with its replacement. -/
def Literal.clears (table : List Mapping) (within : List Literal) : Literal → List Piece → Bool
  | _, [] => true
  | literal, piece :: rest =>
      (piece.reference?.isNone || literal == .outside ||
        within.contains literal && literal.keeps piece.written &&
          literal.keeps (LetBinding.substitute table piece)) &&
        (literal.after piece.written).clears table within rest

/-- What holds of two equal texts, and goes on to hold if both get the same character or one gets a
reference and the other its replacement, holds of a text and the text with its references
replaced. -/
theorem LetBinding.substitute_induction {related : Literal → List Char → List Char → Prop}
    {table : List Mapping} {within : List Literal} {tail : List Char} {pieces : List Piece}
    {literal : Literal} (clear : literal.clears table within pieces = true)
    (spelled : ∀ found, .reference found ∈ pieces → RowReference.Spelled found.written)
    (same : ∀ literal, related literal tail tail)
    (char : ∀ (literal : Literal) c new old, related (literal.next c) new old →
      related literal (c :: new) (c :: old))
    (outside : ∀ found, .reference found ∈ pieces → ∀ new old, related .outside new old →
      related .outside (substitute table (.reference found) ++ new) (found.written ++ old))
    (inside : ∀ literal ∈ within, ∀ found, .reference found ∈ pieces →
      literal.keeps found.written = true →
      literal.keeps (substitute table (.reference found)) = true → ∀ new old,
      related literal new old →
      related literal (substitute table (.reference found) ++ new) (found.written ++ old)) :
    related literal (pieces.flatMap (substitute table) ++ tail)
      (pieces.flatMap Piece.written ++ tail) := by
  induction pieces generalizing literal with
  | nil => exact same literal
  | cons piece rest ih =>
      rw [Literal.clears, Bool.and_eq_true] at clear
      obtain ⟨here, later⟩ := clear
      have others {literal : Literal} (clear : literal.clears table within rest = true) :=
        ih clear (fun found member => spelled found (List.mem_cons_of_mem _ member))
          (fun found member => outside found (List.mem_cons_of_mem _ member))
          fun literal listed found member =>
            inside literal listed found (List.mem_cons_of_mem _ member)
      rw [List.flatMap_cons, List.flatMap_cons, List.append_assoc, List.append_assoc]
      cases piece with
      | char c => exact char literal c _ _ (others later)
      | reference found =>
          simp only [Piece.reference?, Option.isNone_some, Bool.false_or, Bool.or_eq_true,
            Bool.and_eq_true, beq_iff_eq, List.contains_iff_mem] at here
          rw [Piece.written] at later
          rcases here with rfl | ⟨⟨listed, written⟩, replaced⟩
          · rw [(spelled found List.mem_cons_self).closed] at later
            exact outside found List.mem_cons_self _ _ (others later)
          · rw [Piece.written] at written
            rw [Literal.after_of_keeps written] at later
            exact inside literal listed found List.mem_cons_self written replaced _ _
              (others later)

namespace LetBinding

variable {convention : Convention} {table : List Mapping} {formula bound : List Char}

/-- Only mappings of the table are used. -/
theorem used_subset {mapping : Mapping} (member : mapping ∈ used table formula) :
    mapping ∈ table := by
  obtain ⟨reference, _, found⟩ := List.mem_filterMap.mp (List.mem_eraseDups.mp member)
  exact List.mem_of_find?_eq_some found

/-- If the body that is scanned ends outside of literals, so does the text whose references are
bound. -/
theorem closed_body (ends : Literal.outside.after (formulaBody formula) = .outside) :
    Literal.outside.after (body formula) = .outside := by
  obtain ⟨blanks, split, blank⟩ := Text.exists_trimEnd (formulaBody formula)
  rw [split, Literal.after_append, ← body_eq] at ends
  exact Literal.outside_of_blanks blank ends

/-- Dropping the blanks around a text does not move its end into a literal. -/
theorem closed_trim {text : List Char} (closed : Literal.outside.after text = .outside) :
    Literal.outside.after (Text.trim text) = .outside := by
  obtain ⟨before, behind, split, blankBefore, blankBehind⟩ := Text.exists_trim text
  rw [split, Literal.after_append, Literal.after_append,
    Literal.outside_after (isPlain_of_blank blankBefore).not_beginner] at closed
  exact Literal.outside_of_blanks blankBehind closed

/-- A formula that ends outside of literals ends there with its references replaced. -/
theorem closed_substituted {within : List Literal}
    (clear : Literal.outside.clears table within (Piece.ofFormula (body formula)) = true)
    (closed : ∀ mapping ∈ table, Literal.outside.after mapping.identifier = .outside)
    (ends : Literal.outside.after (formulaBody formula) = .outside)
    (result : bind convention table formula = .ok bound) :
    Literal.outside.after (substituted table formula) = .outside := by
  have related := @substitute_induction
    (fun literal new old => literal.after new = literal.after old) table _ [] _ _ clear
    (fun found member => (Piece.spelled_of_mem_ofFormula member).1) (fun _ => rfl)
    (fun _ _ _ _ same => same) ?_ ?_
  · rw [List.append_nil, List.append_nil, ← substituted_eq, Piece.written_ofFormula] at related
    exact related.trans (closed_body ends)
  · intro found member new old same
    obtain ⟨mapping, listed, replaced⟩ := substitute_of_bind result member
    have spelled := (Piece.spelled_of_mem_ofFormula member).1
    rw [replaced, Literal.after_append, Literal.after_append, closed mapping listed, spelled.closed]
    exact same
  · intro literal _ found _ written replaced new old same
    rw [Literal.after_append, Literal.after_append, Literal.after_of_keeps written,
      Literal.after_of_keeps replaced]
    exact same

end LetBinding

end SheetFormula
