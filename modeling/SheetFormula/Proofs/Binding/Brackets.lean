import SheetFormula.Proofs.Binding.Pieces
import SheetFormula.Proofs.Scanner.Outline

/-!
# Brackets of bound formulas

Binding puts a formula in the parentheses of a call, behind the names and locations of the mappings.
If these are plain ranges and no reference of the formula and no replacement ends a literal that it
is found in, the brackets and separators of the formula stay as they are, and only the call and two
separators for each mapping come before them (`LetBinding.follow_bound`).
-/

namespace SheetFormula

open SheetFormula.Bracket

variable {convention : Convention}

private theorem RowReference.Spelled.inert {written : List Char} (spelled : Spelled written) :
    Inert convention written := by
  refine ⟨spelled.closed, fun opened => ?_⟩
  cases spelled with
  | bare _ plain => exact (inert_of_plain plain).unmarked opened
  | @bracketed field mark inside plain =>
      -- Up to the first closing bracket all of the field lies in a literal.
      have opening := @meet_of_plain convention '[' (by decide) opened
      have closing : follow convention .bracket opened (']' :: mark) = some ([], opened) := by
        rw [follow, meetIn, if_neg (by simp), Option.bind_some, Literal.next, if_pos rfl,
          (inert_of_plain plain).unmarked]
        rfl
      rw [follow, meetIn, if_pos rfl, opening, Option.bind_some]
      change Option.map _ (follow convention .bracket opened (field ++ ']' :: mark)) = _
      rw [follow_of_keeps (by simp) (Literal.bracket_keeps inside), closing]
      rfl

/-- The text is a single operand that is neither a number nor a truth value, and it ends outside of
literals. -/
structure IsRangeText (convention : Convention) (text : List Char) : Prop where
  read : ∃ value, tokenize convention text = .ok [⟨value, .operand, some .range⟩]
  closed : Literal.outside.after text = .outside

private theorem IsRangeText.inert {text : List Char} (range : IsRangeText convention text) :
    Inert convention text := by
  obtain ⟨value, read⟩ := range.read
  obtain ⟨lead, split, plain⟩ := exists_plain_lead text
  obtain ⟨scanner, scanned, same⟩ := tokenize_eq_ok.mp read
  obtain ⟨left, followed, marked⟩ := follow_of_scan scanned
  rw [same] at marked
  obtain ⟨rfl, _⟩ := List.append_eq_nil_iff.mp marked.symm
  refine ⟨range.closed, fun opened => ?_⟩
  rw [split, (inert_of_plain plain).skip]
  exact follow_of_unmarked followed opened

namespace LetBinding

variable {table : List Mapping} {formula bound : List Char}

private theorem follow_binding {mapping : Mapping}
    (identifier : IsRangeText convention mapping.identifier)
    (location : IsRangeText convention mapping.location) (opened : List Bracket)
    (rest : List Char) :
    follow convention .outside opened (binding convention mapping ++ rest) =
      (follow convention .outside opened rest).map fun last =>
        (.separates :: .separates :: last.1, last.2) := by
  have between (rest : List Char) :
      follow convention .outside opened (separator convention ++ rest) =
        (follow convention .outside opened rest).map fun last =>
          (.separates :: last.1, last.2) := by
    have met : meet convention opened convention.separator = some ([.separates], opened) := by
      cases convention <;> rfl
    have outside : Literal.outside.next convention.separator = .outside := by
      cases convention <;> rfl
    rw [separator, List.cons_append, follow, meetIn, if_pos rfl, met, Option.bind_some, outside,
      (inert_of_plain (by decide)).skip]
    rfl
  simp only [binding, List.append_assoc]
  rw [identifier.inert.skip, between, location.inert.skip, between, Option.map_map]
  rfl

private theorem follow_bindings {mappings : List Mapping}
    (ranges : ∀ mapping ∈ mappings, IsRangeText convention mapping.identifier ∧
      IsRangeText convention mapping.location) (opened : List Bracket) (rest : List Char) :
    follow convention .outside opened (mappings.flatMap (binding convention) ++ rest) =
      (follow convention .outside opened rest).map fun last =>
        (List.replicate (2 * mappings.length) .separates ++ last.1, last.2) := by
  induction mappings with
  | nil => exact Option.map_id'.symm
  | cons mapping mappings ih =>
      obtain ⟨⟨identifier, location⟩, others⟩ := List.forall_mem_cons.mp ranges
      rw [List.flatMap_cons, List.append_assoc, follow_binding identifier location, ih others,
        Option.map_map]
      rfl

/-- Replacing references by identifiers changes neither brackets nor separators. -/
private theorem follow_substituted
    (clear : Literal.outside.clears table [.text, .path, .bracket]
      (Piece.ofFormula (body formula)) = true)
    (ranges : ∀ mapping ∈ table, IsRangeText convention mapping.identifier)
    (result : bind convention table formula = .ok bound) (opened : List Bracket)
    (rest : List Char) :
    follow convention .outside opened (substituted table formula ++ rest) =
      follow convention .outside opened (body formula ++ rest) := by
  have related := @substitute_induction
    (fun literal new old => ∀ opened,
      follow convention literal opened new = follow convention literal opened old) table _ rest _ _
    clear (fun found member => (Piece.spelled_of_mem_ofFormula member).1) (fun _ _ => rfl) ?_ ?_ ?_
  · rw [substituted_eq, related, Piece.written_ofFormula]
  · intro literal c new old same opened
    rw [follow, follow]
    exact congrArg _ (funext fun met => by rw [same])
  · intro found member new old same opened
    obtain ⟨mapping, listed, replaced⟩ := substitute_of_bind result member
    have spelled := (Piece.spelled_of_mem_ofFormula member).1
    rw [replaced, (ranges mapping listed).inert.skip, spelled.inert.skip, same]
  · intro literal within found _ written replaced new old same opened
    have inside : literal ≠ .outside := by
      rintro rfl
      simp at within
    rw [follow_of_keeps inside written, follow_of_keeps inside replaced, same]

private theorem follow_trim {text : List Char} (closed : Literal.outside.after text = .outside)
    (opened : List Bracket) (rest : List Char) :
    follow convention .outside opened (Text.trim text ++ rest) =
      follow convention .outside opened (text ++ rest) := by
  obtain ⟨before, behind, split, blankBefore, blankBehind⟩ := Text.exists_trim text
  have lead : Inert convention before := inert_of_plain (isPlain_of_blank blankBefore)
  have tail : Inert convention behind := inert_of_plain (isPlain_of_blank blankBehind)
  conv_rhs => rw [split, List.append_assoc, lead.skip, List.append_assoc]
  rw [follow_append, follow_append, closed_trim closed]
  simp only [tail.skip]

/-- The brackets of a bound formula: a parenthesis, two separators for each mapping, and the
brackets of the formula. -/
theorem follow_bound (ranges : ∀ mapping ∈ table, IsRangeText convention mapping.identifier ∧
      IsRangeText convention mapping.location)
    (ends : Literal.outside.after (formulaBody formula) = .outside)
    (clear : Literal.outside.clears table [.text, .path, .bracket]
      (Piece.ofFormula (body formula)) = true)
    (result : bind convention table formula = .ok bound) (present : used table formula ≠ []) :
    follow convention .outside [] (formulaBody bound) =
      (follow convention .outside [.round] (body formula ++ [')'])).map fun last =>
        (.opens :: (List.replicate (2 * (used table formula).length) .separates ++ last.1),
          last.2) := by
  have closed := closed_substituted clear
    (fun mapping listed => (ranges mapping listed).1.closed) ends result
  have call (rest : List Char) : follow convention .outside [] ("LET(".toList ++ rest) =
      (follow convention .outside [.round] rest).map fun last => (.opens :: last.1, last.2) := by
    change follow convention .outside [] ("LET".toList ++ '(' :: rest) = _
    rw [(inert_of_plain (by decide)).skip]
    rfl
  rw [bound_eq result present, call,
    follow_bindings fun mapping member => ranges mapping (used_subset member),
    follow_trim closed, follow_substituted clear (fun mapping listed => (ranges mapping listed).1)
      result, Option.map_map]
  rfl

/-- A formula and its body without the blanks at the end meet the same brackets and separators. -/
theorem follow_body (ends : Literal.outside.after (formulaBody formula) = .outside)
    (opened : List Bracket) :
    follow convention .outside opened (formulaBody formula) =
      follow convention .outside opened (body formula) := by
  obtain ⟨blanks, split, blank⟩ := Text.exists_trimEnd (formulaBody formula)
  have tail : Inert convention blanks := inert_of_plain (isPlain_of_blank blank)
  have closed := closed_body ends
  rw [body_eq] at closed ⊢
  conv_lhs => rw [split, follow_append, closed]
  cases follow convention .outside opened (Text.trimEnd (formulaBody formula)) with
  | none => rfl
  | some met => simp [tail.unmarked]

/-- A closing parenthesis behind a text. -/
theorem follow_close {text : List Char} {opened last : List Bracket} {left : List Mark}
    (closed : Literal.outside.after text = .outside) :
    follow convention .outside opened (text ++ [')']) = some (left, last) ↔
      ∃ marks, follow convention .outside opened text = some (marks, .round :: last) ∧
        marks ++ [.closes] = left := by
  rw [follow_append, closed]
  cases follow convention .outside opened text with
  | none => simp
  | some met =>
      obtain ⟨marks, reached⟩ := met
      cases reached with
      | nil => simp [follow, meetIn, meet, Delimiter.of?, Delimiter.meet]
      | cons innermost outer =>
          cases innermost <;>
            simp [follow, meetIn, meet, Delimiter.of?, Delimiter.meet, Bracket.scopes, and_comm]

end LetBinding

end SheetFormula
