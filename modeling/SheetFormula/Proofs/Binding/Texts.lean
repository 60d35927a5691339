import SheetFormula.Proofs.Binding.Pieces

/-!
# Texts of bound formulas

Binding counts double quotes to tell texts from the rest of a formula.  The scanner does not count
the double quotes in paths, brackets and error codes, so the two can disagree, and then a reference
is found inside of a text (`bind_texts_path`).  As long as every reference that is found begins
outside of literals, or stays with its replacement in a path or a bracket, binding keeps the texts
of the formula (`bind_texts`).
-/

namespace SheetFormula

namespace LetBinding

variable {convention : Convention} {table : List Mapping} {formula bound : List Char}

private theorem texts_trim {text : List Char} (closed : Literal.outside.after text = .outside) :
    Literal.outside.texts none (Text.trim text) = Literal.outside.texts none text := by
  obtain ⟨before, behind, split, blankBefore, blankBehind⟩ := Text.exists_trim text
  have mute := Literal.isMute_of_plain (isPlain_of_blank blankBefore).not_beginner
  conv_rhs => rw [split]
  rw [Literal.texts_unquoted (by simp) mute.unquoted mute.closed,
    Literal.texts_concat (closed_trim closed) (isPlain_of_blank blankBehind).not_beginner]

/-- An identifier and a location that hold no text and leave every literal they enter. -/
structure IsTextless (mapping : Mapping) : Prop where
  present : mapping.identifier ≠ []
  identifier : Literal.IsMute mapping.identifier
  location : Literal.IsMute mapping.location

/-- Replacing references by identifiers changes no text between quotes. -/
private theorem texts_substituted
    (clear : Literal.outside.clears table [.path, .bracket] (Piece.ofFormula (body formula)) = true)
    (textless : ∀ mapping ∈ table, IsTextless mapping)
    (result : bind convention table formula = .ok bound) :
    Literal.outside.texts none (substituted table formula) =
      Literal.outside.texts none (body formula) := by
  have related := @substitute_induction
    (fun literal new old => ∀ held, literal.texts held new = literal.texts held old) table _ [] _ _
    clear (fun found member => (Piece.spelled_of_mem_ofFormula member).1) (fun _ _ => rfl) ?_ ?_ ?_
  · have same := related none
    rwa [List.append_nil, List.append_nil, ← substituted_eq, Piece.written_ofFormula] at same
  · intro literal c new old same held
    rw [Literal.texts, Literal.texts, same]
  · intro found member new old same held
    obtain ⟨mapping, listed, replaced⟩ := substitute_of_bind result member
    obtain ⟨spelled, unquoted⟩ := Piece.spelled_of_mem_ofFormula member
    have mute : Literal.IsMute found.written := ⟨unquoted, spelled.closed⟩
    rw [replaced, (textless mapping listed).identifier.texts (textless mapping listed).present,
      mute.texts spelled.ne_nil, same]
  · intro literal within found member written kept new old same held
    obtain ⟨mapping, listed, replaced⟩ := substitute_of_bind result member
    have spelled := (Piece.spelled_of_mem_ofFormula member).1
    rw [replaced] at kept ⊢
    rw [Literal.texts_of_keeps within kept (textless mapping listed).present,
      Literal.texts_of_keeps within written spelled.ne_nil, same]

private theorem isMute_binding {mapping : Mapping} (textless : IsTextless mapping) :
    Literal.IsMute (binding convention mapping) := by
  have between : Literal.IsMute (separator convention) := by
    refine Literal.isMute_of_plain ?_
    cases convention <;> simp [separator, Convention.separator, Literal.beginners]
  exact ((textless.identifier.append between).append textless.location).append between

/-- Binding keeps the texts of a formula, if every reference that it finds begins outside of
literals or lies in a path or a bracket, where its replacement stays as well. -/
theorem bind_texts {tokens boundTokens : List Token}
    (textless : ∀ mapping ∈ table, IsTextless mapping)
    (ends : Literal.outside.after (formulaBody formula) = .outside)
    (clear : Literal.outside.clears table [.path, .bracket] (Piece.ofFormula (body formula)) = true)
    (result : bind convention table formula = .ok bound)
    (read : tokenize convention formula = .ok tokens)
    (readBound : tokenize convention bound = .ok boundTokens) :
    textValues boundTokens = textValues tokens := by
  by_cases unused : used table formula = []
  · obtain rfl := bound_of_unused result unused
    rw [read] at readBound
    rw [Except.ok.inj readBound]
  have bindings :
      Literal.IsMute ("LET(".toList ++ (used table formula).flatMap (binding convention)) :=
    (Literal.isMute_of_plain (by simp [Literal.beginners])).append
      (.flatMap fun mapping member => isMute_binding (textless mapping (used_subset member)))
  have closed := closed_substituted clear
    (fun mapping listed => (textless mapping listed).identifier.closed) ends result
  obtain ⟨blanks, split, blank⟩ := Text.exists_trimEnd (formulaBody formula)
  calc textValues boundTokens
      = Literal.outside.texts none (formulaBody bound) := tokenize_texts readBound
    _ = Literal.outside.texts none (Text.trim (substituted table formula) ++ ")".toList) := by
        rw [bound_eq result unused, ← List.append_assoc,
          Literal.texts_unquoted (by simp) bindings.unquoted bindings.closed]
    _ = Literal.outside.texts none (substituted table formula) := by
        rw [Literal.texts_concat (closed_trim closed) (by simp [Literal.beginners]),
          texts_trim closed]
    _ = Literal.outside.texts none (body formula) := texts_substituted clear textless result
    _ = Literal.outside.texts none (formulaBody formula) := by
        rw [split, Literal.texts_concat (body_eq formula ▸ closed_body ends)
          (isPlain_of_blank blank).not_beginner, body_eq]
    _ = textValues tokens := (tokenize_texts read).symm

/-- References in a path, in a text with a doubled quote and outside of literals. -/
theorem bind_texts_quoted :
    ∃ bound tokens boundTokens,
      (∀ mapping ∈ [⟨"Status".toList, "'a b'!B:B".toList, none, none⟩], IsTextless mapping) ∧
      Literal.outside.after
        (formulaBody "='Status@row'!A1&\"x\"\"Status@row\"&Status@row".toList) = .outside ∧
      Literal.outside.clears [⟨"Status".toList, "'a b'!B:B".toList, none, none⟩] [.path, .bracket]
        (Piece.ofFormula (body "='Status@row'!A1&\"x\"\"Status@row\"&Status@row".toList)) = true ∧
      bind .us [⟨"Status".toList, "'a b'!B:B".toList, none, none⟩]
        "='Status@row'!A1&\"x\"\"Status@row\"&Status@row".toList = .ok bound ∧
      tokenize .us "='Status@row'!A1&\"x\"\"Status@row\"&Status@row".toList = .ok tokens ∧
      tokenize .us bound = .ok boundTokens ∧ textValues boundTokens = textValues tokens := by
  have textless : ∀ mapping ∈ [(⟨"Status".toList, "'a b'!B:B".toList, none, none⟩ : Mapping)],
      IsTextless mapping :=
    List.forall_mem_singleton.mpr ⟨by decide, ⟨by decide, rfl⟩, ⟨by decide, rfl⟩⟩
  have result : bind .us [⟨"Status".toList, "'a b'!B:B".toList, none, none⟩]
      "='Status@row'!A1&\"x\"\"Status@row\"&Status@row".toList =
        .ok "=LET(_Status, 'a b'!B:B, '_Status'!A1&\"x\"\"Status@row\"&_Status)".toList := by
    rfl
  have read : tokenize .us "='Status@row'!A1&\"x\"\"Status@row\"&Status@row".toList = .ok
      [⟨"'Status@row'!A1".toList, .operand, some .range⟩, ⟨['&'], .infixOperator, none⟩,
        ⟨"x\"Status@row".toList, .operand, some .text⟩, ⟨['&'], .infixOperator, none⟩,
        ⟨"Status@row".toList, .operand, some .range⟩] := by
    rfl
  have readBound :
      tokenize .us "=LET(_Status, 'a b'!B:B, '_Status'!A1&\"x\"\"Status@row\"&_Status)".toList = .ok
        [ScopeKind.function.startToken "LET".toList, ⟨"_Status".toList, .operand, some .range⟩,
          argumentToken ',', ⟨"'a b'!B:B".toList, .operand, some .range⟩, argumentToken ',',
          ⟨"'_Status'!A1".toList, .operand, some .range⟩, ⟨['&'], .infixOperator, none⟩,
          ⟨"x\"Status@row".toList, .operand, some .text⟩, ⟨['&'], .infixOperator, none⟩,
          ⟨"_Status".toList, .operand, some .range⟩, ScopeKind.function.stopToken] := by
    rfl
  exact ⟨_, _, _, textless, rfl, rfl, result, read, readBound,
    bind_texts textless rfl rfl result read readBound⟩

/-- The double quote in a path makes binding take the text behind it for a reference. -/
theorem bind_texts_path :
    ∃ bound tokens boundTokens,
      bind .us [⟨"Status".toList, "B:B".toList, none, none⟩] "='a\"b'!A1&\"Status@row\"".toList =
        .ok bound ∧
      tokenize .us "='a\"b'!A1&\"Status@row\"".toList = .ok tokens ∧
      tokenize .us bound = .ok boundTokens ∧
      textValues tokens = ["Status@row".toList] ∧ textValues boundTokens = ["_Status".toList] := by
  exact ⟨"=LET(_Status, B:B, 'a\"b'!A1&\"_Status\")".toList,
    [⟨"'a\"b'!A1".toList, .operand, some .range⟩, ⟨['&'], .infixOperator, none⟩,
      ⟨"Status@row".toList, .operand, some .text⟩],
    [ScopeKind.function.startToken "LET".toList, ⟨"_Status".toList, .operand, some .range⟩,
      argumentToken ',', ⟨"B:B".toList, .operand, some .range⟩, argumentToken ',',
      ⟨"'a\"b'!A1".toList, .operand, some .range⟩, ⟨['&'], .infixOperator, none⟩,
      ⟨"_Status".toList, .operand, some .text⟩, ScopeKind.function.stopToken],
    rfl, rfl, rfl, rfl, rfl⟩

end LetBinding

end SheetFormula
