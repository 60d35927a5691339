import SheetFormula.Proofs.Scanner.Written
import SheetFormula.Proofs.Stream.Finish

/-!
# Finished streams spread over a text

`Spread` says that a text spells out a finished stream, with blanks between its tokens where these
are dropped when the text is read.  The raw tokens of such a text follow the course of the stream
(`Legible.leads_raws`), no two of them are read as one (`Spread.isChain_raws`), and the passes make
the stream of them again (`Legible.finishStream_raws`).
-/

namespace SheetFormula

variable {convention : Convention} {tokens raws : List Token} {text : List Char}
  {scopes last : List ScopeKind} {previous : Option Token}

/-- The raw token of a blank. -/
def blankToken : Token :=
  { value := [' '], kind := .blank }

namespace Token

/-- The token before signs, comparisons and operands are resolved. -/
def unresolved (token : Token) : Token :=
  match token.kind, token.role with
  | .operand, some .number | .operand, some .logical | .operand, some .range
  | .infixOperator, some .logical => { token with role := none }
  | .prefixOperator, none => { token with kind := .infixOperator }
  | _, _ => token

/-- The raw token that the finished token comes from. -/
def raw (token : Token) : Token :=
  if token.role = some .intersect then blankToken else token.unresolved

end Token

/-- The token is one that a finished stream may have. -/
structure IsVisible (token : Token) : Prop where
  kind : token.kind ≠ .blank
  intersect : token.role = some .intersect → token = intersection
  minus : token.kind = .prefixOperator → token.value = ['-']
  comparison : token.kind = .infixOperator → ∀ c ∈ token.value.head?, c = '=' ∨ c = '>' →
    token.value ∈ comparisons

namespace IsVisible

variable {token : Token}

/-- A token of a finished stream comes from a blank, if it is an intersection, or else from the
token before it was resolved. -/
theorem raw_cases (visible : IsVisible token) :
    token = intersection ∧ token.raw = blankToken ∨
      token.role ≠ some .intersect ∧ token.raw = token.unresolved := by
  by_cases intersect : token.role = some .intersect
  · exact .inl ⟨visible.intersect intersect, if_pos intersect⟩
  · exact .inr ⟨intersect, if_neg intersect⟩

end IsVisible

/-- A token other than a blank is not resolved from a blank. -/
theorem unresolved_kind {token : Token} (visible : token.kind ≠ .blank) :
    token.unresolved.kind ≠ .blank := by
  unfold Token.unresolved
  split
  case h_5 => nofun
  all_goals exact visible

private theorem alike_unresolved (token : Token) : Alike token token.unresolved := by
  have intersect (same : token.unresolved.role = some .intersect) :
      token.role = some .intersect := by
    unfold Token.unresolved at same
    split at same
    case h_5 | h_6 => exact same
    all_goals cases same
  obtain ⟨value, kind, role⟩ := token
  cases kind <;> rcases role with _ | _ | _ | _ | _ | _ | _ | _ | _ | _ <;>
    exact ⟨rfl, rfl, rfl, rfl, intersect⟩

/-- A token is spelled as it was before it was resolved. -/
theorem spelled_unresolved (token : Token) : token.unresolved.spelled = token.spelled := by
  obtain ⟨value, kind, role⟩ := token
  cases kind <;> rcases role with _ | _ | _ | _ | _ | _ | _ | _ | _ | _ <;> rfl

private theorem IsVisible.alike_raw {token : Token} (visible : IsVisible token) :
    Alike token token.raw := by
  rcases visible.raw_cases with ⟨rfl, same⟩ | ⟨_, same⟩
  · rw [same]
    exact ⟨rfl, rfl, rfl, rfl, nofun⟩
  · rw [same]
    exact alike_unresolved token

/-- Blanks between the two tokens are dropped when they are read. -/
structure Spaces (previous : Option Token) (token : Token) : Prop where
  value : ∀ left ∈ previous, left.endsValue = true → token.beginsValue = false
  intersect : token.role ≠ some .intersect ∧ ∀ left ∈ previous, left.role ≠ some .intersect
  row : token ≠ ScopeKind.arrayRow.startToken arrayRowName ∧
    ∀ left ∈ previous, left ≠ ScopeKind.arrayRow.stopToken

/-- With nothing between them, the second token would be read as a part of the first one. -/
def Joins (left right : Token) : Prop :=
  right.kind = .infixOperator ∧
    (left.isOperand = true ∧ BeforeExponent left.value ∧
        (right.value = ['+'] ∨ right.value = ['-']) ∨
      left.kind = .infixOperator ∧ (left.value = ['<'] ∨ left.value = ['>']) ∧
        right.value ∈ comparisons)

instance {left right : Token} : Decidable (Joins left right) :=
  inferInstanceAs (Decidable (_ ∧ (_ ∧ _ ∧ (_ ∨ _) ∨ _ ∧ (_ ∨ _) ∧ _)))

/-- The text spells out the finished tokens after the previous one, with blanks where they are
dropped.  The raw tokens are those that the text is read as. -/
inductive Spread : Option Token → List Token → List Token → List Char → Prop where
  | nil {previous : Option Token} : Spread previous [] [] []
  | tight {previous : Option Token} {token : Token} {rest raws : List Token} {text : List Char}
      (apart : ∀ left ∈ previous, ¬Joins left token)
      (after : Spread (some token) rest raws text) :
      Spread previous (token :: rest) (token.raw :: raws) (token.spelled ++ text)
  | spaced {previous : Option Token} {token : Token} {rest raws : List Token}
      {gap text : List Char} (present : gap ≠ []) (blank : ∀ c ∈ gap, Text.isBlank c = true)
      (spaces : Spaces previous token) (after : Spread (some token) rest raws text) :
      Spread previous (token :: rest) (blankToken :: token.raw :: raws)
        (gap ++ (token.spelled ++ text))

private theorem resolveBlanks_blank (previous : Option Token) (rest : List Token) :
    resolveBlanks previous (blankToken :: rest) =
      if intersects previous rest.head? then intersection :: resolveBlanks (some blankToken) rest
      else resolveBlanks (some blankToken) rest := by
  rw [resolveBlanks, if_pos (show blankToken.kind = .blank from rfl)]

namespace Spread

/-- A text that spells out finished tokens spells out the raw tokens that they come from. -/
theorem writes (spread : Spread previous tokens raws text)
    (visible : ∀ token ∈ tokens, IsVisible token) : Writes raws text := by
  have piece {token : Token} {raws : List Token} {text : List Char} (isVisible : IsVisible token)
      (after : Writes raws text) : Writes (token.raw :: raws) (token.spelled ++ text) := by
    rcases isVisible.raw_cases with ⟨rfl, _⟩ | ⟨_, same⟩
    · refine .blank (List.cons_ne_nil ' ' []) ?_ after
      intro c member
      obtain rfl : c = ' ' := List.mem_singleton.mp member
      rfl
    · rw [same, ← spelled_unresolved token]
      exact .token (unresolved_kind isVisible.kind) after
  induction spread with
  | nil => exact .nil
  | tight _ _ ih =>
      obtain ⟨isVisible, restVisible⟩ := List.forall_mem_cons.mp visible
      exact piece isVisible (ih restVisible)
  | spaced present blank _ _ ih =>
      obtain ⟨isVisible, restVisible⟩ := List.forall_mem_cons.mp visible
      exact .blank present blank (piece isVisible (ih restVisible))

/-- After an intersection there is no gap. -/
theorem head?_raws {token : Token} (spread : Spread (some token) tokens raws text)
    (intersect : token.role = some .intersect) : raws.head? = tokens.head?.map Token.raw := by
  cases spread with
  | nil => rfl
  | tight _ _ => rfl
  | spaced _ _ spaces _ => exact (spaces.intersect.2 token rfl intersect).elim

/-- The first pass drops the gaps and takes the blank of an intersection for one. -/
theorem resolveBlanks_raws (spread : Spread previous tokens raws text)
    (visible : ∀ token ∈ tokens, IsVisible token) (before : ∀ token ∈ previous, IsVisible token)
    (linked : Linked Links previous tokens) :
    resolveBlanks (previous.map Token.raw) raws = tokens.map Token.unresolved := by
  induction spread with
  | nil => rfl
  | @tight previous token rest raws text _ after ih =>
      obtain ⟨isVisible, restVisible⟩ := List.forall_mem_cons.mp visible
      obtain ⟨link, restLinked⟩ := linked
      have further := ih restVisible (by simpa using isVisible) restLinked
      rw [Option.map_some] at further
      rw [List.map_cons, ← further]
      rcases isVisible.raw_cases with ⟨isIntersection, same⟩ | ⟨_, same⟩
      · have role : token.role = some .intersect := by rw [isIntersection]; rfl
        obtain ⟨⟨left, leftMember, ends⟩, right, rightMember, begins⟩ := link.intersect role
        obtain rfl : previous = some left := leftMember
        have met : intersects ((some left).map Token.raw) raws.head? = true := by
          have rightVisible := restVisible right (List.mem_of_mem_head? rightMember)
          rw [after.head?_raws role, show rest.head? = some right from rightMember]
          simp only [Option.map_some, intersects, (before left rfl).alike_raw.endsValue,
            rightVisible.alike_raw.beginsValue, ends, begins, Bool.and_self]
        rw [same, resolveBlanks_blank, if_pos met, isIntersection]
        rfl
      · rw [same, resolveBlanks_cons (unresolved_kind isVisible.kind)]
  | @spaced previous token rest raws gap text present blank spaces after ih =>
      obtain ⟨isVisible, restVisible⟩ := List.forall_mem_cons.mp visible
      obtain ⟨link, restLinked⟩ := linked
      have further := ih restVisible (by simpa using isVisible) restLinked
      rw [Option.map_some] at further
      have apart : intersects (previous.map Token.raw) (some token.raw) = false := by
        cases previous with
        | none => rfl
        | some left =>
            simp only [Option.map_some, intersects, (before left rfl).alike_raw.endsValue,
              isVisible.alike_raw.beginsValue, Bool.and_eq_false_iff]
            by_cases ends : left.endsValue = true
            · exact .inr (spaces.value left rfl ends)
            · exact .inl (by simpa using ends)
      have same : token.raw = token.unresolved := if_neg spaces.intersect.1
      rw [resolveBlanks_blank, List.head?_cons, if_neg (by simp [apart]), List.map_cons,
        ← further, same, resolveBlanks_cons (unresolved_kind isVisible.kind)]

end Spread

/-- The finished token has a meaning, and its words and error codes are complete. -/
def IsLegible (convention : Convention) (token : Token) : Prop :=
  IsFinished convention (IsWord convention) (· ∈ errorCodes) token ∧ token.kind ≠ .unknown

/-- Resolving undoes `Token.unresolved`, where the token finds what it relies on before it. -/
private theorem IsLegible.resolveToken_unresolved {token : Token} {next : Option Token}
    (legible : IsLegible convention token) (link : Links previous token next) :
    resolveToken convention previous token.unresolved = token := by
  obtain ⟨⟨resolved, kept⟩, known⟩ := legible
  cases resolved with
  | @word text held =>
      rcases classify_cases convention text with sort | sort | sort <;>
        · rw [sort]
          change (⟨text, .operand, some (Operand.classify convention text)⟩ : Token) = _
          rw [sort]
  | text content => rfl
  | code held => rfl
  | unknown _ => exact (known rfl).elim
  | sign sign =>
      have precedes := link.sign rfl (sign.imp (by rintro rfl; rfl) (by rintro rfl; rfl))
      rcases sign with rfl | rfl <;> simp [Token.unresolved, resolveToken, precedes]
  | minus =>
      have alone := link.unary (.inl rfl)
      simp [Token.unresolved, resolveToken, alone]
  | plus => exact (kept rfl).elim
  | operator mark =>
      simp only [List.mem_cons, List.not_mem_nil, or_false] at mark
      rcases mark with rfl | rfl | rfl | rfl <;> rfl
  | comparison comparison =>
      simp only [comparisons, List.mem_cons, List.not_mem_nil, or_false] at comparison
      rcases comparison with rfl | rfl | rfl | rfl | rfl | rfl <;> rfl
  | percent => rfl
  | intersection => rfl

/-- A legible token is one that a finished stream may have. -/
theorem IsLegible.isVisible {token : Token} (legible : IsLegible convention token) :
    IsVisible token := by
  obtain ⟨⟨resolved, _⟩, _⟩ := legible
  cases resolved with
  | @word text held =>
      rcases classify_cases convention text with sort | sort | sort <;> rw [sort] <;>
        exact ⟨nofun, nofun, nofun, nofun⟩
  | sign sign =>
      refine ⟨nofun, nofun, nofun, fun _ c member isMark => ?_⟩
      obtain rfl := Option.some.inj member
      rcases sign with rfl | rfl <;> simp at isMark
  | minus => exact ⟨nofun, nofun, fun _ => rfl, nofun⟩
  | operator mark =>
      refine ⟨nofun, nofun, nofun, fun _ c member isMark => ?_⟩
      obtain rfl := Option.some.inj member
      rcases isMark with rfl | rfl <;> simp at mark
  | comparison comparison => exact ⟨nofun, nofun, nofun, fun _ _ _ _ => comparison⟩
  | intersection =>
      refine ⟨nofun, fun _ => rfl, nofun, fun _ c member isMark => ?_⟩
      obtain rfl : ' ' = c := Option.some.inj member
      simp at isMark
  | _ => exact ⟨nofun, nofun, nofun, nofun⟩

/-- The stream is one that reads as it is written, from the first open scopes to the last. -/
abbrev Legible (convention : Convention) (scopes : List ScopeKind) (tokens : List Token)
    (last : List ScopeKind) : Prop :=
  Leads convention (IsLegible convention) (IsCallable convention) scopes tokens last

/-- All tokens of a legible stream are such that a finished stream may have them. -/
theorem Legible.isVisible (legible : Legible convention scopes tokens last) :
    ∀ token ∈ tokens, IsVisible token := by
  refine legible.forall_mem (fun token held => held.isVisible) ?_ ?_ ?_
  · refine fun c _ => ⟨⟨nofun, nofun, nofun, nofun⟩, nofun, nofun, nofun,
      fun _ d member isMark => ?_⟩
    obtain rfl : c = d := Option.some.inj member
    rcases isMark with rfl | rfl <;> simp [unionToken, comparisons]
  · intro kind name
    cases kind <;> exact ⟨nofun, nofun, nofun, nofun⟩
  · intro kind
    cases kind <;> exact ⟨nofun, nofun, nofun, nofun⟩

private theorem resolveToken_unresolved_union {c : Char} {next : Option Token}
    (link : Links previous (unionToken c) next) :
    resolveToken convention previous (unionToken c).unresolved = unionToken c := by
  change resolveToken convention previous (unionToken c) = unionToken c
  have operator : (unionToken c).kind = .infixOperator := rfl
  by_cases sign : (unionToken c).value = ['+'] ∨ (unionToken c).value = ['-']
  · rw [resolveToken, if_pos operator, if_pos sign, if_pos (link.sign rfl sign)]
  · rw [resolveToken, if_pos operator, if_neg sign,
      if_neg fun plain => Option.some_ne_none _ plain.1]

/-- The second pass resolves the tokens as they were. -/
theorem Legible.resolveTokens_unresolved (legible : Legible convention scopes tokens last)
    (linked : Linked Links previous tokens) :
    resolveTokens convention previous (tokens.map Token.unresolved) = tokens := by
  have resolves : ∀ token ∈ tokens, ∀ (previous next : Option Token), Links previous token next →
      resolveToken convention previous token.unresolved = token := by
    refine legible.forall_mem (fun token held _ _ => held.resolveToken_unresolved) ?_ ?_ ?_
    · exact fun c _ => ⟨fun _ _ _ => rfl, fun _ _ => resolveToken_unresolved_union⟩
    · intro kind name _ _ _
      cases kind <;> rfl
    · intro kind _ _ _
      cases kind <;> rfl
  clear legible
  induction tokens generalizing previous with
  | nil => rfl
  | cons token rest ih =>
      obtain ⟨link, restLinked⟩ := linked
      obtain ⟨same, restResolves⟩ := List.forall_mem_cons.mp resolves
      rw [List.map_cons, resolveTokens, same _ _ link, ih restLinked restResolves]

private theorem Legible.filter_eq (legible : Legible convention scopes tokens last) :
    tokens.filter (fun token => token.kind != .discarded) = tokens := by
  have kept : ∀ token ∈ tokens, token.kind ≠ .discarded := by
    refine legible.forall_mem (fun token held => held.1.2) ?_ ?_ ?_
    · exact fun c _ => ⟨nofun, nofun⟩
    · intro kind name
      cases kind <;> nofun
    · intro kind
      cases kind <;> nofun
  exact List.filter_eq_self.mpr fun token member => by simpa using kept token member

/-- Finishing the raw tokens of a text gives back the stream that was spread over it. -/
theorem Legible.finishStream_raws (legible : Legible convention scopes tokens last)
    (linked : Linked Links none tokens) (spread : Spread none tokens raws text) :
    finishStream convention raws = tokens := by
  have blanks : resolveBlanks none raws = tokens.map Token.unresolved :=
    spread.resolveBlanks_raws legible.isVisible nofun linked
  rw [finishStream, blanks, legible.resolveTokens_unresolved linked, legible.filter_eq]

/-- A legible token comes from a raw token with a meaning. -/
theorem IsLegible.isKnown {token : Token} (legible : IsLegible convention token) :
    IsKnown convention token.raw := by
  obtain ⟨⟨resolved, kept⟩, known⟩ := legible
  cases resolved with
  | @word text held =>
      rcases classify_cases convention text with sort | sort | sort <;> rw [sort] <;>
        exact ⟨.word held, nofun⟩
  | text content => exact ⟨.text content, nofun⟩
  | code held => exact ⟨.code held, nofun⟩
  | unknown _ => exact (known rfl).elim
  | sign sign => exact ⟨.operator (by rcases sign with rfl | rfl <;> decide), nofun⟩
  | minus => exact ⟨.operator (by decide), nofun⟩
  | plus => exact (kept rfl).elim
  | operator mark =>
      refine ⟨.operator ?_, nofun⟩
      simp only [List.mem_cons, List.not_mem_nil, or_false] at mark
      rcases mark with rfl | rfl | rfl | rfl <;> decide
  | comparison comparison =>
      simp only [comparisons, List.mem_cons, List.not_mem_nil, or_false] at comparison
      rcases comparison with rfl | rfl | rfl | rfl | rfl | rfl
      · exact ⟨.operator (by decide), nofun⟩
      · exact ⟨.operator (by decide), nofun⟩
      · exact ⟨.operator (by decide), nofun⟩
      · exact ⟨.comparison rfl, nofun⟩
      · exact ⟨.comparison rfl, nofun⟩
      · exact ⟨.comparison rfl, nofun⟩
  | percent => exact ⟨.percent, nofun⟩
  | intersection => exact ⟨.blank, nofun⟩

namespace Spread

/-- A token of a spread stream with or without a gap before it. -/
theorem of_cons {token : Token} {rest : List Token}
    (spread : Spread previous (token :: rest) raws text) :
    ∃ more moreText, Spread (some token) rest more moreText ∧
      (raws = token.raw :: more ∨ raws = blankToken :: token.raw :: more) := by
  cases spread with
  | tight _ after => exact ⟨_, _, after, .inl rfl⟩
  | spaced _ _ _ after => exact ⟨_, _, after, .inr rfl⟩

/-- There is no gap before a token that cannot have one. -/
theorem of_cons_tight {token : Token} {rest : List Token}
    (spread : Spread previous (token :: rest) raws text) (closed : ¬Spaces previous token) :
    ∃ more moreText, Spread (some token) rest more moreText ∧ raws = token.raw :: more := by
  cases spread with
  | tight _ after => exact ⟨_, _, after, rfl⟩
  | spaced _ _ spaces _ => exact (closed spaces).elim

end Spread

private theorem blankToken_isKnown : IsKnown convention blankToken :=
  ⟨.blank, nofun⟩

/-- The raw tokens of a spread stream open and close the same scopes. -/
theorem Legible.leads_raws (legible : Legible convention scopes tokens last)
    (spread : Spread previous tokens raws text) :
    Leads convention (IsKnown convention) (IsCallable convention) scopes raws last := by
  have join {scopes last : List ScopeKind} {raws front : List Token}
      (course : Leads convention (IsKnown convention) (IsCallable convention) scopes front last)
      (same : raws = front ∨ raws = blankToken :: front) :
      Leads convention (IsKnown convention) (IsCallable convention) scopes raws last := by
    rcases same with rfl | rfl
    · exact course
    · exact .plain blankToken_isKnown course
  have afterRow {token : Token} :
      ¬Spaces (some ScopeKind.arrayRow.stopToken) token := fun spaces => spaces.row.2 _ rfl rfl
  have beforeRow {previous : Option Token} :
      ¬Spaces previous (ScopeKind.arrayRow.startToken arrayRowName) :=
    fun spaces => spaces.row.1 rfl
  induction legible generalizing previous raws text with
  | done =>
      cases spread
      exact .done
  | plain held _ ih =>
      obtain ⟨more, _, after, same⟩ := spread.of_cons
      exact join (.plain held.isKnown (ih after)) same
  | argument inside _ ih =>
      obtain ⟨more, _, after, same⟩ := spread.of_cons
      exact join (.argument inside (ih after)) same
  | union outside _ ih =>
      obtain ⟨more, _, after, same⟩ := spread.of_cons
      exact join (.union outside (ih after)) same
  | call named _ ih =>
      obtain ⟨more, _, after, same⟩ := spread.of_cons
      exact join (.call named (ih after)) same
  | group _ ih =>
      obtain ⟨more, _, after, same⟩ := spread.of_cons
      exact join (.group (ih after)) same
  | callEnd _ ih =>
      obtain ⟨more, _, after, same⟩ := spread.of_cons
      exact join (.callEnd (ih after)) same
  | groupEnd _ ih =>
      obtain ⟨more, _, after, same⟩ := spread.of_cons
      exact join (.groupEnd (ih after)) same
  | array _ ih =>
      obtain ⟨_, _, inner, same⟩ := spread.of_cons
      obtain ⟨more, _, after, rfl⟩ := inner.of_cons_tight beforeRow
      exact join (.array (ih after)) same
  | nextRow us _ ih =>
      obtain ⟨_, _, separator, same⟩ := spread.of_cons
      obtain ⟨_, _, inner, rfl⟩ := separator.of_cons_tight afterRow
      obtain ⟨more, _, after, rfl⟩ := inner.of_cons_tight beforeRow
      exact join (.nextRow us (ih after)) same
  | arrayEnd _ ih =>
      obtain ⟨_, _, inner, same⟩ := spread.of_cons
      obtain ⟨more, _, after, rfl⟩ := inner.of_cons_tight afterRow
      exact join (.arrayEnd (ih after)) same

private theorem unresolved_value (token : Token) : token.unresolved.value = token.value := by
  unfold Token.unresolved
  split <;> rfl

/-- An operator comes from an operator or from a minus before a value. -/
theorem kind_of_unresolved {token : Token} (operator : token.unresolved.kind = .infixOperator) :
    token.kind = .infixOperator ∨ token.kind = .prefixOperator := by
  unfold Token.unresolved at operator
  split at operator
  case h_5 kind _ => exact .inr kind
  all_goals exact .inl operator

private theorem IsVisible.raw_eq_of_kind {token : Token} (visible : IsVisible token)
    (plain : token.raw.kind ≠ .blank) : token.raw = token.unresolved := by
  rcases visible.raw_cases with ⟨_, same⟩ | ⟨_, same⟩
  · rw [same] at plain
    exact (plain rfl).elim
  · exact same

/-- Two neighbours of a finished stream that do not join are read as they are. -/
theorem adjoins_raw {left right : Token} {next : Option Token} (leftVisible : IsVisible left)
    (rightVisible : IsVisible right) (link : Links (some left) right next)
    (apart : ¬Joins left right) : Adjoins left.raw right.raw := by
  have leftAlike := leftVisible.alike_raw
  have rightAlike := rightVisible.alike_raw
  obtain ⟨values, texts⟩ := (link.apart left rfl).of_alike leftAlike rightAlike
  refine ⟨⟨values, texts, ?_⟩, ?_⟩
  · intro leftBlank rightBlank
    have isIntersection {token : Token} (visible : IsVisible token)
        (blank : token.raw.kind = .blank) : token = intersection := by
      rcases visible.raw_cases with ⟨same, _⟩ | ⟨_, same⟩
      · exact same
      · rw [same] at blank
        exact (unresolved_kind visible.kind blank).elim
    obtain rfl := isIntersection rightVisible rightBlank
    obtain ⟨⟨_, member, ends⟩, _⟩ := link.intersect rfl
    obtain rfl := Option.some.inj member
    rw [isIntersection leftVisible leftBlank] at ends
    cases ends
  · rintro ⟨operator, fused⟩
    have rightSame := rightVisible.raw_eq_of_kind (by simp [operator])
    rw [rightSame] at operator fused
    rw [unresolved_value] at fused
    rcases fused with ⟨word, awaited, sign⟩ | ⟨first, second, whole, member, pair⟩
    · have leftSame := leftVisible.raw_eq_of_kind (by
        simp only [Token.isWord, Bool.and_eq_true, beq_iff_eq] at word
        simp [word.1.1])
      rw [leftSame, unresolved_value] at awaited
      rw [leftAlike.isWord] at word
      rcases kind_of_unresolved operator with infixKind | prefixKind
      · simp only [Token.isWord, Bool.and_eq_true] at word
        exact apart ⟨infixKind, .inl ⟨word.1.1, Operand.awaitsExponent_iff.mp awaited, sign⟩⟩
      · have alone := link.unary (.inl prefixKind)
        rw [precedesInfixSign, Token.endsValue_of_isWord word] at alone
        cases alone
    · have leftSame := leftVisible.raw_eq_of_kind (by simp [whole])
      have value : left.value = [first] := by
        rw [← unresolved_value, ← leftSame, whole]
      have marks : (first = '<' ∨ first = '>') ∧ (second = '=' ∨ second = '>') := by
        simp only [Scanner.isComparisonPair, Bool.or_eq_true, Bool.and_eq_true, beq_iff_eq] at pair
        rcases pair with ⟨less, joined⟩ | ⟨greater, equals⟩
        · exact ⟨.inl less, joined⟩
        · exact ⟨.inr greater, .inl equals⟩
      have leftKind : left.kind = .infixOperator := by
        rcases kind_of_unresolved (by rw [← leftSame, whole]) with infixKind | prefixKind
        · exact infixKind
        · have minus := leftVisible.minus prefixKind
          rw [value] at minus
          obtain rfl := (List.cons.inj minus).1
          simp at marks
      have rightKind : right.kind = .infixOperator := by
        rcases kind_of_unresolved operator with infixKind | prefixKind
        · exact infixKind
        · rw [rightVisible.minus prefixKind] at member
          obtain rfl : '-' = second := Option.some.inj member
          simp at marks
      refine apart ⟨rightKind, .inr ⟨leftKind, ?_, rightVisible.comparison rightKind second member
        marks.2⟩⟩
      rw [value]
      exact marks.1.imp (by rintro rfl; rfl) (by rintro rfl; rfl)

/-- The neighbours among the raw tokens of a spread stream are read as they are. -/
theorem Spread.isChain_raws (spread : Spread previous tokens raws text)
    (visible : ∀ token ∈ tokens, IsVisible token) (before : ∀ token ∈ previous, IsVisible token)
    (linked : Linked Links previous tokens) :
    raws.IsChain Adjoins ∧ ∀ left ∈ previous, ∀ right ∈ raws.head?, Adjoins left.raw right := by
  induction spread with
  | nil => exact ⟨.nil, fun _ _ => nofun⟩
  | @tight previous token rest raws text apart after ih =>
      obtain ⟨isVisible, restVisible⟩ := List.forall_mem_cons.mp visible
      obtain ⟨link, restLinked⟩ := linked
      obtain ⟨chain, meets⟩ := ih restVisible (by simpa using isVisible) restLinked
      refine ⟨List.isChain_cons.mpr ⟨meets token rfl, chain⟩,
        fun left leftMember right member => ?_⟩
      obtain rfl : token.raw = right := Option.some.inj member
      obtain rfl : previous = some left := leftMember
      exact adjoins_raw (before left rfl) isVisible link (apart left rfl)
  | @spaced previous token rest raws gap text present blank spaces after ih =>
      obtain ⟨isVisible, restVisible⟩ := List.forall_mem_cons.mp visible
      obtain ⟨link, restLinked⟩ := linked
      obtain ⟨chain, meets⟩ := ih restVisible (by simpa using isVisible) restLinked
      have same : token.raw = token.unresolved := if_neg spaces.intersect.1
      refine ⟨.cons_cons ?_ (List.isChain_cons.mpr ⟨meets token rfl, chain⟩),
        fun left leftMember right member => ?_⟩
      · refine ⟨⟨nofun, nofun, fun _ => ?_⟩, ?_⟩
        · rw [same]
          exact unresolved_kind isVisible.kind
        · rintro ⟨_, ⟨word, _⟩ | ⟨_, _, whole, _⟩⟩
          · cases word
          · cases whole
      · obtain rfl : blankToken = right := Option.some.inj member
        refine ⟨abuts_of_not_value rfl fun leftBlank => ?_, fun fused => nomatch fused.1⟩
        have leftSame : left.raw = left.unresolved := if_neg (spaces.intersect.2 left leftMember)
        rw [leftSame] at leftBlank
        exact (unresolved_kind (before left leftMember).kind leftBlank).elim

end SheetFormula
