import SheetFormula.Proofs.Scanner.Sound
import SheetFormula.Token.Stream

/-!
# Finished streams

The three passes over a raw stream leave its scopes alone (`Leads.finishStream`) and settle how its
tokens stand next to each other.  `Links` says what a token of a finished stream can rely on in its
neighbours: a word is not followed by a value and a text not by a text, a sign between two values
has a value before it and a prefix has none, and an intersection stands between two values.
-/

namespace SheetFormula

variable {convention : Convention} {word code : List Char → Prop} {called : List Char → Prop}
  {scopes last : List ScopeKind} {tokens : List Token}

/-- The tokens of a resolved stream that neither open nor close a scope nor separate, among them the
discarded plus. -/
inductive IsResolved (convention : Convention) (word code : List Char → Prop) : Token → Prop where
  | word {text : List Char} (held : word text) :
      IsResolved convention word code ⟨text, .operand, some (Operand.classify convention text)⟩
  | text (content : List Char) : IsResolved convention word code ⟨content, .operand, some .text⟩
  | code {text : List Char} (held : code text) :
      IsResolved convention word code ⟨text, .operand, some .error⟩
  | unknown {text : List Char} (held : word text ∨ text = [';']) :
      IsResolved convention word code ⟨text, .unknown, none⟩
  | sign {c : Char} (sign : IsSign c) : IsResolved convention word code ⟨[c], .infixOperator, none⟩
  | minus : IsResolved convention word code ⟨['-'], .prefixOperator, none⟩
  | plus : IsResolved convention word code ⟨['+'], .discarded, none⟩
  | operator {c : Char} (mark : c ∈ ['*', '/', '^', '&']) :
      IsResolved convention word code ⟨[c], .infixOperator, none⟩
  | comparison {text : List Char} (comparison : text ∈ comparisons) :
      IsResolved convention word code ⟨text, .infixOperator, some .logical⟩
  | percent : IsResolved convention word code ⟨['%'], .postfixOperator, none⟩
  | intersection : IsResolved convention word code intersection

/-- A raw token that is not a blank is resolved to one of a resolved stream. -/
theorem resolveToken_isResolved {token : Token} (raw : IsRaw word code token)
    (visible : token.kind ≠ .blank) (previous : Option Token) :
    IsResolved convention word code (resolveToken convention previous token) := by
  cases raw with
  | word held => exact .word held
  | text content => exact .text content
  | code held => exact .code held
  | unknown held => exact .unknown held
  | blank => exact (visible rfl).elim
  | @operator c mark =>
      simp only [infixCharacters, List.mem_cons, List.not_mem_nil, or_false] at mark
      by_cases precedes : precedesInfixSign previous = true
      · rcases mark with rfl | rfl | rfl | rfl | rfl | rfl | rfl | rfl | rfl <;>
          simp only [resolveToken, precedes, ↓reduceIte]
        · exact .sign (.inl rfl)
        · exact .sign (.inr rfl)
        · exact .operator (by decide)
        · exact .operator (by decide)
        · exact .operator (by decide)
        · exact .operator (by decide)
        · exact .comparison (by decide)
        · exact .comparison (by decide)
        · exact .comparison (by decide)
      · rcases mark with rfl | rfl | rfl | rfl | rfl | rfl | rfl | rfl | rfl <;>
          simp only [resolveToken, precedes, ↓reduceIte]
        · exact .plus
        · exact .minus
        · exact .operator (by decide)
        · exact .operator (by decide)
        · exact .operator (by decide)
        · exact .operator (by decide)
        · exact .comparison (by decide)
        · exact .comparison (by decide)
        · exact .comparison (by decide)
  | @comparison first second pair =>
      simp only [Scanner.isComparisonPair, Bool.or_eq_true, Bool.and_eq_true, beq_iff_eq] at pair
      rcases pair with ⟨rfl, rfl | rfl⟩ | ⟨rfl, rfl⟩
      · exact .comparison (by decide)
      · exact .comparison (by decide)
      · exact .comparison (by decide)
  | percent => exact .percent

/-- A token that is not a blank stays in its place when blanks are resolved. -/
theorem resolveBlanks_cons {token : Token} (visible : token.kind ≠ .blank) (rest : List Token)
    (previous : Option Token) :
    resolveBlanks previous (token :: rest) = token :: resolveBlanks (some token) rest := by
  rw [resolveBlanks, if_neg visible]

/-- Blanks are dropped or become intersections; nothing else changes. -/
theorem Leads.resolveBlanks {plain : Token → Prop}
    (course : Leads convention plain called scopes tokens last) (previous : Option Token) :
    Leads convention (fun token => plain token ∧ token.kind ≠ .blank ∨ token = intersection) called
      scopes (SheetFormula.resolveBlanks previous tokens) last := by
  induction course generalizing previous with
  | done => exact .done
  | @plain _ _ token rest held _ ih =>
      by_cases blank : token.kind = .blank
      · rw [SheetFormula.resolveBlanks, if_pos blank]
        split
        · exact .plain (.inr rfl) (ih _)
        · exact ih _
      · rw [resolveBlanks_cons blank]
        exact .plain (.inl ⟨held, blank⟩) (ih _)
  | argument inside _ ih => exact .argument inside (ih _)
  | union outside _ ih => exact .union outside (ih _)
  | call named _ ih => exact .call named (ih _)
  | group _ ih => exact .group (ih _)
  | callEnd _ ih => exact .callEnd (ih _)
  | groupEnd _ ih => exact .groupEnd (ih _)
  | array _ ih => exact .array (ih _)
  | nextRow us _ ih => exact .nextRow us (ih _)
  | arrayEnd _ ih => exact .arrayEnd (ih _)

private theorem resolveToken_union (previous : Option Token) :
    resolveToken convention previous (unionToken convention.separator) =
      unionToken convention.separator := by
  cases convention <;> rfl

/-- Signs, comparisons and operands are resolved; nothing else changes. -/
theorem Leads.resolveTokens
    (course : Leads convention
      (fun token => IsRaw word code token ∧ token.kind ≠ .blank ∨ token = intersection) called
      scopes tokens last)
    (previous : Option Token) :
    Leads convention (IsResolved convention word code) called scopes
      (SheetFormula.resolveTokens convention previous tokens) last := by
  induction course generalizing previous with
  | done => exact .done
  | @plain _ _ token rest held _ ih =>
      rcases held with ⟨raw, visible⟩ | rfl
      · exact .plain (resolveToken_isResolved raw visible previous) (ih _)
      · exact .plain .intersection (ih _)
  | argument inside _ ih => exact .argument inside (ih _)
  | union outside _ ih =>
      rw [SheetFormula.resolveTokens, resolveToken_union]
      exact .union outside (ih _)
  | call named _ ih => exact .call named (ih _)
  | group _ ih => exact .group (ih _)
  | callEnd _ ih => exact .callEnd (ih _)
  | groupEnd _ ih => exact .groupEnd (ih _)
  | array _ ih => exact .array (ih _)
  | nextRow us _ ih => exact .nextRow us (ih _)
  | arrayEnd _ ih => exact .arrayEnd (ih _)

/-- The tokens of a finished stream that neither open nor close a scope nor separate. -/
def IsFinished (convention : Convention) (word code : List Char → Prop) (token : Token) : Prop :=
  IsResolved convention word code token ∧ token.kind ≠ .discarded

private theorem Leads.filter_discarded
    (course : Leads convention (IsResolved convention word code) called scopes tokens last) :
    Leads convention (IsFinished convention word code) called scopes
      (tokens.filter fun token => token.kind != .discarded) last := by
  induction course with
  | done => exact .done
  | @plain _ _ token rest held _ ih =>
      by_cases discarded : token.kind = .discarded
      · rw [List.filter_cons_of_neg (by simp [discarded])]
        exact ih
      · rw [List.filter_cons_of_pos (by simpa using discarded)]
        exact .plain ⟨held, discarded⟩ ih
  | argument inside _ ih => exact .argument inside ih
  | union outside _ ih => exact .union outside ih
  | call named _ ih => exact .call named ih
  | group _ ih => exact .group ih
  | callEnd _ ih => exact .callEnd ih
  | groupEnd _ ih => exact .groupEnd ih
  | array _ ih => exact .array ih
  | nextRow us _ ih => exact .nextRow us ih
  | arrayEnd _ ih => exact .arrayEnd ih

/-- Finishing a stream leaves its scopes alone. -/
theorem Leads.finishStream (course : Leads convention (IsRaw word code) called scopes tokens last) :
    Leads convention (IsFinished convention word code) called scopes
      (SheetFormula.finishStream convention tokens) last :=
  ((course.resolveBlanks none).resolveTokens none).filter_discarded

/-- Each token of the stream stands in the relation to the tokens before and after it. -/
def Linked (link : Option Token → Token → Option Token → Prop) : Option Token → List Token → Prop
  | _, [] => True
  | previous, token :: rest => link previous token rest.head? ∧ Linked link (some token) rest

/-- The second token cannot be read as part of the first one, or as a value of its own after it. -/
def KeepsApart (left right : Token) : Prop :=
  (left.isWord = true → right.beginsValue = false) ∧ (left.isText = true → right.isText = false)

/-- What a token relies on in its neighbours once the blanks are resolved. -/
structure LinksBlankless (previous : Option Token) (token : Token) (next : Option Token) :
    Prop where
  sort : token.kind ≠ .blank ∧ token.kind ≠ .prefixOperator ∧ token.kind ≠ .discarded
  unscoped : token.kind = .infixOperator → token.isStart = false ∧ token.isStop = false
  apart : ∀ left ∈ previous, KeepsApart left token
  intersect : token.role = some .intersect →
    (∃ left ∈ previous, left.endsValue = true) ∧ ∃ right ∈ next, right.beginsValue = true

/-- What a token relies on in its neighbours. -/
structure Links (previous : Option Token) (token : Token) (next : Option Token) : Prop where
  inert : token.kind = .discarded → token.endsValue = false ∧ token.beginsValue = false
  apart : ∀ left ∈ previous, KeepsApart left token
  intersect : token.role = some .intersect →
    (∃ left ∈ previous, left.endsValue = true) ∧ ∃ right ∈ next, right.beginsValue = true
  sign : token.kind = .infixOperator → token.value = ['+'] ∨ token.value = ['-'] →
    precedesInfixSign previous = true
  unary : token.kind = .prefixOperator ∨ token.kind = .discarded →
    precedesInfixSign previous = false

private theorem KeepsApart.of_not_endsValue {left right : Token} (inert : left.endsValue = false) :
    KeepsApart left right := by
  refine ⟨fun word => ?_, fun text => ?_⟩
  · rw [Token.endsValue_of_isWord word] at inert
    cases inert
  · rw [Token.endsValue_of_isText text] at inert
    cases inert

private theorem KeepsApart.of_not_beginsValue {left right : Token}
    (inert : right.beginsValue = false) : KeepsApart left right := by
  refine ⟨fun _ => inert, fun _ => ?_⟩
  by_contra text
  rw [Token.beginsValue_of_isText (by simpa using text)] at inert
  cases inert

private theorem Abuts.keepsApart {left right : Token} (abuts : Abuts left right) :
    KeepsApart left right :=
  ⟨abuts.1, abuts.2.1⟩

/-- A token that is there before its neighbours are looked at. -/
structure IsRough (token : Token) : Prop where
  sort : token.kind ≠ .prefixOperator ∧ token.kind ≠ .discarded
  unscoped : token.kind = .infixOperator → token.isStart = false ∧ token.isStop = false
  plain : token.role ≠ some .intersect

private theorem Leads.isRough
    (course : Leads convention (IsRaw word code) called scopes tokens last) :
    ∀ token ∈ tokens, IsRough token := by
  refine course.forall_mem ?_ ?_ ?_ ?_
  · intro token raw
    cases raw <;> exact ⟨⟨nofun, nofun⟩, fun _ => ⟨rfl, rfl⟩, nofun⟩
  · intro c _
    exact ⟨⟨⟨nofun, nofun⟩, nofun, nofun⟩, ⟨⟨nofun, nofun⟩, fun _ => ⟨rfl, rfl⟩, nofun⟩⟩
  · intro kind name
    cases kind <;> exact ⟨⟨nofun, nofun⟩, nofun, nofun⟩
  · intro kind
    cases kind <;> exact ⟨⟨nofun, nofun⟩, nofun, nofun⟩

/-- Resolving the blanks of a stream.  The token kept last is the previous one unless that is a
blank, and then it is not a value with another value right after it. -/
theorem linked_resolveBlanks {previous kept : Option Token} (chain : tokens.IsChain Abuts)
    (rough : ∀ token ∈ tokens, IsRough token)
    (apart : ∀ left ∈ kept, ∀ right ∈ tokens.head?, KeepsApart left right)
    (settled : ∀ token ∈ tokens.head?, token.kind = .blank → kept = previous) :
    Linked LinksBlankless kept (resolveBlanks previous tokens) := by
  induction tokens generalizing previous kept with
  | nil => trivial
  | cons token rest ih =>
      have restChain : rest.IsChain Abuts := chain.tail
      have restRough : ∀ token ∈ rest, IsRough token := fun other member =>
        rough other (List.mem_cons_of_mem _ member)
      have follows : ∀ right ∈ rest.head?, Abuts token right := (List.isChain_cons.mp chain).1
      by_cases blank : token.kind = .blank
      · obtain rfl := settled token rfl blank
        have restSettled {other : Option Token} : ∀ next ∈ rest.head?, next.kind = .blank →
            other = some token := fun next member nextBlank =>
          ((follows next member).2.2 blank nextBlank).elim
        rw [resolveBlanks, if_pos blank]
        cases meets : intersects kept rest.head? with
        | true =>
            rw [if_pos rfl]
            cases kept with
            | none => simp [intersects] at meets
            | some left =>
                cases rest with
                | nil => simp [intersects] at meets
                | cons next rest =>
                    simp only [intersects, List.head?_cons, Bool.and_eq_true] at meets
                    have nextVisible : next.kind ≠ .blank := (follows next rfl).2.2 blank
                    refine ⟨⟨⟨nofun, nofun, nofun⟩, fun _ => ⟨rfl, rfl⟩, ?_, ?_⟩, ?_⟩
                    · intro other _
                      exact .of_not_beginsValue rfl
                    · intro _
                      rw [resolveBlanks_cons nextVisible]
                      exact ⟨⟨left, rfl, meets.1⟩, ⟨next, rfl, meets.2⟩⟩
                    · refine ih restChain restRough ?_ restSettled
                      intro other member right _
                      obtain rfl : _ = other := Option.some.inj member
                      exact .of_not_endsValue rfl
        | false =>
            rw [if_neg (by simp)]
            refine ih restChain restRough ?_ restSettled
            intro left leftMember right rightMember
            cases kept with
            | none => cases leftMember
            | some previous =>
                obtain rfl : previous = left := Option.some.inj leftMember
                cases rest with
                | nil => cases rightMember
                | cons next rest =>
                    obtain rfl : next = right := Option.some.inj rightMember
                    simp only [intersects, List.head?_cons, Bool.and_eq_false_iff] at meets
                    rcases meets with ends | begins
                    · exact .of_not_endsValue ends
                    · exact .of_not_beginsValue begins
      · rw [resolveBlanks_cons blank]
        have tokenRough := rough token (List.mem_cons_self ..)
        refine ⟨⟨⟨blank, tokenRough.sort⟩, tokenRough.unscoped, ?_, ?_⟩, ?_⟩
        · exact fun left member => apart left member token rfl
        · exact fun role => (tokenRough.plain role).elim
        · refine ih restChain restRough ?_ (fun _ _ _ => rfl)
          intro left leftMember right rightMember
          obtain rfl : token = left := Option.some.inj leftMember
          exact (follows right rightMember).keepsApart

/-- The two tokens are the same as far as values and intersections are concerned. -/
structure Alike (token other : Token) : Prop where
  isWord : other.isWord = token.isWord
  isText : other.isText = token.isText
  endsValue : other.endsValue = token.endsValue
  beginsValue : other.beginsValue = token.beginsValue
  intersect : other.role = some .intersect → token.role = some .intersect

/-- A word is a number, a logical value or a range. -/
theorem classify_cases (convention : Convention) (text : List Char) :
    Operand.classify convention text = .number ∨ Operand.classify convention text = .logical ∨
      Operand.classify convention text = .range := by
  unfold Operand.classify
  split
  · exact .inl rfl
  · split
    · exact .inr (.inl rfl)
    · exact .inr (.inr rfl)

/-- A resolved token is alike to the token that it comes from. -/
theorem alike_resolveToken (convention : Convention) (previous : Option Token) (token : Token) :
    Alike token (resolveToken convention previous token) := by
  obtain ⟨value, kind, role⟩ := token
  unfold resolveToken
  by_cases operator : kind = .infixOperator
  · subst operator
    rw [if_pos rfl]
    split
    · split
      · exact ⟨rfl, rfl, rfl, rfl, id⟩
      · split <;> exact ⟨rfl, rfl, rfl, rfl, id⟩
    · split
      · rename_i comparison
        obtain ⟨rfl, _⟩ := comparison
        exact ⟨rfl, rfl, rfl, rfl, nofun⟩
      · exact ⟨rfl, rfl, rfl, rfl, id⟩
  · rw [if_neg operator]
    split
    · rename_i untyped
      obtain ⟨rfl, rfl⟩ := untyped
      rcases classify_cases convention value with sort | sort | sort <;>
        rw [sort] <;> exact ⟨rfl, rfl, rfl, rfl, nofun⟩
    · exact ⟨rfl, rfl, rfl, rfl, id⟩

/-- Tokens that are alike to two others keep apart as these do. -/
theorem KeepsApart.of_alike {left right left' right' : Token} (apart : KeepsApart left right)
    (first : Alike left left') (second : Alike right right') : KeepsApart left' right' := by
  rw [KeepsApart, first.isWord, first.isText, second.beginsValue, second.isText]
  exact apart

/-- A token only becomes a prefix or is discarded where it has no value before it. -/
theorem unary_of_resolveToken {previous : Option Token} {token : Token}
    (sort : token.kind ≠ .prefixOperator ∧ token.kind ≠ .discarded)
    (unary : (resolveToken convention previous token).kind = .prefixOperator ∨
      (resolveToken convention previous token).kind = .discarded) :
    token.kind = .infixOperator ∧ precedesInfixSign previous = false := by
  have other (same : (resolveToken convention previous token).kind = token.kind) : False := by
    rw [same] at unary
    exact unary.elim sort.1 sort.2
  by_cases operator : token.kind = .infixOperator
  · refine ⟨operator, ?_⟩
    by_contra precedes
    refine other ?_
    rw [resolveToken, if_pos operator, if_pos (show precedesInfixSign previous = true by simpa
      using precedes)]
    split
    · rfl
    · split <;> rfl
  · refine (other ?_).elim
    rw [resolveToken, if_neg operator]
    split <;> rfl

/-- A sign only stays between two values where it has one before it. -/
theorem sign_of_resolveToken {previous : Option Token} {token : Token}
    (operator : (resolveToken convention previous token).kind = .infixOperator)
    (sign : (resolveToken convention previous token).value = ['+'] ∨
      (resolveToken convention previous token).value = ['-']) :
    precedesInfixSign previous = true := by
  by_contra alone
  have kind : token.kind = .infixOperator := by
    by_contra other
    rw [resolveToken, if_neg other] at operator
    split at operator <;> exact other operator
  have value : (resolveToken convention previous token).value = token.value := by
    unfold resolveToken
    split_ifs <;> rfl
  rw [value] at sign
  rw [resolveToken, if_pos kind, if_pos sign, if_neg alone] at operator
  dsimp only at operator
  split at operator <;> cases operator

/-- Resolving signs and operands of a stream. -/
theorem linked_resolveTokens {previous resolved : Option Token}
    (linked : Linked LinksBlankless previous tokens) (alike : Option.Rel Alike previous resolved) :
    Linked Links resolved (resolveTokens convention resolved tokens) := by
  induction tokens generalizing previous resolved with
  | nil => trivial
  | cons token rest ih =>
      obtain ⟨link, restLinked⟩ := linked
      have same := alike_resolveToken convention resolved token
      refine ⟨⟨?_, ?_, ?_, ?_, ?_⟩, ih restLinked (.some same)⟩
      · intro discarded
        have operator := (unary_of_resolveToken link.sort.2 (.inr discarded)).1
        obtain ⟨start, stop⟩ := link.unscoped operator
        have plain : token.isOperand = false := by simp [Token.isOperand, operator]
        rw [same.endsValue, same.beginsValue, Token.endsValue, Token.beginsValue, plain, start,
          stop]
        exact ⟨rfl, rfl⟩
      · intro left member
        cases alike with
        | none => cases member
        | some first =>
            obtain rfl := Option.some.inj member
            exact (link.apart _ rfl).of_alike first same
      · intro intersect
        obtain ⟨⟨left, leftMember, ends⟩, right, rightMember, begins⟩ :=
          link.intersect (same.intersect intersect)
        refine ⟨?_, ?_⟩
        · cases alike with
          | none => cases leftMember
          | some first =>
              obtain rfl := Option.some.inj leftMember
              exact ⟨_, rfl, first.endsValue.trans ends⟩
        · cases rest with
          | nil => cases rightMember
          | cons next rest =>
              obtain rfl := Option.some.inj rightMember
              exact ⟨_, rfl, (alike_resolveToken _ _ _).beginsValue.trans begins⟩
      · exact sign_of_resolveToken
      · exact fun unary => (unary_of_resolveToken link.sort.2 unary).2

/-- Dropping the discarded tokens of a stream.  The token kept last is the previous one, or neither
of the two has a sign between values after it. -/
theorem linked_filter_discarded {previous kept : Option Token}
    (linked : Linked Links previous tokens)
    (same : kept = previous ∨ precedesInfixSign kept = false ∧ precedesInfixSign previous = false) :
    Linked Links kept (tokens.filter fun token => token.kind != .discarded) := by
  induction tokens generalizing previous kept with
  | nil => trivial
  | cons token rest ih =>
      obtain ⟨link, restLinked⟩ := linked
      by_cases discarded : token.kind = .discarded
      · rw [List.filter_cons_of_neg (by simp [discarded])]
        refine ih restLinked (.inr ⟨?_, ?_⟩)
        · rcases same with rfl | ⟨unsigned, _⟩
          · exact link.unary (.inr discarded)
          · exact unsigned
        · simp [precedesInfixSign, (link.inert discarded).1, discarded]
      · rw [List.filter_cons_of_pos (by simpa using discarded)]
        refine ⟨⟨fun dropped => (discarded dropped).elim, ?_, ?_, ?_, ?_⟩, ih restLinked (.inl rfl)⟩
        · rcases same with rfl | ⟨unsigned, _⟩
          · exact link.apart
          · intro left member
            obtain rfl : kept = some left := member
            simp only [precedesInfixSign, Bool.or_eq_false_iff] at unsigned
            exact .of_not_endsValue unsigned.1
        · intro intersect
          obtain ⟨⟨left, leftMember, ends⟩, right, rightMember, begins⟩ := link.intersect intersect
          refine ⟨?_, ?_⟩
          · rcases same with rfl | ⟨_, unsigned⟩
            · exact ⟨left, leftMember, ends⟩
            · obtain rfl : previous = some left := leftMember
              simp [precedesInfixSign, ends] at unsigned
          · cases rest with
            | nil => cases rightMember
            | cons next rest =>
                obtain rfl : next = right := Option.some.inj rightMember
                have visible : next.kind ≠ .discarded := by
                  intro dropped
                  rw [(restLinked.1.inert dropped).2] at begins
                  cases begins
                rw [List.filter_cons_of_pos (by simpa using visible)]
                exact ⟨next, rfl, begins⟩
        · intro operator sign
          have precedes := link.sign operator sign
          rcases same with rfl | ⟨_, unsigned⟩
          · exact precedes
          · rw [unsigned] at precedes
            cases precedes
        · intro unary
          rcases same with rfl | ⟨unsigned, _⟩
          · exact link.unary unary
          · exact unsigned

/-- The neighbours in a finished stream. -/
theorem StreamOf.linked_finishStream
    (stream : StreamOf convention (IsRaw word code) called tokens scopes) :
    Linked Links none (SheetFormula.finishStream convention tokens) := by
  have blankless : Linked LinksBlankless none (SheetFormula.resolveBlanks none tokens) :=
    linked_resolveBlanks stream.apart stream.leads.isRough nofun fun _ _ _ => rfl
  exact linked_filter_discarded (linked_resolveTokens blankless .none) (.inl rfl)

/-- Resolving a token keeps its text. -/
theorem resolveToken_value (convention : Convention) (previous : Option Token) (token : Token) :
    (resolveToken convention previous token).value = token.value := by
  unfold resolveToken
  split
  · split
    · split <;> rfl
    · split <;> rfl
  · split <;> rfl

section Seen

variable {α : Type} {see : Token → Option α}

/-- What is seen of the token stays the same while a stream that holds it is finished. -/
structure Survives (convention : Convention) (see : Token → Option α) (token : Token) : Prop where
  blank : token.kind = .blank → see token = none
  resolved : ∀ previous, see (resolveToken convention previous token) = see token
  discarded : ∀ previous, (resolveToken convention previous token).kind = .discarded →
    see token = none

private theorem seen_resolveBlanks (hidden : see intersection = none)
    (blank : ∀ token ∈ tokens, token.kind = .blank → see token = none) (previous : Option Token) :
    (resolveBlanks previous tokens).filterMap see = tokens.filterMap see := by
  induction tokens generalizing previous with
  | nil => rfl
  | cons token rest ih =>
      obtain ⟨own, others⟩ := List.forall_mem_cons.mp blank
      rw [resolveBlanks]
      split
      · rename_i isBlank
        rw [List.filterMap_cons_none (own isBlank)]
        split
        · rw [List.filterMap_cons_none hidden, ih others]
        · exact ih others _
      · rw [List.filterMap_cons, List.filterMap_cons, ih others]

private theorem mem_resolveBlanks {token : Token} {previous : Option Token}
    (member : token ∈ resolveBlanks previous tokens) : token ∈ tokens ∨ token = intersection := by
  induction tokens generalizing previous with
  | nil => cases member
  | cons first rest ih =>
      rw [resolveBlanks] at member
      split at member
      · split at member
        · rcases List.mem_cons.mp member with rfl | later
          · exact .inr rfl
          · exact (ih later).imp_left (List.mem_cons_of_mem _)
        · exact (ih member).imp_left (List.mem_cons_of_mem _)
      · rcases List.mem_cons.mp member with rfl | later
        · exact .inl List.mem_cons_self
        · exact (ih later).imp_left (List.mem_cons_of_mem _)

private theorem seen_resolveTokens (survives : ∀ token ∈ tokens, Survives convention see token)
    (previous : Option Token) :
    ((resolveTokens convention previous tokens).filter fun token =>
      token.kind != .discarded).filterMap see = tokens.filterMap see := by
  induction tokens generalizing previous with
  | nil => rfl
  | cons token rest ih =>
      obtain ⟨own, others⟩ := List.forall_mem_cons.mp survives
      rw [resolveTokens, List.filter_cons]
      split
      · rw [List.filterMap_cons, List.filterMap_cons, own.resolved, ih others]
      · rename_i dropped
        rw [List.filterMap_cons_none (own.discarded previous (by simpa using dropped)), ih others]

/-- What is seen of a stream is the same before and after it is finished, if it is so for each of
its tokens and intersections are not seen. -/
theorem seen_finishStream (hidden : see intersection = none)
    (survives : ∀ token ∈ tokens, Survives convention see token) :
    (finishStream convention tokens).filterMap see = tokens.filterMap see := by
  have unblanked : ∀ token ∈ resolveBlanks none tokens, Survives convention see token := by
    intro token member
    rcases mem_resolveBlanks member with raw | rfl
    · exact survives token raw
    · exact ⟨nofun, fun _ => rfl, fun _ => nofun⟩
  rw [finishStream, seen_resolveTokens unblanked,
    seen_resolveBlanks hidden fun token member => (survives token member).blank]

end Seen

section Ends

/-- A stream that begins with the boundary of a function begins with it when it is finished. -/
theorem head?_finishStream {first : Token} (function : first.kind = .function) :
    (finishStream convention (first :: tokens)).head? = some first := by
  have resolved : resolveToken convention none first = first := by
    simp [resolveToken, function]
  rw [finishStream, resolveBlanks, if_neg (by simp [function]), resolveTokens, resolved,
    List.filter_cons_of_pos (by simp [function])]
  rfl

private theorem resolveBlanks_concat {last : Token} (visible : last.kind ≠ .blank)
    (previous : Option Token) :
    ∃ front, resolveBlanks previous (tokens ++ [last]) = front ++ [last] := by
  induction tokens generalizing previous with
  | nil => exact ⟨[], by simp [resolveBlanks, visible]⟩
  | cons token rest ih =>
      obtain ⟨front, resolved⟩ := ih (some token)
      rw [List.cons_append, resolveBlanks, resolved]
      split
      · split
        · exact ⟨intersection :: front, rfl⟩
        · exact ⟨front, rfl⟩
      · exact ⟨token :: front, rfl⟩

private theorem resolveTokens_concat (last : Token) (previous : Option Token) :
    ∃ front before, resolveTokens convention previous (tokens ++ [last]) =
      front ++ [resolveToken convention before last] := by
  induction tokens generalizing previous with
  | nil => exact ⟨[], previous, rfl⟩
  | cons token rest ih =>
      obtain ⟨front, before, resolved⟩ := ih (some (resolveToken convention previous token))
      exact ⟨_ :: front, before, congrArg (_ :: ·) resolved⟩

/-- A stream that ends with the stop of a scope ends with it when it is finished. -/
theorem getLast?_finishStream (kind : ScopeKind) :
    (finishStream convention (tokens ++ [kind.stopToken])).getLast? = some kind.stopToken := by
  have resolved (before : Option Token) :
      resolveToken convention before kind.stopToken = kind.stopToken := by cases kind <;> rfl
  obtain ⟨front, blankless⟩ := @resolveBlanks_concat tokens _ kind.stopToken_not_blank none
  obtain ⟨earlier, before, finished⟩ := @resolveTokens_concat convention front kind.stopToken none
  rw [finishStream, blankless, finished, resolved, List.filter_append,
    List.filter_cons_of_pos (by cases kind <;> rfl)]
  exact List.getLast?_concat

end Ends

/-- The tokens of a formula are those that scanning it leaves, after they are finished. -/
theorem tokenize_eq_ok {formula : List Char} :
    tokenize convention formula = .ok tokens ↔
      ∃ scanner, scanFormula convention formula = .ok scanner ∧
        finishStream convention scanner.finish.toList = tokens := by
  simp only [tokenize, bind_eq_ok, pure_eq_ok]

end SheetFormula
