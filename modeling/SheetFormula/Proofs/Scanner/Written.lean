import SheetFormula.Proofs.Scanner.Boundary
import SheetFormula.Render
import SheetFormula.Template.Preset

/-!
# Scanning what was written

`Writes` says that a text spells out a stream of raw tokens, with any run of blanks for a blank
token.  If no two neighbours would be read as one, the scanner takes the text apart into exactly
these tokens (`Leads.run_writes`).
-/

namespace SheetFormula

/-- The text of a token in the style without optional blanks. -/
def Token.spelled (token : Token) : List Char :=
  (TemplateSet.inlineTemplate (.of token none)).apply
    (TemplateSet.minify.tokenText (.of token none) token) [] []

/-- The text spells out the raw tokens, with at least one blank for each blank token. -/
inductive Writes : List Token → List Char → Prop where
  | nil : Writes [] []
  | token {token : Token} {rest : List Token} {text : List Char} (visible : token.kind ≠ .blank)
      (after : Writes rest text) : Writes (token :: rest) (token.spelled ++ text)
  | blank {gap : List Char} {rest : List Token} {text : List Char} (present : gap ≠ [])
      (blank : ∀ c ∈ gap, Text.isBlank c = true) (after : Writes rest text) :
      Writes (⟨[' '], .blank, none⟩ :: rest) (gap ++ text)

variable {convention : Convention}

/-- The bare template writes the text alone. -/
theorem bare_apply (text : List Char) : Template.bare.apply text [] [] = text := by
  simp [Template.bare, Template.wrap, Template.apply, Template.optional]

namespace Token

/-- A token without a frame of its own is spelled as its value. -/
theorem spelled_bare {token : Token}
    (bare : TemplateSet.inlineTemplate (.of token none) = Template.bare) :
    token.spelled = token.value := by
  have outside : RenderCase.of token none ≠ .operandText := by
    intro quoted
    rw [quoted] at bare
    cases bare
  rw [spelled, bare, bare_apply, TemplateSet.tokenText, if_neg outside]
  rfl

/-- A text is spelled between quotes, with its own quotes doubled. -/
theorem spelled_text (content : List Char) :
    (⟨content, .operand, some .text⟩ : Token).spelled =
      '"' :: (Text.doubleQuotes content ++ ['"']) := by
  simp [spelled, RenderCase.of, RenderCase.ofOperand, TemplateSet.inlineTemplate,
    Template.wrap, Template.apply, Template.optional, TemplateSet.tokenText, TemplateSet.minify,
    Text.Escape.apply]

/-- The start of a call is spelled as its name and a parenthesis, unless the name is reserved. -/
theorem spelled_call {name : List Char} (array : name ≠ arrayName) (row : name ≠ arrayRowName) :
    (ScopeKind.function.startToken name).spelled = name ++ ['('] := by
  simp [spelled, RenderCase.of, RenderCase.ofFunctionStart, array, row, ScopeKind.startToken,
    ScopeKind.tokenKind, TemplateSet.inlineTemplate, Template.wrap, Template.apply,
    Template.optional, TemplateSet.tokenText, TemplateSet.minify, Text.Escape.apply]

end Token

/-- The raw token has a meaning, and its words and error codes are complete. -/
def IsKnown (convention : Convention) (token : Token) : Prop :=
  IsRaw (IsWord convention) (· ∈ errorCodes) token ∧ token.kind ≠ .unknown

/-- The name can be called and is not taken for an array or a row of one. -/
def IsCallable (convention : Convention) (name : List Char) : Prop :=
  IsWord convention name ∧ name ≠ arrayName ∧ name ≠ arrayRowName

/-- The second token would be read as a part of the first one: as the sign of its exponent, or as
the second character of a comparison. -/
def Fuses (left right : Token) : Prop :=
  right.kind = .infixOperator ∧
    (left.isWord = true ∧ Operand.awaitsExponent left.value = true ∧
        (right.value = ['+'] ∨ right.value = ['-']) ∨
      ∃ first second, left = ⟨[first], .infixOperator, none⟩ ∧ second ∈ right.value.head? ∧
        Scanner.isComparisonPair first second = true)

/-- The two tokens are read as they are with nothing between them. -/
def Adjoins (left right : Token) : Prop :=
  Abuts left right ∧ ¬Fuses left right

variable {left right : Token} {c : Char}

/-- A mark that is neither a blank nor an operator nor the quote of a text. -/
theorem Token.Parts.of_mark (mark : c ∈ ['#', '\x7b', '\x7d', '%', '(', ')', ';', ',', '\'', '['])
    (word : left.isWord = true → Terminates convention c) : left.Parts convention c := by
  have plain : ¬IsSign c ∧ c ≠ '"' ∧ Text.isBlank c = false ∧ c ≠ '=' ∧ c ≠ '>' := by
    simp only [List.mem_cons, List.not_mem_nil, or_false] at mark
    rcases mark with rfl | rfl | rfl | rfl | rfl | rfl | rfl | rfl | rfl | rfl <;>
      simp [IsSign, Text.isBlank]
  obtain ⟨unsigned, quote, visible, equals, greater⟩ := plain
  refine ⟨fun isWord => ⟨word isWord, fun both => unsigned both.1⟩, fun _ => quote,
    fun _ => visible, fun first _ => ?_⟩
  simp [Scanner.isComparisonPair, equals, greater]

/-- The first character of a word or a called name. -/
theorem Token.Parts.of_word {text : List Char} (word : IsWord convention text)
    (value : left.isWord = false) : ∀ c ∈ text.head?, left.Parts convention c := by
  intro c member
  obtain ⟨_, reading, _, gathered⟩ := word
  have first := gathered.first_character c (by rwa [List.getLast?_reverse])
  rcases first with ordinary | quote | bracket
  · have plain (mark : Char) (isMark : mark ∈ markCharacters) : c ≠ mark := by
      rintro rfl
      exact ordinary.not_mark isMark
    refine ⟨by simp [value], fun _ => plain '"' (by decide), fun _ => ordinary.not_blank,
      fun first _ => ?_⟩
    simp [Scanner.isComparisonPair, plain '=' (by decide), plain '>' (by decide)]
  · exact .of_mark (by simp [quote]) (by simp [value])
  · exact .of_mark (by simp [bracket]) (by simp [value])

/-- The first character of a token parts from the token before it, if the two may adjoin. -/
private theorem IsKnown.head_parts (known : IsKnown convention right)
    (visible : right.kind ≠ .blank) (adjoins : Adjoins left right) :
    ∀ c ∈ right.spelled.head?, left.Parts convention c := by
  obtain ⟨⟨values, texts, _⟩, apart⟩ := adjoins
  obtain ⟨raw, unknown⟩ := known
  have value (begins : right.beginsValue = true) : left.isWord = false := by
    by_contra word
    rw [values (by simpa using word)] at begins
    cases begins
  cases raw with
  | word held =>
      rw [Token.spelled_bare rfl]
      exact .of_word held (value rfl)
  | text content =>
      rw [Token.spelled_text]
      intro c member
      obtain rfl : '"' = c := Option.some.inj member
      have wordless := value rfl
      have textless : left.isText = false := by
        by_contra isText
        cases texts (by simpa using isText)
      exact ⟨by simp [wordless], by simp [textless], fun _ => rfl,
        fun first _ => by simp [Scanner.isComparisonPair]⟩
  | code held =>
      rw [Token.spelled_bare rfl]
      intro c member
      have mark : c = '#' := by
        simp only [errorCodes, List.mem_cons, List.not_mem_nil, or_false] at held
        rcases held with rfl | rfl | rfl | rfl | rfl | rfl | rfl | rfl | rfl | rfl <;>
          exact (Option.some.inj member).symm
      exact .of_mark (by simp [mark]) (by simp [value rfl])
  | unknown _ => exact (unknown rfl).elim
  | blank => exact (visible rfl).elim
  | @operator mark isMark =>
      intro c member
      obtain rfl : mark = c := Option.some.inj member
      have plain : mark ≠ '"' ∧ Text.isBlank mark = false := by
        constructor
        · rintro rfl
          simp [infixCharacters] at isMark
        · simp only [infixCharacters, List.mem_cons, List.not_mem_nil, or_false] at isMark
          rcases isMark with rfl | rfl | rfl | rfl | rfl | rfl | rfl | rfl | rfl <;> rfl
      refine ⟨fun isWord =>
          ⟨.inr (.inl isMark), fun both => apart ⟨rfl, .inl ⟨isWord, both.2, ?_⟩⟩⟩,
        fun _ => plain.1, fun _ => plain.2, fun first same => ?_⟩
      · exact both.1.imp (by rintro rfl; rfl) (by rintro rfl; rfl)
      · by_contra pair
        exact apart ⟨rfl, .inr ⟨first, mark, same, rfl, by simpa using pair⟩⟩
  | @comparison mark second pair =>
      intro c member
      obtain rfl : mark = c := Option.some.inj member
      have plain : (mark = '<' ∨ mark = '>') := by
        simp only [Scanner.isComparisonPair, Bool.or_eq_true, Bool.and_eq_true, beq_iff_eq] at pair
        exact pair.imp (·.1) (·.1)
      refine ⟨fun _ => ⟨.inr (.inl ?_), fun both => ?_⟩, fun _ => ?_, fun _ => ?_,
        fun first same => ?_⟩
      · rcases plain with rfl | rfl <;> decide
      · rcases plain with rfl | rfl <;> rcases both.1 with sign | sign <;> cases sign
      · rcases plain with rfl | rfl <;> decide
      · rcases plain with rfl | rfl <;> rfl
      · by_contra joined
        exact apart ⟨rfl, .inr ⟨first, mark, same, rfl, by simpa using joined⟩⟩
  | percent =>
      intro c member
      obtain rfl : '%' = c := Option.some.inj member
      exact .of_mark (by simp) fun _ => .inr (.inr (.inl (by simp)))

private theorem Writes.blank_head {gap : List Char} (blank : ∀ c ∈ gap, Text.isBlank c = true)
    (visible : left.kind ≠ .blank) : ∀ c ∈ gap.head?, left.Parts convention c := by
  intro c member
  have isBlank := blank c (List.mem_of_mem_head? member)
  have other (mark : Char) (isVisible : Text.isBlank mark = false) : c ≠ mark := by
    rintro rfl
    rw [isBlank] at isVisible
    cases isVisible
  refine ⟨fun _ => ⟨.inl isBlank, fun both => ?_⟩, fun _ => other '"' rfl,
    fun blank => (visible blank).elim, fun first _ => ?_⟩
  · exact both.1.elim (other '+' rfl) (other '-' rfl)
  · simp [Scanner.isComparisonPair, other '=' rfl, other '>' rfl]

private theorem IsKnown.spelled_ne_nil (known : IsKnown convention right) : right.spelled ≠ [] := by
  obtain ⟨raw, unknown⟩ := known
  cases raw with
  | word held =>
      rw [Token.spelled_bare rfl]
      exact held.1
  | text content =>
      rw [Token.spelled_text]
      exact List.cons_ne_nil _ _
  | code held =>
      rw [Token.spelled_bare rfl]
      rintro rfl
      exact absurd held (by decide)
  | unknown _ => exact (unknown rfl).elim
  | _ => exact List.cons_ne_nil _ _

private theorem head?_append_of_ne_nil {first second : List Char} (present : first ≠ []) :
    (first ++ second).head? = first.head? := by
  cases first with
  | nil => exact (present rfl).elim
  | cons c rest => rfl

/-- A text that spells out tokens begins with the first one, unless this is a blank. -/
theorem Writes.of_cons {token : Token} {rest : List Token} {text : List Char}
    (writes : Writes (token :: rest) text) (visible : (token.kind != .blank) = true) :
    ∃ more, Writes rest more ∧ text = token.spelled ++ more := by
  generalize same : token :: rest = tokens at writes
  cases writes with
  | nil => cases same
  | token _ after =>
      cases same
      exact ⟨_, after, rfl⟩
  | blank _ _ _ =>
      cases same
      cases visible

/-- The first character of a text does not add to a token before it. -/
theorem Leads.head_parts {scopes last : List ScopeKind} {tokens : List Token} {text : List Char}
    (course : Leads convention (IsKnown convention) (IsCallable convention) scopes tokens last)
    (writes : Writes tokens text) (adjoins : ∀ right ∈ tokens.head?, Adjoins left right) :
    ∀ c ∈ text.head?, left.Parts convention c := by
  have start {kind : ScopeKind} {name : List Char} {rest : List Token}
      (adjoins : ∀ right ∈ (kind.startToken name :: rest).head?, Adjoins left right) :
      left.isWord = false := by
    by_contra word
    have inert := (adjoins _ rfl).1.1 (by simpa using word)
    cases kind <;> cases inert
  have separator : left.Parts convention convention.separator :=
    .of_mark (by cases convention <;> simp [Convention.separator]) fun _ => .inr (.inr (.inr rfl))
  have closing {c : Char} (mark : c ∈ ['%', ')', '\x7d', ';']) : left.Parts convention c :=
    .of_mark (by
      simp only [List.mem_cons, List.not_mem_nil, or_false] at mark
      rcases mark with rfl | rfl | rfl | rfl <;> simp) fun _ => .inr (.inr (.inl mark))
  have single {mark : Char} {rest : List Char} (parts : left.Parts convention mark) :
      ∀ c ∈ (mark :: rest).head?, left.Parts convention c := by
    intro c member
    exact Option.some.inj member ▸ parts
  cases course with
  | done =>
      cases writes
      intro c member
      cases member
  | plain known _ =>
      cases writes with
      | token visible _ =>
          rw [head?_append_of_ne_nil known.spelled_ne_nil]
          exact known.head_parts visible (adjoins _ rfl)
      | blank present blank _ =>
          rw [head?_append_of_ne_nil present]
          exact Writes.blank_head blank fun isBlank => (adjoins _ rfl).1.2.2 isBlank rfl
  | argument _ _ =>
      obtain ⟨more, _, rfl⟩ := writes.of_cons rfl
      exact @single convention.separator more separator
  | union _ _ =>
      obtain ⟨more, _, rfl⟩ := writes.of_cons rfl
      exact @single convention.separator more separator
  | call named _ =>
      obtain ⟨more, _, rfl⟩ := writes.of_cons rfl
      rw [Token.spelled_call named.2.1 named.2.2, List.append_assoc,
        head?_append_of_ne_nil named.1.1]
      exact .of_word named.1 (start adjoins)
  | group _ =>
      obtain ⟨more, _, rfl⟩ := writes.of_cons rfl
      exact @single '(' more (.of_mark (by simp) (by simp [start adjoins]))
  | callEnd _ =>
      obtain ⟨more, _, rfl⟩ := writes.of_cons rfl
      exact @single ')' more (closing (by simp))
  | groupEnd _ =>
      obtain ⟨more, _, rfl⟩ := writes.of_cons rfl
      exact @single ')' more (closing (by simp))
  | array _ =>
      obtain ⟨more, _, rfl⟩ := writes.of_cons rfl
      exact @single '\x7b' more (.of_mark (by simp) (by simp [start adjoins]))
  | nextRow _ _ =>
      obtain ⟨_, rest, rfl⟩ := writes.of_cons rfl
      obtain ⟨more, _, rfl⟩ := rest.of_cons rfl
      exact @single ';' more (closing (by simp))
  | arrayEnd _ =>
      obtain ⟨_, rest, rfl⟩ := writes.of_cons rfl
      obtain ⟨more, _, rfl⟩ := rest.of_cons rfl
      exact @single '\x7d' more (closing (by simp))

namespace Scanner

/-- What a scanner comes to when it reads a text as the tokens. -/
def Takes (convention : Convention) (scanner : Scanner) (text : List Char) (tokens : List Token)
    (scopes : List ScopeKind) : Prop :=
  ∃ after, scanner.run convention text = .ok after ∧ after.Steady ∧ after.kinds = scopes ∧
    after.emitted.toList ++ after.leftover = scanner.emitted.toList ++ tokens

/-- Going on with a text after the end of a token. -/
theorem Reads.takes {scanner : Scanner} {text more : List Char} {tokens others : List Token}
    {token : Token} {scopes last : List ScopeKind}
    (reads : scanner.Reads convention text tokens token scopes)
    (parts : ∀ c ∈ more.head?, token.Parts convention c)
    (takes : ∀ next : Scanner, next.Clean → next.kinds = scopes →
      next.Takes convention more others last) :
    scanner.Takes convention (text ++ more) (tokens ++ others) last := by
  obtain ⟨middle, first, steady, kinds, emitted, meets⟩ := reads
  obtain ⟨after, second, afterSteady, afterKinds, afterEmitted⟩ :=
    takes middle.settle settle_clean (settle_kinds.trans kinds)
  rw [steady.settle_emitted, emitted, List.append_assoc] at afterEmitted
  cases more with
  | nil =>
      obtain rfl := Except.ok.inj second
      refine ⟨middle, ?_, steady, settle_kinds.symm.trans afterKinds, ?_⟩
      · rwa [List.append_nil]
      · rw [emitted, ← afterEmitted, settle_clean.leftover_eq, List.append_nil,
          steady.settle_emitted, emitted]
  | cons c rest =>
      refine ⟨after, run_append_eq_ok.mpr ⟨middle, first, ?_⟩, afterSteady, afterKinds,
        afterEmitted⟩
      have same : middle.step convention c = middle.settle.step convention c := by
        rw [step, step, meets c (parts c rfl)]
      rw [run_cons, same]
      exact second

end Scanner

private theorem IsKnown.reads {scanner : Scanner} (clean : scanner.Clean)
    (known : IsKnown convention right) (visible : right.kind ≠ .blank) :
    scanner.Reads convention right.spelled [right] right scanner.kinds := by
  obtain ⟨raw, unknown⟩ := known
  cases raw with
  | word held =>
      rw [Token.spelled_bare rfl]
      exact Scanner.reads_word clean held
  | text content =>
      rw [Token.spelled_text]
      exact Scanner.reads_text clean content
  | code held =>
      rw [Token.spelled_bare rfl]
      exact Scanner.reads_code clean held
  | unknown _ => exact (unknown rfl).elim
  | blank => exact (visible rfl).elim
  | operator mark => exact Scanner.reads_operator clean mark
  | comparison pair => exact Scanner.reads_comparison clean pair
  | percent => exact Scanner.reads_percent clean

/-- A text that spells out raw tokens is read as these tokens. -/
theorem Leads.run_writes {scopes last : List ScopeKind} {tokens : List Token} {text : List Char}
    (course : Leads convention (IsKnown convention) (IsCallable convention) scopes tokens last)
    (apart : tokens.IsChain Adjoins) (writes : Writes tokens text) {scanner : Scanner}
    (clean : scanner.Clean) (kinds : scanner.kinds = scopes) :
    scanner.Takes convention text tokens last := by
  induction course generalizing text scanner with
  | done =>
      cases writes
      refine ⟨scanner, rfl, clean.steady, kinds, ?_⟩
      rw [clean.leftover_eq]
  | plain known course ih =>
      obtain ⟨adjoins, restApart⟩ := List.isChain_cons.mp apart
      cases writes with
      | token visible after =>
          exact (kinds ▸ known.reads clean visible).takes (course.head_parts after adjoins)
            fun next nextClean nextKinds => ih restApart after nextClean nextKinds
      | blank present blank after =>
          exact (kinds ▸ Scanner.reads_blank clean present blank).takes
            (course.head_parts after adjoins)
            fun next nextClean nextKinds => ih restApart after nextClean nextKinds
  | argument inside course ih =>
      obtain ⟨adjoins, restApart⟩ := List.isChain_cons.mp apart
      obtain ⟨more, after, rfl⟩ := writes.of_cons rfl
      subst kinds
      exact (Scanner.reads_argument clean inside).takes (course.head_parts after adjoins)
        fun next nextClean nextKinds => ih restApart after nextClean nextKinds
  | union outside course ih =>
      obtain ⟨adjoins, restApart⟩ := List.isChain_cons.mp apart
      obtain ⟨more, after, rfl⟩ := writes.of_cons rfl
      subst kinds
      exact (Scanner.reads_union clean outside).takes (course.head_parts after adjoins)
        fun next nextClean nextKinds => ih restApart after nextClean nextKinds
  | call named course ih =>
      obtain ⟨adjoins, restApart⟩ := List.isChain_cons.mp apart
      obtain ⟨more, after, rfl⟩ := writes.of_cons rfl
      subst kinds
      rw [Token.spelled_call named.2.1 named.2.2]
      exact (Scanner.reads_call clean named.1).takes (course.head_parts after adjoins)
        fun next nextClean nextKinds => ih restApart after nextClean nextKinds
  | group course ih =>
      obtain ⟨adjoins, restApart⟩ := List.isChain_cons.mp apart
      obtain ⟨more, after, rfl⟩ := writes.of_cons rfl
      subst kinds
      exact (Scanner.reads_group clean).takes (course.head_parts after adjoins)
        fun next nextClean nextKinds => ih restApart after nextClean nextKinds
  | callEnd course ih =>
      obtain ⟨adjoins, restApart⟩ := List.isChain_cons.mp apart
      obtain ⟨more, after, rfl⟩ := writes.of_cons rfl
      exact (Scanner.reads_close clean kinds (.inl rfl)).takes (course.head_parts after adjoins)
        fun next nextClean nextKinds => ih restApart after nextClean nextKinds
  | groupEnd course ih =>
      obtain ⟨adjoins, restApart⟩ := List.isChain_cons.mp apart
      obtain ⟨more, after, rfl⟩ := writes.of_cons rfl
      exact (Scanner.reads_close clean kinds (.inr rfl)).takes (course.head_parts after adjoins)
        fun next nextClean nextKinds => ih restApart after nextClean nextKinds
  | array course ih =>
      obtain ⟨adjoins, restApart⟩ := List.isChain_cons.mp apart.tail
      obtain ⟨_, within, rfl⟩ := writes.of_cons rfl
      obtain ⟨more, after, rfl⟩ := within.of_cons rfl
      subst kinds
      exact (Scanner.reads_array clean).takes (course.head_parts after adjoins)
        fun next nextClean nextKinds => ih restApart after nextClean nextKinds
  | nextRow us course ih =>
      obtain ⟨adjoins, restApart⟩ := List.isChain_cons.mp apart.tail.tail
      obtain ⟨_, within, rfl⟩ := writes.of_cons rfl
      obtain ⟨_, further, rfl⟩ := within.of_cons rfl
      obtain ⟨more, after, rfl⟩ := further.of_cons rfl
      exact (Scanner.reads_nextRow clean us kinds).takes (course.head_parts after adjoins)
        fun next nextClean nextKinds => ih restApart after nextClean nextKinds
  | arrayEnd course ih =>
      obtain ⟨adjoins, restApart⟩ := List.isChain_cons.mp apart.tail
      obtain ⟨_, within, rfl⟩ := writes.of_cons rfl
      obtain ⟨more, after, rfl⟩ := within.of_cons rfl
      exact (Scanner.reads_arrayEnd clean kinds).takes (course.head_parts after adjoins)
        fun next nextClean nextKinds => ih restApart after nextClean nextKinds

end SheetFormula
