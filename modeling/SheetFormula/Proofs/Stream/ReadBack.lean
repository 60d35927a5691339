import SheetFormula.Proofs.Scanner.Opened
import SheetFormula.Proofs.Stream.Spread
import SheetFormula.Proofs.Text.Visible

/-!
# Reading back what was spread over a text

A text over which a finished stream is spread begins and ends with a visible character, so trimming
takes away just the blanks around it (`Legible.trim_spread`).  After an equals sign it is read as
the stream again (`Legible.tokenize_spread`).  The tokens of a formula can be spread if it does not
end within a token, holds nothing unknown and calls no reserved name (`ReadsPlainly.legible`).
-/

namespace SheetFormula

variable {convention : Convention} {tokens raws rest : List Token} {text more : List Char}
  {scopes last : List ScopeKind} {previous : Option Token}

/-- A word ends with a visible character. -/
theorem IsWord.endsVisibly (word : IsWord convention text) : EndsVisibly text := by
  obtain ⟨present, reading, isOpen, gathered⟩ := word
  cases reversed : text.reverse with
  | nil => exact (present (List.reverse_eq_nil_iff.mp reversed)).elim
  | cons c pending =>
      rw [reversed] at gathered
      refine ⟨c, ?_, gathered.last_not_blank isOpen⟩
      rw [← List.head?_reverse, reversed]
      rfl

/-- A token with a meaning, other than a blank, is spelled with a visible character at its end. -/
theorem IsKnown.endsVisibly {token : Token} (known : IsKnown convention token)
    (visible : token.kind ≠ .blank) : EndsVisibly token.spelled := by
  obtain ⟨raw, unknown⟩ := known
  cases raw with
  | word held =>
      rw [Token.spelled_bare rfl]
      exact held.endsVisibly
  | text content =>
      rw [Token.spelled_text, ← List.cons_append]
      exact endsVisibly_concat rfl _
  | code held =>
      rw [Token.spelled_bare rfl]
      simp only [errorCodes, List.mem_cons, List.not_mem_nil, or_false] at held
      rcases held with rfl | rfl | rfl | rfl | rfl | rfl | rfl | rfl | rfl | rfl <;>
        exact ⟨_, rfl, rfl⟩
  | unknown _ => exact (unknown rfl).elim
  | blank => exact (visible rfl).elim
  | operator mark =>
      refine ⟨_, rfl, ?_⟩
      simp only [infixCharacters, List.mem_cons, List.not_mem_nil, or_false] at mark
      rcases mark with rfl | rfl | rfl | rfl | rfl | rfl | rfl | rfl | rfl <;> rfl
  | comparison pair =>
      refine ⟨_, rfl, ?_⟩
      simp only [Scanner.isComparisonPair, Bool.or_eq_true, Bool.and_eq_true, beq_iff_eq] at pair
      rcases pair with ⟨_, rfl | rfl⟩ | ⟨_, rfl⟩ <;> rfl
  | percent => exact ⟨_, rfl, rfl⟩

private theorem Writes.eq_nil (writes : Writes [] text) : text = [] := by
  cases writes
  rfl

/-- A text for raw tokens of which the last is no blank ends visibly. -/
theorem Leads.endsVisibly
    (course : Leads convention (IsKnown convention) (IsCallable convention) scopes tokens last)
    (writes : Writes tokens text) (visible : ∀ token ∈ tokens.getLast?, token.kind ≠ .blank) :
    tokens = [] ∨ EndsVisibly text := by
  have later {token : Token} {rest : List Token}
      (visible : ∀ last ∈ (token :: rest).getLast?, last.kind ≠ .blank) :
      ∀ last ∈ rest.getLast?, last.kind ≠ .blank := by
    cases rest with
    | nil => exact nofun
    | cons next rest => rwa [List.getLast?_cons_cons] at visible
  have join {front more : List Char} {rest : List Token} (own : EndsVisibly front)
      (after : Writes rest more) (ih : rest = [] ∨ EndsVisibly more) :
      EndsVisibly (front ++ more) := by
    rcases ih with rfl | ends
    · rw [after.eq_nil, List.append_nil]
      exact own
    · exact ends.append_left front
  induction course generalizing text with
  | done => exact .inl rfl
  | plain known _ ih =>
      right
      cases writes with
      | token isVisible after =>
          exact join (known.endsVisibly isVisible) after (ih after (later visible))
      | blank _ _ after =>
          rcases ih after (later visible) with rfl | ends
          · exact (visible _ rfl rfl).elim
          · exact ends.append_left _
  | argument _ _ ih =>
      obtain ⟨more, after, rfl⟩ := writes.of_cons rfl
      refine .inr (join ⟨convention.separator, rfl, ?_⟩ after (ih after (later visible)))
      cases convention <;> rfl
  | union _ _ ih =>
      obtain ⟨more, after, rfl⟩ := writes.of_cons rfl
      refine .inr (join ⟨convention.separator, rfl, ?_⟩ after (ih after (later visible)))
      cases convention <;> rfl
  | call named _ ih =>
      obtain ⟨more, after, rfl⟩ := writes.of_cons rfl
      rw [Token.spelled_call named.2.1 named.2.2]
      exact .inr (join (endsVisibly_concat rfl _) after (ih after (later visible)))
  | group _ ih =>
      obtain ⟨more, after, rfl⟩ := writes.of_cons rfl
      exact .inr (join ⟨'(', rfl, rfl⟩ after (ih after (later visible)))
  | callEnd _ ih =>
      obtain ⟨more, after, rfl⟩ := writes.of_cons rfl
      exact .inr (join ⟨')', rfl, rfl⟩ after (ih after (later visible)))
  | groupEnd _ ih =>
      obtain ⟨more, after, rfl⟩ := writes.of_cons rfl
      exact .inr (join ⟨')', rfl, rfl⟩ after (ih after (later visible)))
  | array _ ih =>
      obtain ⟨_, within, rfl⟩ := writes.of_cons rfl
      obtain ⟨more, after, rfl⟩ := within.of_cons rfl
      exact .inr (join ⟨'\x7b', rfl, rfl⟩ after (ih after (later (later visible))))
  | nextRow _ _ ih =>
      obtain ⟨_, within, rfl⟩ := writes.of_cons rfl
      obtain ⟨_, further, rfl⟩ := within.of_cons rfl
      obtain ⟨more, after, rfl⟩ := further.of_cons rfl
      exact .inr (join ⟨';', rfl, rfl⟩ after (ih after (later (later (later visible)))))
  | arrayEnd _ ih =>
      obtain ⟨_, within, rfl⟩ := writes.of_cons rfl
      obtain ⟨more, after, rfl⟩ := within.of_cons rfl
      exact .inr (join ⟨'\x7d', rfl, rfl⟩ after (ih after (later (later visible))))

/-- A text for raw tokens of which the first is no blank begins visibly. -/
theorem Leads.beginsVisibly
    (course : Leads convention (IsKnown convention) (IsCallable convention) scopes tokens last)
    (writes : Writes tokens text) (visible : ∀ token ∈ tokens.head?, token.kind ≠ .blank) :
    ∀ c ∈ text.head?, Text.isBlank c = false := by
  intro c member
  have adjoins : ∀ right ∈ tokens.head?, Adjoins blankToken right := by
    intro right first
    refine ⟨⟨nofun, nofun, fun _ => visible right first⟩, ?_⟩
    rintro ⟨_, ⟨word, _⟩ | ⟨_, _, whole, _⟩⟩
    · cases word
    · cases whole
  exact (course.head_parts writes adjoins c member).blank rfl

private theorem Spread.getLast?_raws (spread : Spread previous tokens raws text) :
    raws.getLast? = tokens.getLast?.map Token.raw := by
  induction spread with
  | nil => rfl
  | tight _ _ ih =>
      rw [List.getLast?_cons, List.getLast?_cons, ih]
      cases List.getLast? _ <;> rfl
  | spaced _ _ _ _ ih =>
      rw [List.getLast?_cons_cons, List.getLast?_cons, List.getLast?_cons, ih]
      cases List.getLast? _ <;> rfl

/-- A finished stream does not end with an intersection. -/
theorem Linked.last_not_intersect (linked : Linked Links previous tokens) :
    ∀ token ∈ tokens.getLast?, token.role ≠ some .intersect := by
  induction tokens generalizing previous with
  | nil => exact nofun
  | cons token rest ih =>
      obtain ⟨link, restLinked⟩ := linked
      cases rest with
      | nil =>
          intro last member intersect
          obtain rfl : token = last := Option.some.inj member
          obtain ⟨_, _, following, _⟩ := link.intersect intersect
          cases following
      | cons next rest =>
          rw [List.getLast?_cons_cons]
          exact ih restLinked

/-- A finished stream does not begin with an intersection. -/
theorem Linked.first_not_intersect (linked : Linked Links none tokens) :
    ∀ token ∈ tokens.head?, token.role ≠ some .intersect := by
  cases tokens with
  | nil => exact nofun
  | cons token rest =>
      intro first member intersect
      obtain rfl : token = first := Option.some.inj member
      obtain ⟨⟨_, before, _⟩, _⟩ := linked.1.intersect intersect
      cases before

/-- Only intersections come from blanks. -/
theorem IsVisible.raw_visible {token : Token} (visible : IsVisible token)
    (plain : token.role ≠ some .intersect) : token.raw.kind ≠ .blank := by
  rw [Token.raw, if_neg plain]
  exact unresolved_kind visible.kind

/-- The text over which a stream is spread, without a gap before it, is left over when the blanks
around it are trimmed. -/
theorem Legible.trim_spread (legible : Legible convention scopes tokens last)
    (linked : Linked Links none tokens) (spread : Spread none tokens raws text)
    (tight : raws.head? = tokens.head?.map Token.raw) {lead trail : List Char}
    (leading : ∀ c ∈ lead, Text.isBlank c = true) (trailing : ∀ c ∈ trail, Text.isBlank c = true) :
    Text.trim (lead ++ (text ++ trail)) = text := by
  have course := legible.leads_raws spread
  have writes := spread.writes legible.isVisible
  have visible (raw : Option Token) (token : Option Token) (same : raw = token.map Token.raw)
      (member : ∀ t ∈ token, t ∈ tokens) (plain : ∀ t ∈ token, t.role ≠ some .intersect) :
      ∀ r ∈ raw, r.kind ≠ .blank := by
    subst same
    intro r mapped
    obtain ⟨t, held, rfl⟩ := Option.map_eq_some_iff.mp mapped
    exact (legible.isVisible t (member t held)).raw_visible (plain t held)
  refine trim_surrounded leading trailing (course.beginsVisibly writes ?_) ?_
  · exact visible _ _ tight (fun _ => List.mem_of_mem_head?) linked.first_not_intersect
  · refine (course.endsVisibly writes ?_).imp_left ?_
    · exact visible _ _ spread.getLast?_raws (fun _ => List.mem_of_mem_getLast?)
        linked.last_not_intersect
    · rintro rfl
      exact writes.eq_nil

/-- The text over which a stream is spread is read as the stream. -/
theorem Legible.tokenize_spread (legible : Legible convention [] tokens [])
    (linked : Linked Links none tokens) (spread : Spread none tokens raws text) :
    tokenize convention ('=' :: text) = .ok tokens := by
  have clean : (Scanner.start ('=' :: text)).Clean := ⟨rfl, rfl⟩
  obtain ⟨after, ran, _, closed, emitted⟩ :=
    (legible.leads_raws spread).run_writes (spread.isChain_raws legible.isVisible nofun linked).1
      (spread.writes legible.isVisible) clean rfl
  refine tokenize_eq_ok.mpr ⟨after, ran, ?_⟩
  rw [Scanner.finish_toList, closed, emitted, List.map_nil, List.append_nil]
  exact legible.finishStream_raws linked spread

/-- Whatever is called is a word. -/
theorem Scanner.Sound.callNames_words {scanner : Scanner}
    (sound : scanner.Sound convention fun _ => True) :
    ∀ name ∈ scanner.callNames convention text, IsWord convention name := by
  induction text generalizing scanner with
  | nil => exact List.forall_mem_nil _
  | cons c rest ih =>
      rw [Scanner.callNames]
      refine List.forall_mem_append.mpr ⟨fun name member => ?_, ?_⟩
      · unfold Scanner.callName at member
        split at member
        · rename_i calls
          simp only [Bool.and_eq_true, Bool.not_eq_true', List.isEmpty_eq_false_iff] at calls
          obtain ⟨⟨isOpen, _⟩, present⟩ := calls
          obtain rfl := List.mem_singleton.mp member
          refine ⟨by simpa using present, scanner.reading, isOpen, ?_⟩
          rw [List.reverse_reverse]
          exact sound.gathered (.inl isOpen)
        · cases member
      · cases stepped : scanner.step convention c with
        | ok next => exact ih (sound.step (fun _ _ => trivial) stepped)
        | error _ => exact List.forall_mem_nil _

/-- The formula is read as the tokens, and all of them can be written again: the text does not end
inside a path, a bracket or an error code, nothing in it is unknown, and no call bears a name that
stands for an array or a row of one. -/
structure ReadsPlainly (convention : Convention) (formula : List Char) (tokens : List Token) :
    Prop where
  read : tokenize convention formula = .ok tokens
  ended : ∃ scanner, scanFormula convention formula = .ok scanner ∧ scanner.IsComplete
  known : ∀ token ∈ tokens, token.kind ≠ .unknown
  unreserved : Unreserved (calledNames convention formula)

/-- The tokens of a formula that is read plainly form a legible stream of linked tokens. -/
theorem ReadsPlainly.legible {formula : List Char}
    (plainly : ReadsPlainly convention formula tokens) :
    Legible convention [] tokens [] ∧ Linked Links none tokens := by
  obtain ⟨read, ⟨scanner, scanned, complete⟩, known, unreserved⟩ := plainly
  obtain ⟨_, again, rfl⟩ := tokenize_eq_ok.mp read
  obtain rfl := Except.ok.inj (scanned.symm.trans again)
  have callable : ∀ name ∈ calledNames convention formula, IsCallable convention name := by
    intro name member
    refine ⟨(Scanner.sound_start formula).callNames_words name member, ?_, ?_⟩
    · rintro rfl
      exact unreserved.1 member
    · rintro rfl
      exact unreserved.2 member
  have sound : scanner.Sound convention (IsCallable convention) :=
    (Scanner.sound_start formula).run callable scanned
  have stream := sound.finish_stream sound.stream (sound.leftover_complete complete)
  exact ⟨stream.leads.finishStream.restrict known, stream.linked_finishStream⟩

end SheetFormula
