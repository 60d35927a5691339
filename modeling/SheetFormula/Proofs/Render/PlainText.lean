import SheetFormula.Proofs.Render.Markup

/-!
# The text that the markup of a formula shows

The texts of finished tokens begin and end visibly (`IsResolved.spelled_visible`), so trimming takes
away nothing but the blanks that a style puts around them.  The markup of a formula therefore shows
the layout of the formula, but for the indentation with which markup may begin
(`plainText_toHtml`).
-/

namespace SheetFormula

open Text (plainText)

variable {convention : Convention} {width : Nat} {token : Token} {tokens : List Token}
  {scopes last : List ScopeKind} {called : List Char → Prop} {previous : Option Token}

/-- What the scanner gathers begins with a visible character. -/
theorem Gathers.beginsVisibly {pending : List Char} {reading : Reading}
    (gathered : Gathers convention pending reading) (present : pending ≠ []) :
    BeginsVisibly pending.reverse := by
  obtain ⟨c, first⟩ := Option.ne_none_iff_exists'.mp (mt List.getLast?_eq_none_iff.mp present)
  refine ⟨c, List.head?_reverse.trans first, ?_⟩
  rcases gathered.first_character c first with ordinary | rfl | rfl
  · exact ordinary.not_blank
  · rfl
  · rfl

/-- A word begins with a visible character. -/
theorem IsWord.beginsVisibly {text : List Char} (word : IsWord convention text) :
    BeginsVisibly text := by
  obtain ⟨present, _, _, gathered⟩ := word
  have begins := gathered.beginsVisibly (mt List.reverse_eq_nil_iff.mp present)
  rwa [List.reverse_reverse] at begins

/-- A text of one visible character. -/
theorem visible_singleton {c : Char} (visible : Text.isBlank c = false) :
    BeginsVisibly [c] ∧ EndsVisibly [c] :=
  ⟨⟨c, rfl, visible⟩, ⟨c, rfl, visible⟩⟩

/-- A resolved token neither calls nor closes anything. -/
theorem IsResolved.bare {word code : List Char → Prop}
    (resolved : IsResolved convention word code token) :
    token.kind ≠ .function ∧ token.isStop = false := by
  cases resolved with
  | @word text _ =>
      rcases classify_cases convention text with sort | sort | sort <;> rw [sort] <;>
        exact ⟨nofun, rfl⟩
  | _ => exact ⟨nofun, rfl⟩

/-- The only token that stands for an intersection is the one that blanks are resolved to. -/
theorem IsResolved.eq_intersection {word code : List Char → Prop}
    (resolved : IsResolved convention word code token) (intersect : token.role = some .intersect) :
    token = SheetFormula.intersection := by
  cases resolved with
  | intersection => rfl
  | @word text _ =>
      rcases classify_cases convention text with sort | sort | sort <;>
        · rw [sort] at intersect
          cases intersect
  | _ => cases intersect

/-- Every finished token but an intersection is spelled as a word or an error code, in quotes, or
without any blank. -/
theorem IsResolved.spelled_holds {word code holds : List Char → Prop}
    (resolved : IsResolved convention word code token) (other : token.role ≠ some .intersect)
    (words : ∀ text, word text → holds text) (codes : ∀ text, code text → holds text)
    (quoted : ∀ content, holds ('"' :: (content ++ ['"'])))
    (dense : ∀ text, text ≠ [] → (∀ c ∈ text, Text.isBlank c = false) → holds text) :
    holds token.spelled := by
  have single {c : Char} (visible : Text.isBlank c = false) : holds [c] :=
    dense [c] (List.cons_ne_nil c []) (List.forall_mem_singleton.mpr visible)
  cases resolved with
  | @word text held =>
      have spelled : (⟨text, .operand, some (Operand.classify convention text)⟩ : Token).spelled =
          text := by
        rcases classify_cases convention text with sort | sort | sort <;> rw [sort] <;>
          exact Token.spelled_bare rfl
      rw [spelled]
      exact words text held
  | text content =>
      rw [Token.spelled_text]
      exact quoted _
  | code held =>
      rw [Token.spelled_bare rfl]
      exact codes _ held
  | unknown held =>
      rw [Token.spelled_bare rfl]
      rcases held with held | rfl
      · exact words _ held
      · exact single rfl
  | sign sign => rcases sign with rfl | rfl <;> exact single rfl
  | minus => exact single rfl
  | plus => exact single rfl
  | operator mark =>
      simp only [List.mem_cons, List.not_mem_nil, or_false] at mark
      rcases mark with rfl | rfl | rfl | rfl <;> exact single rfl
  | comparison comparison =>
      simp only [comparisons, List.mem_cons, List.not_mem_nil, or_false] at comparison
      rcases comparison with rfl | rfl | rfl | rfl | rfl | rfl
      · exact single rfl
      · exact single rfl
      · exact single rfl
      · exact dense ['<', '='] (List.cons_ne_nil _ _) (by simp [Text.isBlank])
      · exact dense ['>', '='] (List.cons_ne_nil _ _) (by simp [Text.isBlank])
      · exact dense ['<', '>'] (List.cons_ne_nil _ _) (by simp [Text.isBlank])
  | percent => exact single rfl
  | intersection => exact (other rfl).elim

/-- A text without blanks that is not empty begins with a visible character. -/
theorem beginsVisibly_of_dense {text : List Char} (present : text ≠ [])
    (dense : ∀ c ∈ text, Text.isBlank c = false) : BeginsVisibly text :=
  ⟨text.head present, List.head?_eq_some_head present, dense _ (List.head_mem present)⟩

private theorem endsVisibly_of_dense {text : List Char} (present : text ≠ [])
    (dense : ∀ c ∈ text, Text.isBlank c = false) : EndsVisibly text :=
  ⟨text.getLast present, List.getLast?_eq_some_getLast present, dense _ (List.getLast_mem present)⟩

/-- Error codes hold no blanks. -/
theorem errorCodes_dense {text : List Char} (code : text ∈ errorCodes) :
    text ≠ [] ∧ ∀ c ∈ text, Text.isBlank c = false := by
  simp only [errorCodes, List.mem_cons, List.not_mem_nil, or_false] at code
  rcases code with rfl | rfl | rfl | rfl | rfl | rfl | rfl | rfl | rfl | rfl <;>
    simp [Text.isBlank]

/-- Every finished token but an intersection begins and ends with a visible character. -/
theorem IsResolved.spelled_visible
    (resolved : IsResolved convention (IsWord convention) (· ∈ errorCodes) token)
    (other : token.role ≠ some .intersect) :
    BeginsVisibly token.spelled ∧ EndsVisibly token.spelled := by
  have dense (text : List Char) (present : text ≠ [])
      (dense : ∀ c ∈ text, Text.isBlank c = false) : BeginsVisibly text ∧ EndsVisibly text :=
    ⟨beginsVisibly_of_dense present dense, endsVisibly_of_dense present dense⟩
  refine @IsResolved.spelled_holds _ _ _ _ (fun text => BeginsVisibly text ∧ EndsVisibly text)
    resolved other (fun text word => ⟨word.beginsVisibly, word.endsVisibly⟩) ?_ ?_ dense
  · intro text code
    exact dense text (errorCodes_dense code).1 (errorCodes_dense code).2
  · intro content
    exact ⟨⟨'"', rfl, rfl⟩, endsVisibly_concat rfl ('"' :: content)⟩

/-- A finished stream whose words and error codes are complete, and whose calls are words. -/
abbrev FinishedStream (convention : Convention) (scopes : List ScopeKind) (tokens : List Token)
    (last : List ScopeKind) : Prop :=
  Leads convention (IsFinished convention (IsWord convention) (· ∈ errorCodes))
    (IsWord convention) scopes tokens last

/-- The start of a function is spelled as its name and a parenthesis, apart from the reserved names
of arrays. -/
theorem spelled_start_cases (name : List Char) :
    name = arrayRowName ∨ (ScopeKind.function.startToken name).spelled = ['\x7b'] ∨
      (ScopeKind.function.startToken name).spelled = name ++ ['('] := by
  by_cases row : name = arrayRowName
  · exact .inl row
  · by_cases array : name = arrayName
    · subst array
      exact .inr (.inl rfl)
    · exact .inr (.inr (Token.spelled_call array row))

private theorem Leads.endsPlainly (course : FinishedStream convention scopes tokens last) :
    ∀ token ∈ tokens, token.EndsPlainly := by
  have start (name : List Char) : (ScopeKind.function.startToken name).EndsPlainly := by
    intro innermost
    rcases spelled_start_cases name with rfl | brace | call
    · exact .inl rfl
    · exact .inr (brace ▸ (visible_singleton rfl).2)
    · exact .inr (call ▸ endsVisibly_concat rfl name)
  refine course.forall_mem ?_ ?_ ?_ ?_
  · rintro token ⟨resolved, _⟩ innermost
    by_cases intersect : token.role = some .intersect
    · rw [resolved.eq_intersection intersect]
      exact .inl rfl
    · exact .inr (resolved.spelled_visible intersect).2
  · intro c separator
    have visible : Text.isBlank c = false := by
      simp only [List.mem_cons, List.not_mem_nil, or_false] at separator
      rcases separator with rfl | rfl <;> rfl
    exact ⟨fun _ => .inr (visible_singleton visible).2, fun _ => .inr (visible_singleton visible).2⟩
  · intro kind name
    cases kind with
    | subexpression =>
        intro innermost
        exact .inr (visible_singleton rfl).2
    | _ => exact start name
  · intro kind innermost
    cases kind with
    | arrayRow => exact .inl rfl
    | _ => exact .inr (visible_singleton rfl).2

/-- Behind calls by the name of a row, the first token for which something is written can open the
output. -/
theorem Leads.opensPlainly (course : FinishedStream convention scopes tokens last)
    (calls : ∀ kind ∈ scopes, kind = .function) (linked : Linked Links previous tokens)
    (inert : ∀ left ∈ previous, left.endsValue = false) :
    ∀ token ∈ tokens.find? (· != rowCall), token.OpensPlainly := by
  have found {token : Token} {rest : List Token} (other : token ≠ rowCall)
      (opens : token.OpensPlainly) :
      ∀ first ∈ (token :: rest).find? (· != rowCall), first.OpensPlainly := by
    rw [List.find?_cons_of_pos (by simpa using other)]
    rintro first ⟨⟩
    exact opens
  have separator : Text.isBlank convention.separator = false := by cases convention <;> rfl
  induction course generalizing previous with
  | done => exact nofun
  | @plain _ _ token _ held _ _ =>
      obtain ⟨resolved, _⟩ := held
      have other : token.role ≠ some .intersect := by
        intro intersect
        obtain ⟨⟨left, member, ends⟩, _⟩ := linked.1.intersect intersect
        rw [inert left member] at ends
        cases ends
      obtain ⟨kind, going⟩ := resolved.bare
      refine found ?_ (.inr ⟨going, (resolved.spelled_visible other).1⟩)
      rintro rfl
      exact kind rfl
  | argument _ _ _ =>
      exact found (ne_of_kind rfl) (.inr ⟨rfl, (visible_singleton separator).1⟩)
  | union _ _ _ =>
      exact found (ne_of_kind rfl) (.inr ⟨rfl, (visible_singleton separator).1⟩)
  | @call _ _ name _ named _ ih =>
      by_cases row : name = arrayRowName
      · subst row
        have within : ∀ left ∈ some rowCall, left.endsValue = false := by
          rintro left ⟨⟩
          rfl
        exact ih (List.forall_mem_cons.mpr ⟨rfl, calls⟩) linked.2 within
      · refine found (fun same => row (congrArg Token.value same)) (.inr ⟨rfl, ?_⟩)
        rcases (spelled_start_cases name).resolve_left row with brace | call
        · exact brace ▸ (visible_singleton rfl).1
        · exact call ▸ named.beginsVisibly.append_right ['(']
  | group _ _ => exact found (ne_of_kind rfl) (.inr ⟨rfl, (visible_singleton rfl).1⟩)
  | callEnd _ _ => exact found (ne_of_role rfl) (.inl rfl)
  | groupEnd _ _ => cases calls _ (List.mem_cons_self ..)
  | array _ _ => exact found (by decide) (.inr ⟨rfl, (visible_singleton rfl).1⟩)
  | nextRow _ _ _ => cases calls _ (List.mem_cons_self ..)
  | arrayEnd _ _ => cases calls _ (List.mem_cons_self ..)

/-- The markup of a finished stream shows its layout, behind the overhang. -/
theorem renderPlain_html (course : FinishedStream convention [] tokens last)
    (linked : Linked Links none tokens) :
    ∃ html laid, (TemplateSet.html width).renderPlain tokens = .ok ('=' :: html) ∧
      (TemplateSet.beautify (.ofWidth width)).renderPlain tokens = .ok ('=' :: laid) ∧
      plainText html = List.replicate (width * overhang tokens) ' ' ++ laid := by
  obtain ⟨marked, written⟩ := @TemplateSet.renderOnto_total (.html width) {} (fun _ => nofun)
    (tokens.map (·, .plain))
  obtain ⟨laid, laidWritten⟩ := @TemplateSet.renderOnto_total (.beautify (.ofWidth width)) {}
    (fun _ => nofun) (tokens.map (·, .plain))
  refine ⟨Text.trim marked.text, Text.trim laid.text,
    bind_eq_ok.mpr ⟨marked, written, pure_eq_ok.mpr (List.append_nil _)⟩,
    bind_eq_ok.mpr ⟨laid, laidWritten, pure_eq_ok.mpr (List.append_nil _)⟩, ?_⟩
  have mirrors := (Mirrors.start.run course.endsPlainly written laidWritten).1
  have blank : Page.IsBlank {} 0 := ⟨rfl, rfl, fun _ => rfl⟩
  rcases beginsAlike_of_renderOnto blank .start course.endsPlainly
    (course.opensPlainly nofun linked nofun) written laidWritten with ⟨empty, flush⟩ | begins
  · rw [overhang, flush, Nat.mul_zero, mirrors.alike.eq_nil_iff.mpr empty, empty]
    rfl
  · exact Text.plainText_trim mirrors.alike begins

/-- The markup and the layout of a formula that does not end inside a path, a bracket or an error
code fail with the same error, or the markup shows the layout, with the indentation of the overhang
behind the equals sign.  So it shows the layout itself if and only if there is no such
indentation. -/
theorem plainText_toHtml {formula : List Char} (width : Nat)
    (ended : ∀ scanner, scanFormula convention formula = .ok scanner → scanner.IsComplete) :
    (∃ error, toHtml convention width formula = .error error ∧
      beautify convention (.ofWidth width) formula = .error error) ∨
    ∃ tokens html laid, tokenize convention formula = .ok tokens ∧
      toHtml convention width formula = .ok html ∧
      beautify convention (.ofWidth width) formula = .ok ('=' :: laid) ∧
      plainText html = '=' :: (List.replicate (width * overhang tokens) ' ' ++ laid) ∧
      (plainText html = '=' :: laid ↔ width = 0 ∨ overhang tokens = 0) := by
  cases read : tokenize convention formula with
  | error error =>
      exact .inl ⟨error, renderFormula_error read, renderFormula_error read⟩
  | ok tokens =>
      right
      obtain ⟨scanner, scanned, rfl⟩ := tokenize_eq_ok.mp read
      have sound : scanner.Sound convention (IsWord convention) :=
        (Scanner.sound_start formula).run (Scanner.sound_start formula).callNames_words scanned
      have stream :=
        sound.finish_stream sound.stream (sound.leftover_complete (ended scanner scanned))
      obtain ⟨html, laid, written, laidWritten, shown⟩ :=
        @renderPlain_html convention width _ _ stream.leads.finishStream stream.linked_finishStream
      have whole : plainText ('=' :: html) = '=' :: plainText html := by
        rw [plainText, Text.untagged_cons (by decide), Text.decoded_cons (by decide), ← plainText]
      refine ⟨_, '=' :: html, laid, rfl, (renderFormula_eq read).trans written,
        (renderFormula_eq read).trans laidWritten, by rw [whole, shown], ?_⟩
      rw [whole, shown]
      simp only [List.cons.injEq, true_and, List.append_left_eq_self, List.replicate_eq_nil_iff,
        Nat.mul_eq_zero]

/-- Quotes, comparisons and ampersands in texts and paths, an array, and a text that is left open in
a call. -/
theorem plainText_toHtml_escaped :
    (∀ scanner, scanFormula .us "=IF('P&L'!A1<>\"<b>\",\x7b1;2\x7d,\"\"\"&lt;".toList =
      .ok scanner → scanner.IsComplete) ∧
    ∃ html, toHtml .us 2 "=IF('P&L'!A1<>\"<b>\",\x7b1;2\x7d,\"\"\"&lt;".toList = .ok html ∧
      beautify .us (.ofWidth 2)
        "=IF('P&L'!A1<>\"<b>\",\x7b1;2\x7d,\"\"\"&lt;".toList = .ok (plainText html) := by
  have ended : ∀ scanner,
      scanFormula .us "=IF('P&L'!A1<>\"<b>\",\x7b1;2\x7d,\"\"\"&lt;".toList = .ok scanner →
        scanner.IsComplete := by
    intro scanner scanned
    obtain rfl := Except.ok.inj scanned
    decide +kernel
  refine ⟨ended, ?_⟩
  rcases plainText_toHtml 2 ended with ⟨error, failed, _⟩ | ⟨tokens, html, laid, read, marked,
    written, _, same⟩
  · have succeeds :
        (toHtml .us 2 "=IF('P&L'!A1<>\"<b>\",\x7b1;2\x7d,\"\"\"&lt;".toList).isOk = true := by
      decide +kernel
    rw [failed] at succeeds
    cases succeeds
  · have flush : overhang tokens = 0 := by
      obtain rfl := Except.ok.inj read
      decide +kernel
    exact ⟨html, marked, (same.mpr (.inr flush)).symm ▸ written⟩

/-- Nothing is written for the two starts, so markup begins with the indentation of the first stop,
and the layout does not. -/
theorem plainText_toHtml_overhang :
    ∃ html, toHtml .us 4 "=ARRAYROW(ARRAYROW())".toList = .ok html ∧
      plainText html = "=    )\n)".toList ∧
      beautify .us (.ofWidth 4) "=ARRAYROW(ARRAYROW())".toList = .ok "=)\n)".toList :=
  ⟨_, rfl, by decide +kernel, by decide +kernel⟩

end SheetFormula
