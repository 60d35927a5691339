import SheetFormula.Proofs.Scanner.Boundary
import SheetFormula.Proofs.Scanner.Refusal

/-!
# The two conventions read alike

A formula without semicolons is turned into one of the other convention by exchanging its commas for
semicolons.  Both are then read in lock step: exchanging the commas in the state of the scanner
commutes with every step (`Scanner.step_exchanged`) and with finishing the stream
(`finishStream_exchanged`), so the tokens differ in the same exchange (`tokenize_exchanged`).

The exponent rule takes a comma for a decimal mark under either convention.  It does not break the
symmetry, since the comma that separates arguments is never gathered into a word: a comma among the
pending characters stands in a path or in a bracket (`Gathers.comma_inside`), and no number has one.
-/

namespace SheetFormula

namespace Text

variable {c d : Char} {text : List Char}

/-- The character with which the other convention writes a comma, or else the character itself. -/
def exchange (c : Char) : Char :=
  if c = ',' then ';' else c

/-- The text with its commas exchanged for semicolons. -/
def exchanged (text : List Char) : List Char :=
  replaceChar ',' ';' text

private theorem exchanged_eq_map (text : List Char) : exchanged text = text.map exchange := rfl

private theorem exchange_of_ne (other : c ≠ ',') : exchange c = c :=
  if_neg other

private theorem exchange_eq_iff (comma : d ≠ ',') (semicolon : d ≠ ';') :
    exchange c = d ↔ c = d := by
  unfold exchange
  split
  · rename_i same
    exact iff_of_false semicolon.symm fun eq => comma (eq ▸ same)
  · rfl

private theorem replaceChar_of_not_mem (absent : c ∉ text) : replaceChar c d text = text := by
  refine (List.map_congr_left fun other member => ?_).trans (List.map_id text)
  refine if_neg ?_
  rintro rfl
  exact absent member

private theorem exchanged_of_plain (plain : ',' ∉ text) : exchanged text = text :=
  replaceChar_of_not_mem plain

private theorem not_mem_of_equalFold {word : List Char} (fold : equalFold text word = true)
    (caseless : c.toLower = c) (absent : c ∉ asciiLower word) : c ∉ text := by
  intro member
  refine absent ?_
  rw [← beq_iff_eq.mp fold]
  exact List.mem_map.mpr ⟨c, member, caseless⟩

private theorem comma_of_semicolon (semicolon : ';' ∉ exchanged text) : ',' ∉ text :=
  fun comma => semicolon (List.mem_map.mpr ⟨',', comma, rfl⟩)

private theorem comma_not_mem_exchanged (text : List Char) : ',' ∉ exchanged text := by
  intro comma
  obtain ⟨c, _, same⟩ := List.mem_map.mp comma
  split at same
  · cases same
  · rename_i other
    exact other same

/-- A test that no text with a comma or a semicolon passes does not see the exchange. -/
theorem exchanged_invisible {passes : List Char → Prop}
    (clean : ∀ text, passes text → ',' ∉ text ∧ ';' ∉ text) (text : List Char) :
    passes (exchanged text) ↔ passes text := by
  constructor
  · intro passed
    rwa [exchanged_of_plain (comma_of_semicolon (clean _ passed).2)] at passed
  · intro passed
    rwa [exchanged_of_plain (clean _ passed).1]

private theorem isBlank_exchange (c : Char) : isBlank (exchange c) = isBlank c := by
  unfold exchange
  split
  · rename_i same
    rw [same]
    rfl
  · rfl

private theorem utf8Size_exchange (c : Char) : (exchange c).utf8Size = c.utf8Size := by
  unfold exchange
  split
  · rename_i same
    rw [same]
    rfl
  · rfl

private theorem byteCount_exchanged (text : List Char) :
    byteCount (exchanged text) = byteCount text := by
  induction text with
  | nil => rfl
  | cons c rest ih =>
      change (exchange c).utf8Size + byteCount (exchanged rest) = c.utf8Size + byteCount rest
      rw [utf8Size_exchange, ih]

end Text

open Text (exchange exchanged exchange_eq_iff exchanged_invisible)

namespace Operand

variable {text : List Char}

/-- The character can stand in a number. -/
def IsNumeral (c : Char) : Prop :=
  c.isDigit = true ∨ c ∈ ['.', 'e', 'E', '+', '-']

private theorem numeral_of_isDigits (digits : isDigits text = true) : ∀ c ∈ text, IsNumeral c := by
  simp only [isDigits, Bool.and_eq_true] at digits
  exact fun c member => .inl (List.all_eq_true.mp digits.2 c member)

private theorem numeral_of_dropSign (digits : isDigits (dropSign text) = true) :
    ∀ c ∈ text, IsNumeral c := by
  unfold dropSign at digits
  split at digits
  · exact List.forall_mem_cons.mpr ⟨.inr (by simp), numeral_of_isDigits digits⟩
  · exact List.forall_mem_cons.mpr ⟨.inr (by simp), numeral_of_isDigits digits⟩
  · exact numeral_of_isDigits digits

private theorem numeral_of_isOptionalExponent (exponent : isOptionalExponent text = true) :
    ∀ c ∈ text, IsNumeral c := by
  cases text with
  | nil => exact List.forall_mem_nil _
  | cons mark rest =>
      simp only [isOptionalExponent, isExponentMark, Bool.and_eq_true, Bool.or_eq_true,
        beq_iff_eq] at exponent
      refine List.forall_mem_cons.mpr ⟨.inr ?_, numeral_of_dropSign exponent.2⟩
      rcases exponent.1 with rfl | rfl <;> simp

private theorem numeral_of_dropWhile (others : ∀ c ∈ text.dropWhile Char.isDigit, IsNumeral c) :
    ∀ c ∈ text, IsNumeral c := by
  rw [← List.takeWhile_append_dropWhile (p := Char.isDigit) (l := text)]
  exact List.forall_mem_append.mpr ⟨fun c member => .inl (List.mem_takeWhile_imp member), others⟩

private theorem numeral_of_isNumber (number : isNumber text = true) : ∀ c ∈ text, IsNumeral c := by
  refine numeral_of_dropWhile ?_
  unfold isNumber at number
  dsimp only at number
  split at number
  · rename_i rest point
    simp only [Bool.and_eq_true] at number
    rw [point]
    exact List.forall_mem_cons.mpr ⟨.inr (by simp),
      numeral_of_dropWhile (numeral_of_isOptionalExponent number.2)⟩
  · simp only [Bool.and_eq_true] at number
    exact numeral_of_isOptionalExponent number.2

private theorem isNumber_exchanged (text : List Char) :
    isNumber (exchanged text) = true ↔ isNumber text = true := by
  have absent : ¬IsNumeral ',' ∧ ¬IsNumeral ';' := by
    simp [IsNumeral, Char.isDigit]
  exact exchanged_invisible (fun _ number =>
    ⟨fun comma => absent.1 (numeral_of_isNumber number _ comma),
      fun semicolon => absent.2 (numeral_of_isNumber number _ semicolon)⟩) text

private theorem isTruthValue_exchanged (text : List Char) :
    isTruthValue (exchanged text) = true ↔ isTruthValue text = true := by
  refine @exchanged_invisible (fun text => isTruthValue text = true) ?_ text
  intro text truth
  rcases Bool.or_eq_true_iff.mp truth with fold | fold
  · exact ⟨Text.not_mem_of_equalFold fold rfl (by decide),
      Text.not_mem_of_equalFold fold rfl (by decide)⟩
  · exact ⟨Text.not_mem_of_equalFold fold rfl (by decide),
      Text.not_mem_of_equalFold fold rfl (by decide)⟩

/-- An operand is of one sort under both conventions. -/
theorem classify_exchanged (text : List Char) :
    classify .eu (exchanged text) = classify .us text := by
  have point : withPoint .eu (exchanged text) = exchanged text :=
    Text.replaceChar_of_not_mem (Text.comma_not_mem_exchanged text)
  rw [classify, point, classify, withPoint]
  simp only [isNumber_exchanged, isTruthValue_exchanged]

end Operand

/-- A number before its exponent has no path and no bracket in it. -/
theorem BeforeExponent.not_enclosed {text : List Char} (before : BeforeExponent text) :
    '\'' ∉ text ∧ '[' ∉ text := by
  have absent {c d : Char} (digit : c.isDigit = true) (other : d.isDigit = false) : d ≠ c := by
    rintro rfl
    rw [digit] at other
    cases other
  cases before with
  | whole digit nonzero marks =>
      simp only [List.mem_cons, List.not_mem_nil, or_false, not_or]
      refine ⟨⟨absent digit rfl, ?_⟩, absent digit rfl, ?_⟩
      all_goals rcases marks with rfl | rfl <;> decide
  | fraction digit nonzero points present decimal marks =>
      simp only [List.mem_cons, List.mem_append, List.not_mem_nil, or_false, not_or]
      refine ⟨⟨absent digit rfl, ?_, fun member => absent (decimal _ member) rfl rfl, ?_⟩,
        absent digit rfl, ?_, fun member => absent (decimal _ member) rfl rfl, ?_⟩
      · rcases points with rfl | rfl <;> decide
      · rcases marks with rfl | rfl <;> decide
      · rcases points with rfl | rfl <;> decide
      · rcases marks with rfl | rfl <;> decide

namespace Gathers

variable {pending : List Char} {reading : Reading}

/-- A word has a comma only if it has a path or a bracket. -/
theorem comma_inside (gathered : Gathers .us pending reading)
    (inside : reading = .path ∨ reading = .bracket ∨ ',' ∈ pending) :
    '\'' ∈ pending ∨ '[' ∈ pending := by
  have extend {c : Char} {pending : List Char} (enclosed : '\'' ∈ pending ∨ '[' ∈ pending) :
      '\'' ∈ c :: pending ∨ '[' ∈ c :: pending :=
    enclosed.imp (List.mem_cons_of_mem c) (List.mem_cons_of_mem c)
  induction gathered with
  | start => simp at inside
  | ordinary ordinary _ _ ih =>
      simp only [reduceCtorEq, List.mem_cons, false_or] at inside
      rcases inside with same | member
      · exact (ordinary.2.2 same.symm).elim
      · exact extend (ih (.inr (.inr member)))
  | exponent sign _ _ _ ih =>
      simp only [reduceCtorEq, List.mem_cons, false_or] at inside
      rcases inside with same | member
      · rcases sign with sign | sign <;> cases same.trans sign
      · exact extend (ih (.inr (.inr member)))
  | pathStart => exact .inl (by simp)
  | path _ _ ih => exact extend (ih (.inl rfl))
  | pathEnd _ _ => exact .inl (by simp)
  | doubledQuote _ _ => exact .inl (by simp)
  | bracketStart _ _ _ => exact .inr (by simp)
  | bracket _ _ ih => exact extend (ih (.inr (.inl rfl)))
  | bracketEnd _ ih => exact extend (ih (.inr (.inl rfl)))

/-- A sign belongs to an exponent under both conventions or under none. -/
theorem awaitsExponent_exchanged (gathered : Gathers .us pending reading) :
    Operand.awaitsExponent (exchanged pending).reverse =
      Operand.awaitsExponent pending.reverse := by
  by_cases comma : ',' ∈ pending
  · have refused {text : List Char} (enclosed : '\'' ∈ text ∨ '[' ∈ text) :
        Operand.awaitsExponent text.reverse = false := by
      rw [← Bool.not_eq_true, Operand.awaitsExponent_iff]
      intro before
      exact enclosed.elim (fun member => before.not_enclosed.1 (List.mem_reverse.mpr member))
        fun member => before.not_enclosed.2 (List.mem_reverse.mpr member)
    have enclosed := gathered.comma_inside (.inr (.inr comma))
    rw [refused enclosed, refused]
    exact enclosed.imp (fun member => List.mem_map.mpr ⟨_, member, rfl⟩)
      fun member => List.mem_map.mpr ⟨_, member, rfl⟩
  · rw [Text.exchanged_of_plain comma]

end Gathers

/-- The token with the commas of its text exchanged for semicolons. -/
def Token.exchanged (token : Token) : Token :=
  { token with value := Text.exchanged token.value }

private theorem ScopeKind.stopToken_exchanged (kind : ScopeKind) :
    kind.stopToken.exchanged = kind.stopToken := by
  cases kind <;> rfl

namespace Scanner

variable {scanner : Scanner} {c : Char}

/-- The scanner with the commas of all its texts exchanged for semicolons. -/
def exchanged (scanner : Scanner) : Scanner :=
  { scanner with
    pending := Text.exchanged scanner.pending
    emitted := scanner.emitted.map Token.exchanged }

private theorem exchanged_push :
    (scanner.push c).exchanged = scanner.exchanged.push (exchange c) := rfl

private theorem exchanged_continueAs (reading : Reading) :
    (scanner.continueAs reading).exchanged = scanner.exchanged.continueAs reading := rfl

private theorem exchanged_emit (token : Token) :
    (scanner.emit token).exchanged = scanner.exchanged.emit token.exchanged := by
  simp only [emit, exchanged, Array.map_push]

private theorem exchanged_emitPending (kind : TokenKind) (role : Option TokenRole) :
    (scanner.emitPending kind role).exchanged = scanner.exchanged.emitPending kind role := by
  simp only [emitPending, exchanged, Array.map_push, Token.exchanged, Text.exchanged_eq_map,
    List.map_reverse, List.map_nil]

private theorem exchanged_endText : scanner.endText.exchanged = scanner.exchanged.endText := by
  rw [endText, exchanged_continueAs, exchanged_emitPending, endText]

private theorem exchanged_flush (kind : TokenKind) :
    (scanner.flush kind).exchanged = scanner.exchanged.flush kind := by
  have same : scanner.exchanged.pending.isEmpty = scanner.pending.isEmpty := List.isEmpty_map
  rw [flush, flush, same, apply_ite exchanged, exchanged_emitPending]

private theorem exchanged_openScope (kind : ScopeKind) (value : List Char) :
    (scanner.openScope kind value).exchanged =
      scanner.exchanged.openScope kind (Text.exchanged value) := by
  simp only [openScope, exchanged, Array.map_push, Array.size_map]
  rfl

private theorem exchanged_openParenthesis :
    scanner.openParenthesis.exchanged = scanner.exchanged.openParenthesis := by
  have same : scanner.exchanged.pending.isEmpty = scanner.pending.isEmpty := List.isEmpty_map
  rw [openParenthesis, openParenthesis, same, apply_ite exchanged, exchanged_openScope,
    exchanged_openScope]
  simp only [exchanged, Text.exchanged_eq_map, List.map_reverse, List.map_nil]

private theorem exchanged_separate :
    (scanner.separate ',').exchanged = scanner.exchanged.separate ';' := by
  rw [separate, apply_ite exchanged, exchanged_emit, exchanged_emit]
  rfl

private theorem closeScope_exchanged (found : Char) (kinds : List ScopeKind) :
    scanner.exchanged.closeScope found kinds = exchanged <$> scanner.closeScope found kinds := by
  have scopes : scanner.exchanged.scopes = scanner.scopes := rfl
  unfold closeScope
  rw [scopes]
  cases scanner.scopes with
  | nil => rfl
  | cons scope outer =>
      by_cases member : scope.kind ∈ kinds
      · simp only [member, ↓reduceIte, Except.map_ok, exchanged, Array.map_push,
          ScopeKind.stopToken_exchanged]
      · simp only [member, ↓reduceIte, Except.map_error]
        rfl

private theorem closeArray_exchanged (found : Char) :
    (scanner.exchanged.closeScope found [.arrayRow] >>= fun row => row.closeScope found [.array]) =
      exchanged <$>
        (scanner.closeScope found [.arrayRow] >>= fun row => row.closeScope found [.array]) := by
  simp only [closeScope_exchanged, bind_map_left, map_bind]

/-- A character read on its own is read alike under both conventions. -/
theorem readFormula_exchanged {reading : Reading} (gathered : Gathers .us scanner.pending reading)
    (plain : c ≠ ';') :
    scanner.exchanged.readFormula .eu (exchange c) =
      exchanged <$> scanner.readFormula .us c := by
  by_cases comma : c = ','
  · subst comma
    have us : scanner.readFormula .us ',' = .ok ((scanner.flush .operand).separate ',') :=
      readFormula_separator
    rw [us, Except.map_ok, exchanged_separate, exchanged_flush]
    exact readFormula_separator
  · have other : exchange c = c := Text.exchange_of_ne comma
    have value : Text.exchanged [c] = [c] := congrArg ([·]) other
    have awaited : Operand.awaitsExponent scanner.exchanged.pending.reverse =
        Operand.awaitsExponent scanner.pending.reverse := gathered.awaitsExponent_exchanged
    have close (kinds : List ScopeKind) :
        (scanner.exchanged.flush .operand).closeScope c kinds =
          exchanged <$> (scanner.flush .operand).closeScope c kinds :=
      exchanged_flush .operand ▸ closeScope_exchanged c kinds
    have closeArray := @closeArray_exchanged (scanner.flush .operand) c
    rw [exchanged_flush] at closeArray
    -- the two conventions differ in the separator only, which the character is not
    rw [other, readFormula, readFormula, awaited]
    simp only [apply_ite (exchanged <$> ·), ← close, ← closeArray, Except.map_ok, exchanged_push,
      exchanged_continueAs, exchanged_flush, exchanged_openScope, exchanged_emit,
      exchanged_openParenthesis, other, Token.exchanged, value, Convention.separator, comma, plain,
      ↓reduceIte]
    rfl

private theorem isComparisonPair_exchange {first : Char} :
    isComparisonPair first (exchange c) = isComparisonPair first c := by
  have same {d : Char} (comma : d ≠ ',') (semicolon : d ≠ ';') : (exchange c == d) = (c == d) := by
    rw [Bool.eq_iff_iff, beq_iff_eq, beq_iff_eq, exchange_eq_iff comma semicolon]
  simp only [isComparisonPair, same (d := '=') (by decide) (by decide),
    same (d := '>') (by decide) (by decide)]

private theorem mem_errorCodes_exchanged (text : List Char) :
    Text.exchanged text ∈ errorCodes ↔ text ∈ errorCodes := by
  have clean : ∀ code ∈ errorCodes, ',' ∉ code ∧ ';' ∉ code := by
    simp [errorCodes]
  exact @exchanged_invisible (· ∈ errorCodes) clean text

/-- Every character is read alike under both conventions. -/
theorem read_exchanged {called : List Char → Prop} (sound : scanner.Sound .us called)
    (plain : c ≠ ';') :
    scanner.exchanged.read .eu (exchange c) = exchanged <$> scanner.read .us c := by
  have reading : scanner.exchanged.reading = scanner.reading := rfl
  have quote : exchange c = '"' ↔ c = '"' := exchange_eq_iff (by decide) (by decide)
  have apostrophe : exchange c = '\'' ↔ c = '\'' := exchange_eq_iff (by decide) (by decide)
  have bracket : exchange c = ']' ↔ c = ']' := exchange_eq_iff (by decide) (by decide)
  rw [read, read, reading]
  cases sort : scanner.reading with
  | formula =>
      exact readFormula_exchanged (sound.gathered (.inl (by rw [sort]; rfl))) plain
  | blanks =>
      have gathered : Gathers .us (scanner.continueAs .formula).pending .formula :=
        (sound.blanks sort).symm ▸ .start
      simp only [Text.isBlank_exchange, apply_ite (exchanged <$> ·), Except.map_ok,
        ← readFormula_exchanged gathered plain, exchanged_continueAs]
  | comparison first =>
      obtain ⟨empty, mark⟩ := sound.comparison first sort
      have same (rest : List Char) :
          Text.exchanged (first :: rest) = first :: Text.exchanged rest := by
        rcases mark with rfl | rfl <;> rfl
      have gathered (token : Token) :
          Gathers .us ((scanner.emit token).continueAs .formula).pending .formula :=
        empty.symm ▸ .start
      simp only [isComparisonPair_exchange, apply_ite (exchanged <$> ·), Except.map_ok,
        ← readFormula_exchanged (gathered _) plain, exchanged_continueAs, exchanged_emit,
        Token.exchanged, same]
      rfl
  | text =>
      simp only [quote, Except.map_ok, apply_ite exchanged, exchanged_push, exchanged_continueAs]
  | textQuote =>
      have gathered : Gathers .us scanner.endText.pending .formula := .start
      simp only [quote, apply_ite (exchanged <$> ·), Except.map_ok, exchanged_continueAs,
        exchanged_push, ← readFormula_exchanged gathered plain, exchanged_endText]
  | path =>
      simp only [apostrophe, Except.map_ok, apply_ite exchanged, exchanged_push,
        exchanged_continueAs]
  | pathQuote =>
      have gathered : Gathers .us (scanner.continueAs .formula).pending scanner.reading :=
        sound.gathered (.inl (by rw [sort]; rfl))
      simp only [apostrophe, apply_ite (exchanged <$> ·), Except.map_ok, exchanged_continueAs,
        exchanged_push, ← readFormula_exchanged gathered plain]
  | bracket =>
      simp only [bracket, Except.map_ok, apply_ite exchanged, exchanged_push, exchanged_continueAs]
  | errorCode =>
      have complete : (scanner.exchanged.push (exchange c)).pending.reverse ∈ errorCodes ↔
          (scanner.push c).pending.reverse ∈ errorCodes := by
        rw [← mem_errorCodes_exchanged (scanner.push c).pending.reverse, Text.exchanged_eq_map,
          List.map_reverse]
        rfl
      simp only [any_errorCodes_iff, complete, Except.map_ok, apply_ite exchanged, exchanged_push,
        exchanged_continueAs, exchanged_emitPending]

private theorem step_exchanged {called : List Char → Prop} (sound : scanner.Sound .us called)
    (plain : c ≠ ';') :
    scanner.exchanged.step .eu (exchange c) = exchanged <$> scanner.step .us c := by
  simp only [step, read_exchanged sound plain, bind_map_left, map_bind, map_pure,
    Text.utf8Size_exchange]
  rfl

private theorem run_exchanged (sound : scanner.Sound .us fun _ => True) {text : List Char}
    (plain : ';' ∉ text) :
    scanner.exchanged.run .eu (Text.exchanged text) = exchanged <$> scanner.run .us text := by
  induction text generalizing scanner with
  | nil => rfl
  | cons c rest ih =>
      rw [List.mem_cons, not_or] at plain
      change scanner.exchanged.run .eu (exchange c :: Text.exchanged rest) = _
      rw [run_cons, run_cons, step_exchanged sound (Ne.symm plain.1), bind_map_left, map_bind]
      cases stepped : scanner.step .us c with
      | error _ => rfl
      | ok next => exact ih (sound.step (fun _ _ => trivial) stepped) plain.2

private theorem Sound.leftover_exchanged {called : List Char → Prop}
    (sound : scanner.Sound .us called) :
    scanner.exchanged.leftover = scanner.leftover.map Token.exchanged := by
  have pending : scanner.exchanged.pending.reverse = Text.exchanged scanner.pending.reverse :=
    List.map_reverse.symm
  have tokens : scanner.exchanged.pendingTokens .operand =
      (scanner.pendingTokens .operand).map Token.exchanged := by
    have same : scanner.exchanged.pending.isEmpty = scanner.pending.isEmpty := List.isEmpty_map
    rw [pendingTokens, pendingTokens, same, apply_ite (List.map Token.exchanged), pending]
    rfl
  have reading : scanner.exchanged.reading = scanner.reading := rfl
  rw [leftover, leftover, reading]
  cases sort : scanner.reading with
  | text => simp only [pending]; rfl
  | textQuote => simp only [pending]; rfl
  | errorCode => simp only [pending]; rfl
  | comparison first =>
      obtain ⟨_, rfl | rfl⟩ := sound.comparison first sort
      · rfl
      · rfl
  | _ => exact tokens

private theorem Sound.finish_exchanged {called : List Char → Prop}
    (sound : scanner.Sound .us called) :
    scanner.exchanged.finish.toList = scanner.finish.toList.map Token.exchanged := by
  have stops : scanner.kinds.map (Token.exchanged ∘ ScopeKind.stopToken) =
      scanner.exchanged.kinds.map ScopeKind.stopToken :=
    List.map_congr_left fun kind _ => kind.stopToken_exchanged
  rw [finish_toList, finish_toList, sound.leftover_exchanged, List.map_append, List.map_append,
    List.map_map, stops]
  simp only [exchanged, Array.toList_map]

end Scanner

private theorem resolveBlanks_exchanged (previous : Option Token) (tokens : List Token) :
    resolveBlanks (previous.map Token.exchanged) (tokens.map Token.exchanged) =
      (resolveBlanks previous tokens).map Token.exchanged := by
  induction tokens generalizing previous with
  | nil => rfl
  | cons token rest ih =>
      have kind : token.exchanged.kind = token.kind := rfl
      have between : intersects (previous.map Token.exchanged) (rest.map Token.exchanged).head? =
          intersects previous rest.head? := by
        rw [List.head?_map]
        cases previous <;> cases rest.head? <;> rfl
      have ih : resolveBlanks (some token.exchanged) (rest.map Token.exchanged) =
          (resolveBlanks (some token) rest).map Token.exchanged := ih (some token)
      simp only [List.map_cons, resolveBlanks, kind, between, ih,
        apply_ite (List.map Token.exchanged)]
      rfl

private theorem resolveToken_exchanged (previous : Option Token) (token : Token) :
    resolveToken .eu (previous.map Token.exchanged) token.exchanged =
      (resolveToken .us previous token).exchanged := by
  have sign : precedesInfixSign (previous.map Token.exchanged) = precedesInfixSign previous := by
    cases previous <;> rfl
  have plus : token.exchanged.value = ['+'] ↔ token.value = ['+'] :=
    @exchanged_invisible (· = ['+']) (by simp) token.value
  have minus : token.exchanged.value = ['-'] ↔ token.value = ['-'] :=
    @exchanged_invisible (· = ['-']) (by simp) token.value
  have comparison : token.exchanged.value ∈ comparisons ↔ token.value ∈ comparisons :=
    @exchanged_invisible (· ∈ comparisons) (by simp [comparisons]) token.value
  have sorted := Operand.classify_exchanged token.value
  unfold resolveToken
  by_cases operator : token.kind = .infixOperator
  · rw [if_pos (show token.exchanged.kind = .infixOperator from operator), if_pos operator]
    simp only [sign, plus, minus, comparison, apply_ite Token.exchanged]
    rfl
  · rw [if_neg (show token.exchanged.kind ≠ .infixOperator from operator), if_neg operator,
      apply_ite Token.exchanged, ← sorted]
    rfl

private theorem resolveTokens_exchanged (previous : Option Token) (tokens : List Token) :
    resolveTokens .eu (previous.map Token.exchanged) (tokens.map Token.exchanged) =
      (resolveTokens .us previous tokens).map Token.exchanged := by
  induction tokens generalizing previous with
  | nil => rfl
  | cons token rest ih =>
      rw [List.map_cons, resolveTokens, resolveToken_exchanged]
      exact congrArg (List.cons _) (ih (some (resolveToken .us previous token)))

/-- Finishing a stream treats both conventions alike. -/
theorem finishStream_exchanged (raw : List Token) :
    finishStream .eu (raw.map Token.exchanged) =
      (finishStream .us raw).map Token.exchanged := by
  have blanks := resolveBlanks_exchanged none raw
  have tokens := resolveTokens_exchanged none (resolveBlanks none raw)
  rw [Option.map_none] at blanks tokens
  rw [finishStream, blanks, tokens, List.filter_map]
  rfl

variable {formula : List Char}

private theorem trimStart_exchanged :
    Text.trimStart (exchanged formula) = exchanged (Text.trimStart formula) := by
  have blank : Text.isBlank ∘ exchange = Text.isBlank := funext Text.isBlank_exchange
  rw [Text.trimStart, Text.exchanged_eq_map, List.dropWhile_map, blank]
  rfl

private theorem formulaBody_exchanged :
    formulaBody (exchanged formula) = exchanged (formulaBody formula) := by
  by_cases equals : ∃ rest, Text.trimStart formula = '=' :: rest
  · obtain ⟨rest, start⟩ := equals
    rw [formulaBody_of_equals start]
    exact formulaBody_of_equals (by rw [trimStart_exchanged, start]; rfl)
  · have other (rest : List Char) : Text.trimStart formula ≠ '=' :: rest :=
      fun start => equals ⟨rest, start⟩
    rw [formulaBody_of_other other, ← trimStart_exchanged]
    refine formulaBody_of_other fun rest start => ?_
    rw [trimStart_exchanged] at start
    obtain ⟨c, before, body, same, _⟩ := List.map_eq_cons_iff.mp start
    obtain rfl : c = '=' := (exchange_eq_iff (by decide) (by decide)).mp same
    exact other before body

private theorem start_exchanged :
    Scanner.start (exchanged formula) = (Scanner.start formula).exchanged := by
  rw [Scanner.start, formulaBody_exchanged, Text.byteCount_exchanged, Text.byteCount_exchanged]
  simp [Scanner.start, Scanner.exchanged, Text.exchanged_eq_map]

private theorem scanFormula_exchanged (plain : ';' ∉ formula) :
    scanFormula .eu (exchanged formula) = Scanner.exchanged <$> scanFormula .us formula := by
  have body : ';' ∉ formulaBody formula := by
    obtain ⟨lead, isLead⟩ := exists_isLead formula
    rw [isLead.split] at plain
    exact fun member => plain (List.mem_append_right lead member)
  rw [scanFormula, start_exchanged, formulaBody_exchanged]
  exact Scanner.run_exchanged (Scanner.sound_start formula) body

/-- A formula without semicolons and the one with its commas exchanged for semicolons are refused
with the same error, or their tokens differ in the same exchange of their texts and in nothing
else. -/
theorem tokenize_exchanged (plain : ';' ∉ formula) :
    tokenize .eu (exchanged formula) = List.map Token.exchanged <$> tokenize .us formula := by
  rw [tokenize, tokenize, scanFormula_exchanged plain, bind_map_left, map_bind]
  cases scanned : scanFormula .us formula with
  | error _ => rfl
  | ok last =>
      have sound : last.Sound .us fun _ => True :=
        (Scanner.sound_start formula).run (fun _ _ => trivial) scanned
      have finished : finishStream .eu last.exchanged.finish.toList =
          (finishStream .us last.finish.toList).map Token.exchanged := by
        rw [sound.finish_exchanged, finishStream_exchanged]
      exact congrArg Except.ok finished

/-- Commas within a text, a path, a bracket and an unfinished error code are exchanged like those
that separate arguments or join ranges. -/
theorem tokenize_exchanged_enclosed :
    ';' ∉ "=F('a,b'!A1,\"p,q\",T[x,y],(1.5,-2))#N,".toList ∧
      tokenize .eu "=F('a;b'!A1;\"p;q\";T[x;y];(1.5;-2))#N;".toList =
        .ok [⟨"F".toList, .function, some .start⟩, ⟨"'a;b'!A1".toList, .operand, some .range⟩,
          ⟨";".toList, .argument, none⟩, ⟨"p;q".toList, .operand, some .text⟩,
          ⟨";".toList, .argument, none⟩, ⟨"T[x;y]".toList, .operand, some .range⟩,
          ⟨";".toList, .argument, none⟩, ⟨[], .subexpression, some .start⟩,
          ⟨"1.5".toList, .operand, some .number⟩, ⟨";".toList, .infixOperator, some .union⟩,
          ⟨"-".toList, .prefixOperator, none⟩, ⟨"2".toList, .operand, some .number⟩,
          ⟨[], .subexpression, some .stop⟩, ⟨[], .function, some .stop⟩,
          ⟨"#N;".toList, .operand, some .error⟩] := by
  have plain : ';' ∉ "=F('a,b'!A1,\"p,q\",T[x,y],(1.5,-2))#N,".toList := by decide
  exact ⟨plain, (tokenize_exchanged plain).trans rfl⟩

end SheetFormula
