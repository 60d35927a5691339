import SheetFormula.Proofs.Scanner.Word
import SheetFormula.Proofs.Stream.Course
import Mathlib.Data.List.Chain

/-!
# What every scan keeps true

`Scanner.Sound` is the invariant of scanning: the tokens emitted so far lead to the scopes that are
open, no two neighbours among them could have been read as one, and the pending text is one that the
scanner gathers.  A scan starts sound (`sound_start`), each character keeps it so (`Sound.step`),
and so does a whole text (`Sound.run`).
-/

namespace SheetFormula

namespace Token

/-- The token is an operand that is neither a text nor an error code. -/
def isWord (token : Token) : Bool :=
  token.kind == .operand && token.role != some .text && token.role != some .error

/-- The token is a text operand. -/
def isText (token : Token) : Bool :=
  token.kind == .operand && token.role == some .text

/-- A text begins a value. -/
theorem beginsValue_of_isText {token : Token} (text : token.isText = true) :
    token.beginsValue = true := by
  simp only [isText, Bool.and_eq_true] at text
  simp only [beginsValue, isOperand, text.1, Bool.true_or]

/-- A text ends a value. -/
theorem endsValue_of_isText {token : Token} (text : token.isText = true) :
    token.endsValue = true := by
  simp only [isText, Bool.and_eq_true] at text
  simp only [endsValue, isOperand, text.1, Bool.true_or]

/-- A word ends a value. -/
theorem endsValue_of_isWord {token : Token} (word : token.isWord = true) :
    token.endsValue = true := by
  simp only [isWord, Bool.and_eq_true] at word
  simp only [endsValue, isOperand, word.1.1, Bool.true_or]

end Token

namespace ScopeKind

private theorem stopToken_isWord (kind : ScopeKind) : kind.stopToken.isWord = false := by
  cases kind <;> rfl

/-- The stop of a scope is not a text. -/
theorem stopToken_isText (kind : ScopeKind) : kind.stopToken.isText = false := by
  cases kind <;> rfl

/-- The stop of a scope is not a blank. -/
theorem stopToken_not_blank (kind : ScopeKind) : kind.stopToken.kind ≠ .blank := by
  cases kind <;> nofun

/-- The stop of a scope does not begin a value. -/
theorem stopToken_beginsValue (kind : ScopeKind) : kind.stopToken.beginsValue = false := by
  cases kind <;> rfl

end ScopeKind

/-- The raw tokens that neither open nor close a scope nor separate.  Unknown is a word that cannot
stand where it does, or a semicolon outside of any row.  Which texts count as words and as error
codes is left open. -/
inductive IsRaw (word code : List Char → Prop) : Token → Prop where
  | word {text : List Char} (held : word text) : IsRaw word code ⟨text, .operand, none⟩
  | text (content : List Char) : IsRaw word code ⟨content, .operand, some .text⟩
  | code {text : List Char} (held : code text) : IsRaw word code ⟨text, .operand, some .error⟩
  | unknown {text : List Char} (held : word text ∨ text = [';']) :
      IsRaw word code ⟨text, .unknown, none⟩
  | blank : IsRaw word code ⟨[' '], .blank, none⟩
  | operator {c : Char} (mark : c ∈ infixCharacters) : IsRaw word code ⟨[c], .infixOperator, none⟩
  | comparison {first second : Char} (pair : Scanner.isComparisonPair first second = true) :
      IsRaw word code ⟨[first, second], .infixOperator, none⟩
  | percent : IsRaw word code ⟨['%'], .postfixOperator, none⟩

/-- A raw token stays one when more texts count as words and as error codes. -/
theorem IsRaw.imp {word word' code code' : List Char → Prop} {token : Token}
    (raw : IsRaw word code token) (words : ∀ text, word text → word' text)
    (codes : ∀ text, code text → code' text) : IsRaw word' code' token := by
  cases raw with
  | word held => exact .word (words _ held)
  | text content => exact .text content
  | code held => exact .code (codes _ held)
  | unknown held => exact .unknown (held.imp_left (words _))
  | blank => exact .blank
  | operator mark => exact .operator mark
  | comparison pair => exact .comparison pair
  | percent => exact .percent

/-- A raw token stays one when every text counts as a word and as an error code. -/
theorem IsRaw.weaken {word code : List Char → Prop} {token : Token} (raw : IsRaw word code token) :
    IsRaw (fun _ => True) (fun _ => True) token :=
  raw.imp (fun _ _ => trivial) fun _ _ => trivial

/-- The tokens can stand next to each other with nothing between them: no value follows a word, no
text follows a text, and no blank follows a blank. -/
def Abuts (left right : Token) : Prop :=
  (left.isWord = true → right.beginsValue = false) ∧
    (left.isText = true → right.isText = false) ∧
      (left.kind = .blank → right.kind ≠ .blank)

/-- A token that begins no value can follow any other, unless both are blanks. -/
theorem abuts_of_not_value {left right : Token} (inert : right.beginsValue = false)
    (blank : left.kind = .blank → right.kind ≠ .blank) : Abuts left right := by
  refine ⟨fun _ => inert, fun _ => ?_, blank⟩
  by_contra text
  rw [Token.beginsValue_of_isText (by simpa using text)] at inert
  cases inert

/-- The tokens lead from no open scope to the given ones, and neighbours abut. -/
structure StreamOf (convention : Convention) (plain : Token → Prop) (called : List Char → Prop)
    (tokens : List Token) (scopes : List ScopeKind) : Prop where
  leads : Leads convention plain called [] tokens scopes
  apart : tokens.IsChain Abuts

/-- A stream of raw tokens whose words and error codes are complete. -/
abbrev RawStream (convention : Convention) (called : List Char → Prop) (tokens : List Token)
    (scopes : List ScopeKind) : Prop :=
  StreamOf convention (IsRaw (IsWord convention) (· ∈ errorCodes)) called tokens scopes

namespace StreamOf

variable {convention : Convention} {plain plain' : Token → Prop} {called : List Char → Prop}
  {tokens added : List Token} {scopes last : List ScopeKind}

/-- A stream can be extended by tokens that go on from its open scopes and abut. -/
theorem extend (stream : StreamOf convention plain called tokens scopes)
    (course : Leads convention plain called scopes added last) (apart : added.IsChain Abuts)
    (meets : ∀ left ∈ tokens.getLast?, ∀ right ∈ added.head?, Abuts left right) :
    StreamOf convention plain called (tokens ++ added) last :=
  ⟨stream.leads.append course, stream.apart.append apart meets⟩

/-- A stream stays one when more tokens are allowed in it. -/
theorem mono (stream : StreamOf convention plain called tokens scopes)
    (weaker : ∀ token, plain token → plain' token) :
    StreamOf convention plain' called tokens scopes :=
  ⟨stream.leads.mono weaker fun _ named => named, stream.apart⟩

end StreamOf

namespace Scanner

variable {convention : Convention} {called : List Char → Prop} {scanner after : Scanner} {c : Char}

/-- The name that is called if the next character is an opening parenthesis. -/
def callName (scanner : Scanner) (c : Char) : List (List Char) :=
  if scanner.reading.isOpen && c == '(' && !scanner.pending.isEmpty then [scanner.pending.reverse]
  else []

/-- The names called in a text, in order. -/
def callNames (convention : Convention) : Scanner → List Char → List (List Char)
  | _, [] => []
  | scanner, c :: rest =>
      scanner.callName c ++
        match scanner.step convention c with
        | .ok next => next.callNames convention rest
        | .error _ => []

/-- The last token emitted leaves room for what the scanner is reading. -/
def Follows (scanner : Scanner) (token : Token) : Prop :=
  match scanner.reading with
  | .comparison _ => True
  | .blanks | .text | .textQuote => token.isWord = false ∧ token.isText = false
  | .formula =>
      token.isWord = false ∧
        (scanner.pending = [] → token.isText = false ∧ token.kind ≠ .blank)
  | _ => token.isWord = false

/-- The invariant of scanning. -/
structure Sound (convention : Convention) (called : List Char → Prop) (scanner : Scanner) :
    Prop where
  stream : RawStream convention called scanner.emitted.toList scanner.kinds
  gathered : scanner.reading.isOpen = true ∨ scanner.reading = .path ∨ scanner.reading = .bracket →
    Gathers convention scanner.pending scanner.reading
  blanks : scanner.reading = .blanks → scanner.pending = []
  comparison : ∀ first, scanner.reading = .comparison first →
    scanner.pending = [] ∧ (first = '<' ∨ first = '>')
  last : ∀ token ∈ scanner.emitted.toList.getLast?, scanner.Follows token

/-- The invariant of scanning holds at the start. -/
theorem sound_start (formula : List Char) : (start formula).Sound convention called where
  stream := ⟨.done, .nil⟩
  gathered _ := .start
  blanks reading := by cases reading
  comparison first reading := by cases reading
  last token member := by cases member

private theorem Sound.past (sound : scanner.Sound convention called) :
    (scanner.past c).Sound convention called :=
  ⟨sound.stream, sound.gathered, sound.blanks, sound.comparison, sound.last⟩

/-- The invariant as a character is read on its own. -/
structure Ready (convention : Convention) (called : List Char → Prop) (scanner : Scanner)
    (c : Char) : Prop where
  stream : RawStream convention called scanner.emitted.toList scanner.kinds
  reading : scanner.reading = .formula
  gathered : ∃ reading, reading.isOpen = true ∧ Gathers convention scanner.pending reading
  named : c = '(' → scanner.pending ≠ [] → called scanner.pending.reverse
  last : ∀ token ∈ scanner.emitted.toList.getLast?, token.isWord = false ∧
    (scanner.pending = [] → (token.isText = true → c ≠ '"') ∧
      (token.kind = .blank → Text.isBlank c = false))

/-- The pending text as a token, if there is any. -/
def pendingTokens (scanner : Scanner) (kind : TokenKind) : List Token :=
  if scanner.pending.isEmpty then [] else [⟨scanner.pending.reverse, kind, none⟩]

/-- Nothing pending makes no token. -/
theorem pendingTokens_of_empty {kind : TokenKind} (empty : scanner.pending = []) :
    scanner.pendingTokens kind = [] := by
  simp [pendingTokens, empty]

/-- Pending text makes one token. -/
theorem pendingTokens_of_pending {kind : TokenKind} (present : scanner.pending ≠ []) :
    scanner.pendingTokens kind = [⟨scanner.pending.reverse, kind, none⟩] := by
  simp [pendingTokens, present]

/-- Flushing emits the pending text as a token. -/
theorem flush_emitted (kind : TokenKind) :
    (scanner.flush kind).emitted.toList = scanner.emitted.toList ++ scanner.pendingTokens kind := by
  by_cases empty : scanner.pending.isEmpty = true
  · simp [flush, pendingTokens, empty]
  · simp [flush, pendingTokens, empty, emitPending]

/-- Flushing neither opens nor closes a scope. -/
@[simp]
theorem flush_scopes (kind : TokenKind) : (scanner.flush kind).scopes = scanner.scopes := by
  unfold flush
  split <;> rfl

/-- Flushing leaves the kinds of the open scopes as they are. -/
@[simp]
theorem flush_kinds (kind : TokenKind) : (scanner.flush kind).kinds = scanner.kinds := by
  rw [kinds, flush_scopes, kinds]

/-- Flushing does not change what the scanner is reading. -/
@[simp]
theorem flush_reading (kind : TokenKind) : (scanner.flush kind).reading = scanner.reading := by
  unfold flush
  split <;> rfl

/-- After flushing nothing is pending. -/
@[simp]
theorem flush_pending (kind : TokenKind) : (scanner.flush kind).pending = [] := by
  unfold flush
  split
  · rename_i empty
    exact List.isEmpty_iff.mp empty
  · rfl

/-- The pending text leaves a raw stream when it is emitted as an operand or as unknown. -/
theorem Ready.flush_stream (ready : scanner.Ready convention called c) {kind : TokenKind}
    (sort : kind = .operand ∨ kind = .unknown) :
    RawStream convention called (scanner.flush kind).emitted.toList scanner.kinds := by
  rw [flush_emitted]
  by_cases empty : scanner.pending = []
  · rw [pendingTokens_of_empty empty, List.append_nil]
    exact ready.stream
  · rw [pendingTokens_of_pending empty]
    obtain ⟨reading, isOpen, gathered⟩ := ready.gathered
    have word : IsWord convention scanner.pending.reverse := by
      refine ⟨by simpa using empty, reading, isOpen, ?_⟩
      rwa [List.reverse_reverse]
    refine ready.stream.extend (.plain ?_ .done) (.singleton _) ?_
    · rcases sort with rfl | rfl
      · exact .word word
      · exact .unknown (.inl word)
    · intro left member right same
      obtain rfl : _ = right := Option.some.inj same
      have wordless := (ready.last left member).1
      rcases sort with rfl | rfl
      · exact ⟨by simp [wordless], fun _ => rfl, fun _ => nofun⟩
      · exact ⟨by simp [wordless], fun _ => rfl, fun _ => nofun⟩

private theorem Ready.flush_last_blank (ready : scanner.Ready convention called c)
    {kind : TokenKind} (sort : kind = .operand ∨ kind = .unknown) :
    ∀ token ∈ (scanner.flush kind).emitted.toList.getLast?,
      token.kind = .blank → Text.isBlank c = false := by
  intro token member blank
  rw [flush_emitted] at member
  by_cases empty : scanner.pending = []
  · rw [pendingTokens_of_empty empty, List.append_nil] at member
    exact ((ready.last token member).2 empty).2 blank
  · rw [pendingTokens_of_pending empty, List.getLast?_concat] at member
    obtain rfl : _ = token := Option.some.inj member
    rcases sort with rfl | rfl <;> cases blank

private theorem Ready.flush_last_value (ready : scanner.Ready convention called c) :
    ∀ token ∈ (scanner.flush .unknown).emitted.toList.getLast?,
      token.isWord = false ∧ (token.isText = true → c ≠ '"') := by
  intro token member
  rw [flush_emitted] at member
  by_cases empty : scanner.pending = []
  · rw [pendingTokens_of_empty empty, List.append_nil] at member
    exact ⟨(ready.last token member).1, ((ready.last token member).2 empty).1⟩
  · rw [pendingTokens_of_pending empty, List.getLast?_concat] at member
    obtain rfl : _ = token := Option.some.inj member
    exact ⟨rfl, nofun⟩

/-- After the pending text is emitted as an operand, a token that begins no value may follow. -/
theorem Ready.flush_extend (ready : scanner.Ready convention called c) {added : List Token}
    {last : List ScopeKind}
    (course : Leads convention (IsRaw (IsWord convention) (· ∈ errorCodes)) called scanner.kinds
      added last)
    (apart : added.IsChain Abuts) (inert : ∀ token ∈ added.head?, token.beginsValue = false)
    (blank : ∀ token ∈ added.head?, token.kind = .blank → Text.isBlank c = true) :
    RawStream convention called ((scanner.flush .operand).emitted.toList ++ added) last := by
  refine (ready.flush_stream (.inl rfl)).extend course apart ?_
  intro left leftMember right rightMember
  refine abuts_of_not_value (inert right rightMember) fun leftBlank rightBlank => ?_
  have clash := ready.flush_last_blank (.inl rfl) left leftMember leftBlank
  rw [blank right rightMember rightBlank] at clash
  cases clash

/-- A scanner that has just emitted a token which is no word, text or blank is sound. -/
theorem sound_of_closed (token : Token) (reading : scanner.reading = .formula)
    (empty : scanner.pending = [])
    (stream : RawStream convention called scanner.emitted.toList scanner.kinds)
    (last : scanner.emitted.toList.getLast? = some token) (word : token.isWord = false)
    (text : token.isText = false) (blank : token.kind ≠ .blank) :
    scanner.Sound convention called where
  stream := stream
  gathered _ := by
    rw [reading, empty]
    exact .start
  blanks other := by
    rw [reading] at other
    cases other
  comparison first other := by
    rw [reading] at other
    cases other
  last other member := by
    rw [last] at member
    obtain rfl : token = other := Option.some.inj member
    rw [Follows, reading]
    exact ⟨word, fun _ => ⟨text, blank⟩⟩

/-- A scope can be closed if the innermost one is of an expected kind, and its stop is emitted. -/
theorem closeScope_eq_ok {found : Char} {expected : List ScopeKind} :
    scanner.closeScope found expected = .ok after ↔
      ∃ scope outer, scanner.scopes = scope :: outer ∧ scope.kind ∈ expected ∧
        after = { scanner with
          scopes := outer
          emitted := scanner.emitted.push scope.kind.stopToken } := by
  unfold closeScope
  cases scanner.scopes with
  | nil => simp
  | cons scope outer =>
      by_cases member : scope.kind ∈ expected
      · simp only [member, ↓reduceIte, Except.ok.injEq, List.cons.injEq]
        constructor
        · intro same
          exact ⟨scope, outer, ⟨rfl, rfl⟩, member, same.symm⟩
        · rintro ⟨_, _, ⟨rfl, rfl⟩, _, rfl⟩
          rfl
      · simp only [member, ↓reduceIte, reduceCtorEq, List.cons.injEq, false_iff]
        rintro ⟨_, _, ⟨rfl, rfl⟩, inside, _⟩
        exact member inside

/-- A scanner with a pending word, path, bracket or error code is sound. -/
theorem sound_of_pending (present : scanner.pending ≠ [])
    (stream : RawStream convention called scanner.emitted.toList scanner.kinds)
    (reading : scanner.reading = .errorCode ∨ Gathers convention scanner.pending scanner.reading)
    (last : ∀ token ∈ scanner.emitted.toList.getLast?, token.isWord = false) :
    scanner.Sound convention called := by
  have sort : scanner.reading = .errorCode ∨ scanner.reading.isOpen = true ∨
      scanner.reading = .path ∨ scanner.reading = .bracket :=
    reading.imp_right Gathers.reading_eq
  refine ⟨stream, fun isOpen => ?_, fun other => ?_, fun first other => ?_, fun token member => ?_⟩
  · rcases reading with code | gathered
    · simp [code, Reading.isOpen] at isOpen
    · exact gathered
  · simp [other, Reading.isOpen] at sort
  · simp [other, Reading.isOpen] at sort
  · have wordless := last token member
    rw [Follows]
    cases other : scanner.reading with
    | formula => exact ⟨wordless, fun empty => (present empty).elim⟩
    | blanks => simp [other, Reading.isOpen] at sort
    | text => simp [other, Reading.isOpen] at sort
    | textQuote => simp [other, Reading.isOpen] at sort
    | comparison first => trivial
    | _ => exact wordless

/-- A word that goes on keeps the scanner sound. -/
theorem Ready.push_sound (ready : scanner.Ready convention called c) {reading : Reading}
    (gathered : Gathers convention (c :: scanner.pending) reading) :
    ((scanner.push c).continueAs reading).Sound convention called :=
  sound_of_pending (List.cons_ne_nil c scanner.pending) ready.stream (.inr gathered)
    fun token member => (ready.last token member).1

/-- Whether a separator ends an argument is seen from the kinds of the open scopes. -/
theorem takeArguments_kinds : takeArguments scanner.kinds = scanner.scopes.inArguments := by
  unfold kinds ScopeStack.inArguments ScopeStack.innermost?
  cases scanner.scopes <;> rfl

/-- An opening parenthesis keeps the invariant of scanning, whether it opens a call or a
subexpression. -/
private theorem Ready.openParenthesis_sound (ready : scanner.Ready convention called c)
    (opening : c = '(') : scanner.openParenthesis.Sound convention called := by
  have meets {token : Token} (start : token.isStart = true) (plain : token.isText = false)
      (visible : token.kind ≠ .blank) : ∀ left ∈ scanner.emitted.toList.getLast?,
        ∀ right ∈ [token].head?, Abuts left right := by
    intro left leftMember right rightMember
    obtain rfl : token = right := Option.some.inj rightMember
    have wordless := (ready.last left leftMember).1
    exact ⟨by simp [wordless], fun _ => plain, fun _ => visible⟩
  unfold openParenthesis
  by_cases empty : scanner.pending = []
  · rw [if_pos (List.isEmpty_iff.mpr empty)]
    refine sound_of_closed (ScopeKind.subexpression.startToken []) ready.reading empty ?_ ?_ rfl rfl
      nofun
    · simp only [openScope, Array.toList_push]
      exact ready.stream.extend (.group .done) (.singleton _) (meets rfl rfl nofun)
    · simp [openScope]
  · rw [if_neg (by simpa using empty)]
    refine sound_of_closed (ScopeKind.function.startToken scanner.pending.reverse) ready.reading rfl
      ?_ ?_ rfl rfl nofun
    · simp only [openScope, Array.toList_push]
      exact ready.stream.extend (.call (ready.named opening empty) .done) (.singleton _)
        (meets rfl rfl nofun)
    · simp [openScope]

private theorem Ready.array_sound (ready : scanner.Ready convention called c) :
    (((scanner.flush .unknown).openScope .array arrayName).openScope .arrayRow
      arrayRowName).Sound convention called := by
  refine sound_of_closed (ScopeKind.arrayRow.startToken arrayRowName)
    (by simp [openScope, ready.reading]) (by simp [openScope]) ?_ (by simp [openScope]) rfl rfl
    nofun
  have scopes : (((scanner.flush .unknown).openScope .array arrayName).openScope .arrayRow
      arrayRowName).kinds = .arrayRow :: .array :: scanner.kinds := by
    simp [openScope, kinds]
  rw [scopes]
  simp only [openScope, Array.toList_push, List.append_assoc, List.cons_append, List.nil_append]
  refine (ready.flush_stream (.inr rfl)).extend (.array .done) (.cons_cons ?_ (.singleton _)) ?_
  · exact ⟨nofun, nofun, nofun⟩
  · intro left leftMember right rightMember
    obtain rfl : _ = right := Option.some.inj rightMember
    have wordless := (ready.flush_last_value left leftMember).1
    exact ⟨by simp [wordless], fun _ => rfl, fun _ => nofun⟩

private theorem Ready.closeScope_sound (ready : scanner.Ready convention called c)
    (closed : (scanner.flush .operand).closeScope c [.function, .subexpression] = .ok after) :
    after.Sound convention called := by
  obtain ⟨scope, outer, scopes, member, rfl⟩ := closeScope_eq_ok.mp closed
  rw [flush_scopes] at scopes
  refine sound_of_closed scope.kind.stopToken (by simp [ready.reading]) (by simp) ?_ (by simp)
    scope.kind.stopToken_isWord scope.kind.stopToken_isText scope.kind.stopToken_not_blank
  rw [Array.toList_push]
  have inner : scanner.kinds = scope.kind :: outer.map OpenScope.kind := by
    rw [kinds, scopes, List.map_cons]
  refine ready.flush_extend ?_ (.singleton _) (by simp [ScopeKind.stopToken_beginsValue])
    (by simp [ScopeKind.stopToken_not_blank])
  rw [inner]
  simp only [List.mem_cons, List.not_mem_nil, or_false] at member
  rcases member with function | subexpression
  · rw [function]
    exact .callEnd .done
  · rw [subexpression]
    exact .groupEnd .done

private theorem Ready.closeArray_sound (ready : scanner.Ready convention called c) {row : Scanner}
    (closedRow : (scanner.flush .operand).closeScope c [.arrayRow] = .ok row)
    (closedArray : row.closeScope c [.array] = .ok after) : after.Sound convention called := by
  obtain ⟨inner, under, scopes, isRow, rfl⟩ := closeScope_eq_ok.mp closedRow
  obtain ⟨scope, outer, rfl, isArray, rfl⟩ := closeScope_eq_ok.mp closedArray
  rw [flush_scopes] at scopes
  rw [List.mem_singleton] at isRow isArray
  have inside : scanner.kinds = .arrayRow :: .array :: outer.map OpenScope.kind := by
    rw [kinds, scopes, List.map_cons, List.map_cons, isRow, isArray]
  refine sound_of_closed scope.kind.stopToken (by simp [ready.reading]) (by simp) ?_ (by simp)
    scope.kind.stopToken_isWord scope.kind.stopToken_isText scope.kind.stopToken_not_blank
  simp only [Array.toList_push, List.append_assoc, List.cons_append, List.nil_append]
  refine ready.flush_extend ?_ (.cons_cons ?_ (.singleton _))
    (by simp [ScopeKind.stopToken_beginsValue]) (by simp [ScopeKind.stopToken_not_blank])
  · rw [inside, isRow, isArray]
    exact .arrayEnd .done
  · exact abuts_of_not_value scope.kind.stopToken_beginsValue
      fun blank => (inner.kind.stopToken_not_blank blank).elim

private theorem Ready.emit_sound (ready : scanner.Ready convention called c) {token : Token}
    (course : Leads convention (IsRaw (IsWord convention) (· ∈ errorCodes)) called scanner.kinds
      [token] scanner.kinds)
    (inert : token.beginsValue = false) (operand : token.isOperand = false)
    (visible : token.kind ≠ .blank) :
    ((scanner.flush .operand).emit token).Sound convention called := by
  have plain : (token.kind == .operand) = false := operand
  refine sound_of_closed token (by simp [emit, ready.reading]) (by simp [emit]) ?_
    (by simp [emit]) (by simp [Token.isWord, plain]) (by simp [Token.isText, plain]) visible
  have scopes : ((scanner.flush .operand).emit token).kinds = scanner.kinds := by
    rw [kinds, emit, flush_scopes, kinds]
  rw [scopes, emit, Array.toList_push]
  exact ready.flush_extend course (.singleton _) (by simpa using inert)
    (fun other member blank => by
      obtain rfl : token = other := Option.some.inj member
      exact (visible blank).elim)

private theorem Ready.nextRow_sound (ready : scanner.Ready convention called c)
    (us : convention = .us) (result : (scanner.flush .operand).nextRow = .ok after) :
    after.Sound convention called := by
  unfold nextRow at result
  by_cases inRow : (scanner.flush .operand).scopes.innermost? = some .arrayRow
  · rw [if_pos inRow] at result
    obtain ⟨closed, closing, opened⟩ := bind_eq_ok.mp result
    obtain ⟨scope, outer, scopes, isRow, rfl⟩ := closeScope_eq_ok.mp closing
    obtain rfl := pure_eq_ok.mp opened
    rw [flush_scopes] at scopes
    rw [List.mem_singleton] at isRow
    have inside : scanner.kinds = .arrayRow :: outer.map OpenScope.kind := by
      rw [kinds, scopes, List.map_cons, isRow]
    have stacked := ready.stream.leads.stacked .empty
    rw [inside] at stacked
    obtain ⟨under, array⟩ := stacked.under_row
    refine sound_of_closed (ScopeKind.arrayRow.startToken arrayRowName)
      (by simp [openScope, emit, ready.reading]) (by simp [openScope, emit]) ?_
      (by simp [openScope, emit]) rfl rfl nofun
    have reopened : (openScope (emit { scanner.flush .operand with
        scopes := outer
        emitted := (scanner.flush .operand).emitted.push scope.kind.stopToken }
          (argumentToken ';')) .arrayRow arrayRowName).kinds = .arrayRow :: .array :: under := by
      simp only [openScope, emit, kinds, List.map_cons, array]
    refine reopened.symm ▸ ?_
    simp only [openScope, emit, Array.toList_push, List.append_assoc, List.cons_append,
      List.nil_append]
    refine ready.flush_extend ?_ (.cons_cons ?_ (.cons_cons ?_ (.singleton _)))
      (by simp [ScopeKind.stopToken_beginsValue]) (by simp [ScopeKind.stopToken_not_blank])
    · rw [inside, array, isRow]
      exact .nextRow us .done
    · exact abuts_of_not_value rfl fun blank => (scope.kind.stopToken_not_blank blank).elim
    · exact ⟨nofun, nofun, nofun⟩
  · rw [if_neg inRow] at result
    obtain rfl := Except.ok.inj result
    exact ready.emit_sound (.plain (.unknown (.inr rfl)) .done) rfl rfl nofun

private theorem Ready.separate_sound (ready : scanner.Ready convention called c)
    (separator : c = convention.separator) :
    ((scanner.flush .operand).separate c).Sound convention called := by
  unfold separate
  rw [flush_scopes, ← takeArguments_kinds]
  subst separator
  by_cases inside : takeArguments scanner.kinds = true
  · rw [if_pos inside]
    exact ready.emit_sound (.argument inside .done) rfl rfl nofun
  · rw [if_neg inside]
    exact ready.emit_sound (.union (by simpa using inside) .done) rfl rfl nofun

private theorem Ready.blank_sound (ready : scanner.Ready convention called c)
    (blank : Text.isBlank c = true) :
    (((scanner.flush .operand).emit { value := [' '], kind := .blank }).continueAs
      .blanks).Sound convention called := by
  refine ⟨?_, nofun, fun _ => by simp [emit, continueAs], nofun, fun token member => ?_⟩
  · have scopes : (((scanner.flush .operand).emit { value := [' '], kind := .blank }).continueAs
        .blanks).kinds = scanner.kinds := by
      rw [kinds, continueAs, emit, flush_scopes, kinds]
    rw [scopes, continueAs, emit, Array.toList_push]
    exact ready.flush_extend (.plain .blank .done) (.singleton _) (by simp [Token.beginsValue,
      Token.isOperand, Token.isStart]) fun _ _ _ => blank
  · simp only [continueAs, emit, Array.toList_push, List.getLast?_concat] at member
    obtain rfl : _ = token := Option.some.inj member
    exact ⟨rfl, rfl⟩

private theorem Ready.text_sound (ready : scanner.Ready convention called c) (quote : c = '"') :
    ((scanner.flush .unknown).continueAs .text).Sound convention called := by
  refine ⟨?_, nofun, nofun, nofun, fun token member => ?_⟩
  · simpa [continueAs, kinds] using ready.flush_stream (.inr rfl)
  · obtain ⟨word, text⟩ := ready.flush_last_value token member
    exact ⟨word, by simpa using fun isText => text isText quote⟩

private theorem Ready.comparison_sound (ready : scanner.Ready convention called c)
    (mark : c = '<' ∨ c = '>') :
    ((scanner.flush .operand).continueAs (.comparison c)).Sound convention called := by
  refine ⟨?_, nofun, nofun, fun first same => ?_, fun _ _ => trivial⟩
  · simpa [continueAs, kinds] using ready.flush_stream (.inl rfl)
  · obtain rfl : c = first := Reading.comparison.inj same
    exact ⟨by simp [continueAs], mark⟩

/-- Reading a character on its own keeps the invariant of scanning. -/
private theorem Ready.turns_sound (ready : scanner.Ready convention called c)
    (turn : scanner.Turns convention c after) : after.Sound convention called := by
  obtain ⟨reading, isOpen, gathered⟩ := ready.gathered
  have same (character : Char) :
      (scanner.push character).continueAs .formula = scanner.push character := by
    rw [continueAs, ← ready.reading]
    rfl
  cases turn with
  | exponent sign awaited =>
      exact same c ▸ ready.push_sound (.exponent sign awaited isOpen gathered)
  | text quote => exact ready.text_sound quote
  | path quote =>
      refine sound_of_pending (List.cons_ne_nil _ _) ?_ (.inr ?_)
        fun token member => (ready.flush_last_value token member).1
      · simpa [continueAs, push, kinds] using ready.flush_stream (.inr rfl)
      · simp only [continueAs, push, flush_pending, quote]
        exact .pathStart
  | bracket opening =>
      subst opening
      exact ready.push_sound (.bracketStart isOpen gathered)
  | errorCode mark =>
      refine sound_of_pending (List.cons_ne_nil _ _) ?_ (.inl rfl)
        fun token member => (ready.flush_last_value token member).1
      simpa [continueAs, push, kinds] using ready.flush_stream (.inr rfl)
  | array opening => exact ready.array_sound
  | arrayEnd closing closedRow closedArray => exact ready.closeArray_sound closedRow closedArray
  | blank blank => exact ready.blank_sound blank
  | comparison mark => exact ready.comparison_sound mark
  | operator mark single => exact ready.emit_sound (.plain (.operator mark) .done) rfl rfl (by simp)
  | percent mark =>
      subst mark
      exact ready.emit_sound (.plain .percent .done) rfl rfl (by simp)
  | opened opening => exact ready.openParenthesis_sound opening
  | closed closing closed => exact ready.closeScope_sound closed
  | separator separator => exact ready.separate_sound separator
  | row semicolon us result => exact ready.nextRow_sound us result
  | ordinary ordinary => exact same c ▸ ready.push_sound (.ordinary ordinary isOpen gathered)

/-- The last token before a pending text, path, bracket or error code is no word. -/
theorem Sound.last_not_word (sound : scanner.Sound convention called)
    (reading : ∀ first, scanner.reading ≠ .comparison first) :
    ∀ token ∈ scanner.emitted.toList.getLast?, token.isWord = false := by
  intro token member
  have follows := sound.last token member
  unfold Follows at follows
  cases sort : scanner.reading with
  | comparison first => exact (reading first sort).elim
  | formula => simp only [sort] at follows; exact follows.1
  | blanks => simp only [sort] at follows; exact follows.1
  | text => simp only [sort] at follows; exact follows.1
  | textQuote => simp only [sort] at follows; exact follows.1
  | _ => simpa only [sort] using follows

/-- Inside a text only the pending characters change. -/
theorem Sound.inside_text (sound : scanner.Sound convention called)
    (reading : scanner.reading = .text ∨ scanner.reading = .textQuote) (pending : List Char)
    {next : Reading} (inside : next = .text ∨ next = .textQuote) :
    ({ scanner with pending := pending, reading := next } : Scanner).Sound convention called := by
  have room : ∀ token ∈ scanner.emitted.toList.getLast?,
      token.isWord = false ∧ token.isText = false := by
    intro token member
    have follows := sound.last token member
    rcases reading with reading | reading <;> simpa only [Follows, reading] using follows
  rcases inside with rfl | rfl
  · exact ⟨sound.stream, nofun, nofun, nofun, room⟩
  · exact ⟨sound.stream, nofun, nofun, nofun, room⟩

/-- A character that goes on with what the scanner is reading keeps the invariant of scanning. -/
private theorem Sound.continues (sound : scanner.Sound convention called)
    (continues : scanner.Continues c after) : after.Sound convention called := by
  have word {reading : Reading} (gathers : Gathers convention (c :: scanner.pending) reading)
      (other : ∀ first, scanner.reading ≠ .comparison first) :
      ((scanner.push c).continueAs reading).Sound convention called :=
    sound_of_pending (List.cons_ne_nil _ _) sound.stream (.inr gathers) (sound.last_not_word other)
  have same {reading : Reading} (current : scanner.reading = reading) :
      (scanner.push c).continueAs reading = scanner.push c := by
    rw [continueAs, ← current]
    rfl
  cases continues with
  | blank reading blank => exact sound
  | @comparison first reading pair =>
      obtain ⟨empty, _⟩ := sound.comparison first reading
      refine sound_of_closed ⟨[first, c], .infixOperator, none⟩ rfl empty ?_ ?_ rfl rfl (by simp)
      · simp only [continueAs, emit, Array.toList_push]
        exact sound.stream.extend (.plain (.comparison pair) .done) (.singleton _)
          fun left _ right member => by
            obtain rfl : _ = right := Option.some.inj member
            exact abuts_of_not_value rfl fun _ => by simp
      · simp [continueAs, emit]
  | text reading inside =>
      rw [← same reading]
      exact sound.inside_text (.inl reading) (c :: scanner.pending) (.inl rfl)
  | quote reading quote => exact sound.inside_text (.inl reading) scanner.pending (.inr rfl)
  | doubledQuote reading quote =>
      exact sound.inside_text (.inr reading) (c :: scanner.pending) (.inl rfl)
  | path reading inside =>
      have gathers := sound.gathered (.inr (.inl reading))
      rw [reading] at gathers
      rw [← same reading]
      exact word (.path inside gathers) (by simp [reading])
  | pathEnd reading quote =>
      have gathers := sound.gathered (.inr (.inl reading))
      rw [reading] at gathers
      exact word (quote ▸ .pathEnd gathers) (by simp [reading])
  | doubledPathQuote reading quote =>
      have gathers := sound.gathered (.inl (by rw [reading]; rfl))
      rw [reading] at gathers
      exact word (quote ▸ .doubledQuote gathers) (by simp [reading])
  | bracket reading inside =>
      have gathers := sound.gathered (.inr (.inr reading))
      rw [reading] at gathers
      rw [← same reading]
      exact word (.bracket inside gathers) (by simp [reading])
  | bracketEnd reading closing =>
      have gathers := sound.gathered (.inr (.inr reading))
      rw [reading] at gathers
      exact word (closing ▸ .bracketEnd gathers) (by simp [reading])
  | errorCode reading incomplete =>
      exact sound_of_pending (List.cons_ne_nil _ _) sound.stream (.inl reading)
        (sound.last_not_word (by simp [reading]))
  | errorCodeEnd reading complete =>
      refine sound_of_closed ⟨(c :: scanner.pending).reverse, .operand, some .error⟩ rfl rfl ?_ ?_
        rfl rfl (by simp)
      · simp only [continueAs, emitPending, push, Array.toList_push]
        refine sound.stream.extend (.plain (.code complete) .done) (.singleton _) ?_
        intro left leftMember right member
        obtain rfl : _ = right := Option.some.inj member
        have wordless := sound.last_not_word (by simp [reading]) left leftMember
        exact ⟨by simp [wordless], fun _ => rfl, fun _ => by simp⟩
      · simp [continueAs, emitPending, push]

/-- A sound scanner is ready for a character that does not go on with what it is reading. -/
theorem Sound.ready (sound : scanner.Sound convention called) (resumes : scanner.Resumes c)
    (named : ∀ name ∈ scanner.callName c, called name) :
    scanner.resume.Ready convention called c := by
  cases sort : scanner.reading with
  | formula =>
      have gathers := sound.gathered (.inl (by rw [sort]; rfl))
      simp only [resume, sort]
      refine ⟨sound.stream, rfl, ⟨_, by rw [sort]; rfl, gathers⟩, fun opening present => ?_, ?_⟩
      · exact named _ (by simp [callName, sort, Reading.isOpen, opening,
          show scanner.pending ≠ [] from present, continueAs])
      · intro token member
        have follows := sound.last token member
        simp only [Follows, sort] at follows
        refine ⟨follows.1, fun empty => ⟨fun isText => ?_, fun blank => ?_⟩⟩
        · rw [(follows.2 empty).1] at isText
          cases isText
        · exact ((follows.2 empty).2 blank).elim
  | blanks =>
      have empty := sound.blanks sort
      rw [Resumes, sort] at resumes
      simp only [resume, sort]
      refine ⟨sound.stream, rfl, ⟨.formula, rfl, ?_⟩, fun _ present => (present empty).elim, ?_⟩
      · simp only [continueAs, empty]
        exact .start
      · intro token member
        have follows := sound.last token member
        simp only [Follows, sort] at follows
        exact ⟨follows.1, fun _ => ⟨by simp [follows.2], fun _ => resumes⟩⟩
  | comparison first =>
      obtain ⟨empty, mark⟩ := sound.comparison first sort
      simp only [resume, sort]
      refine ⟨?_, rfl, ⟨.formula, rfl, ?_⟩, fun _ present => (present empty).elim, ?_⟩
      · simp only [continueAs, emit, Array.toList_push]
        refine sound.stream.extend (.plain (.operator ?_) .done) (.singleton _) ?_
        · rcases mark with rfl | rfl <;> decide
        · intro left _ right member
          obtain rfl : _ = right := Option.some.inj member
          exact abuts_of_not_value rfl fun _ => by simp
      · simp only [continueAs, emit, empty]
        exact .start
      · intro token member
        simp only [continueAs, emit, Array.toList_push, List.getLast?_concat] at member
        obtain rfl : _ = token := Option.some.inj member
        exact ⟨rfl, fun _ => ⟨by simp [Token.isText], by simp⟩⟩
  | textQuote =>
      rw [Resumes, sort] at resumes
      simp only [resume, sort]
      refine ⟨?_, rfl, ⟨.formula, rfl, .start⟩, fun _ present => (present rfl).elim, ?_⟩
      · simp only [endText, continueAs, emitPending, Array.toList_push]
        refine sound.stream.extend (.plain (.text _) .done) (.singleton _) ?_
        intro left leftMember right member
        obtain rfl : _ = right := Option.some.inj member
        have follows := sound.last left leftMember
        simp only [Follows, sort] at follows
        exact ⟨by simp [follows.1], by simp [follows.2], fun _ => by simp⟩
      · intro token member
        simp only [endText, continueAs, emitPending, Array.toList_push,
          List.getLast?_concat] at member
        obtain rfl : _ = token := Option.some.inj member
        exact ⟨rfl, fun _ => ⟨fun _ => resumes, by simp⟩⟩
  | pathQuote =>
      have gathers := sound.gathered (.inl (by rw [sort]; rfl))
      simp only [resume, sort]
      refine ⟨sound.stream, rfl, ⟨_, by rw [sort]; rfl, gathers⟩, fun opening present => ?_, ?_⟩
      · exact named _ (by simp [callName, sort, Reading.isOpen, opening,
          show scanner.pending ≠ [] from present, continueAs])
      · intro token member
        have wordless := sound.last_not_word (by simp [sort]) token member
        refine ⟨wordless, fun empty => ?_⟩
        rw [show scanner.pending = [] from empty, sort] at gathers
        cases gathers
  | _ =>
      rw [Resumes, sort] at resumes
      exact resumes.elim

/-- A step keeps the invariant of scanning. -/
theorem Sound.step (sound : scanner.Sound convention called)
    (named : ∀ name ∈ scanner.callName c, called name)
    (result : scanner.step convention c = .ok after) : after.Sound convention called := by
  obtain ⟨scanned, read, rfl⟩ := step_eq_ok.mp result
  rcases read_cases read with continues | ⟨resumes, alone⟩
  · exact (sound.continues continues).past
  · exact ((sound.ready resumes named).turns_sound (turns_of_readFormula alone)).past

/-- Reading a text keeps the invariant of scanning, if the names that it calls are allowed. -/
theorem Sound.run (sound : scanner.Sound convention called) {text : List Char}
    (named : ∀ name ∈ scanner.callNames convention text, called name)
    (result : scanner.run convention text = .ok after) : after.Sound convention called := by
  induction text generalizing scanner with
  | nil => exact Except.ok.inj result ▸ sound
  | cons c rest ih =>
      obtain ⟨next, stepped, ran⟩ := run_cons_eq_ok.mp result
      simp only [callNames, stepped, List.mem_append] at named
      exact ih (sound.step (fun name member => named name (.inl member)) stepped)
        (fun name member => named name (.inr member)) ran

end Scanner

end SheetFormula
