import SheetFormula.Emit
import SheetFormula.Proofs.Render.Minify
import SheetFormula.Proofs.Script.Form

/-!
# Frames and scopes

A script is written token by token, with a stack of frames for what the open scopes become and a
second stack of scopes in the page.  The page's stack has no influence on the text
(`TemplateSet.script_renderToken`), and the topmost frame always holds the state of the innermost
scope (`Script.Holds`): how many separators it has met and whether it is empty.  So the text is that
of the forest of the tokens (`toScript_structural`).
-/

namespace SheetFormula

/-- What a rendition makes of a token in a script. -/
def Rendition.text (token : Token) : Rendition → List Char
  | .literal text => text
  | .token text => (TemplateSet.inlineTemplate (.of token none)).apply text [] []
  | .plain => token.spelled

namespace TemplateSet

variable {page after : Page} {token : Token} {next : Option Token}

private theorem script_writeThrough {case : RenderCase} {text : List Char}
    (written : script.writeThrough page case token next text = .ok after) :
    after.text = page.text ++ (inlineTemplate case).apply text [] [] := by
  obtain ⟨template, found, added⟩ := bind_eq_ok.mp written
  obtain rfl : inlineTemplate case = template := Except.ok.inj found
  obtain rfl := pure_eq_ok.mp added
  have level : (inlineTemplate case).freshLine = false := by cases case <;> rfl
  rw [level, if_neg Bool.false_ne_true, Page.write_text, inlineTemplate_apply]

private theorem script_renderToken {rendition : Rendition}
    (written : script.renderToken page token rendition next = .ok after) :
    after.text = page.text ++ rendition.text token := by
  obtain ⟨placed, result, entered⟩ := bind_eq_ok.mp written
  obtain rfl := pure_eq_ok.mp entered
  have stays : (page.leave token).text = page.text := by simp [Page.text]
  have moved : placed.text = page.text ++ rendition.text token := by
    rw [← stays]
    cases rendition with
    | literal text =>
        obtain rfl := Except.ok.inj result
        exact Page.write_text text
    | token text =>
        rw [script_writeThrough result, (inlineTemplate_scope token _).1]
        rfl
    | plain =>
        rw [script_writeThrough result]
        exact congrArg _ (inlineTemplate_of token _)
  rw [← moved]
  simp [Page.text]

end TemplateSet

namespace Script

variable {convention : Convention}

/-- The texts of tokens between open frames, one after the other. -/
def textFrom (convention : Convention) (frames : List Frame) : List Token → List Char
  | [] => []
  | token :: rest =>
      let (rendition, frames) := renditionStep convention frames token
      rendition.text token ++ textFrom convention frames rest

private theorem renderOnto_text {page after : Page} {frames : List Frame} {tokens : List Token}
    (written : TemplateSet.script.renderOnto page
      (tokens.zip (renditionsFrom convention frames tokens)) = .ok after) :
    after.text = page.text ++ textFrom convention frames tokens := by
  induction tokens generalizing page frames with
  | nil =>
      obtain rfl := Except.ok.inj written
      exact (List.append_nil _).symm
  | cons token rest ih =>
      obtain ⟨one, first, others⟩ := bind_eq_ok.mp written
      rw [ih others, TemplateSet.script_renderToken first, List.append_assoc]
      rfl

/-- A script consists of the texts of the tokens, without the blanks around it. -/
theorem toScript_eq {language : ScriptLanguage} {formula : List Char} {tokens : List Token}
    (read : tokenize convention formula = .ok tokens) :
    toScript convention language formula = .ok (Text.trim (textFrom convention [] tokens)) := by
  obtain ⟨after, written⟩ := @TemplateSet.renderOnto_total TemplateSet.script {} (fun _ => nofun)
    (tokens.zip (renditions convention tokens))
  refine bind_eq_ok.mpr ⟨tokens, read, bind_eq_ok.mpr ⟨after, written, pure_eq_ok.mpr ?_⟩⟩
  rw [renderOnto_text written]
  exact List.append_nil _

/-- The frames hold the state of a scope of the form, directly in which `seen` separators have been
met, or anything at all if `empty` is false, on top of the frames of the scopes around it. -/
inductive Holds : ScriptForm → Nat → Bool → List Frame → List Frame → Prop where
  | ternary {seen : Nat} {empty : Bool} {outer : List Frame} :
      Holds .ternary seen empty (.conditional seen :: outer) outer
  | chain {joiner : Joiner} {seen : Nat} {empty : Bool} {outer : List Frame} :
      Holds (.chain joiner) seen empty (.chain joiner empty :: outer) outer
  | brackets {seen : Nat} {empty : Bool} {outer : List Frame} :
      Holds .brackets seen empty (.array :: outer) outer
  | call {name : List Char} {seen : Nat} {empty : Bool} {outer : List Frame} :
      Holds (.call name) seen empty (.call :: outer) outer
  | group {seen : Nat} {empty : Bool} {outer : List Frame} :
      Holds (.call []) seen empty (.group :: outer) outer
  | outermost {seen : Nat} {empty : Bool} : Holds (.call []) seen empty [] []

namespace Holds

variable {form : ScriptForm} {seen : Nat} {empty : Bool} {frames outer : List Frame} {token : Token}

/-- The frames after the content of the scope has been noted. -/
theorem note (holds : Holds form seen empty frames outer) (token : Token) :
    Holds form seen (empty && token.isStop) (noteContent token frames) outer := by
  cases holds with
  | ternary => exact .ternary
  | chain => exact .chain
  | brackets => exact .brackets
  | call => exact .call
  | group => exact .group
  | outermost => exact .outermost

private theorem separator (holds : Holds form seen empty frames outer) :
    separatorText frames.head? = form.separator seen ∧
      Holds form (seen + 1) empty (countSeparator frames) outer := by
  cases holds with
  | ternary =>
      refine ⟨?_, .ternary⟩
      match seen with
      | 0 => rfl
      | 1 => rfl
      | seen + 2 => rfl
  | @chain joiner => exact ⟨by cases joiner <;> rfl, .chain⟩
  | brackets => exact ⟨rfl, .brackets⟩
  | call => exact ⟨rfl, .call⟩
  | group => exact ⟨rfl, .group⟩
  | outermost => exact ⟨rfl, .outermost⟩

private theorem cells (holds : Holds form seen empty frames outer) (range : CellRange) :
    expandedRange frames.head? range = form.cells range := by
  cases holds with
  | @chain joiner => cases joiner <;> rfl
  | _ => rfl

private theorem range (holds : Holds form seen empty frames outer) (value : List Char) :
    (rangeRendition frames.head? value).text ⟨value, .operand, some .range⟩ =
      form.rangeText value := by
  have plain : Token.spelled ⟨value, .operand, some .range⟩ = value := bare_apply value
  rw [rangeRendition, ScriptForm.rangeText]
  cases CellRange.parse? value with
  | some range =>
      by_cases small : range.size ≤ 1024
      · simp only [expansionLimit, small, ↓reduceIte]
        exact holds.cells range
      · simp only [expansionLimit, small, ↓reduceIte]
        exact plain
  | none =>
      cases Cell.parse? value with
      | some cell =>
          by_cases dollar : '$' ∈ value
          · simp only [dollar, ↓reduceIte]
            exact bare_apply cell.display
          · simp only [dollar, ↓reduceIte]
            exact plain
      | none => exact plain

end Holds

private theorem named_counterpart {name counterpart : List Char}
    (found : counterparts.lookup name = some counterpart) :
    ScriptForm.named.lookup name = some (.call counterpart) := by
  obtain ⟨_, _, split, _⟩ := List.lookup_eq_some_iff.mp found
  have member : (name, counterpart) ∈ counterparts := by simp [split]
  simp only [counterparts, List.mem_cons, Prod.mk.injEq, List.not_mem_nil, or_false] at member
  rcases member with ⟨rfl, rfl⟩ | ⟨rfl, rfl⟩ | ⟨rfl, rfl⟩ | ⟨rfl, rfl⟩ | ⟨rfl, rfl⟩ <;> rfl

/-- A start opens a scope of its form. -/
theorem openCall_spec {start : Token} (function : start.kind = .function)
    (opens : start.isStart = true) :
    (openCall (Text.asciiUpper start.value)).2.text start = (ScriptForm.ofStart start).opening ∧
      ∀ outer, Holds (.ofStart start) 0 true
        ((openCall (Text.asciiUpper start.value)).1 :: outer) outer := by
  have own {form : ScriptForm} {name : List Char} (same : Text.asciiUpper start.value = name)
      (found : ScriptForm.named.lookup name = some form) : ScriptForm.ofStart start = form := by
    simp [ScriptForm.ofStart, function, same, found]
  unfold openCall
  by_cases array : Text.asciiUpper start.value = arrayName ∨
      Text.asciiUpper start.value = arrayRowName
  · rw [if_pos array, array.elim (own · rfl) (own · rfl)]
    exact ⟨rfl, fun _ => .brackets⟩
  rw [if_neg array]
  by_cases condition : Text.asciiUpper start.value = "IF".toList
  · rw [if_pos condition, own condition rfl]
    exact ⟨rfl, fun _ => .ternary⟩
  rw [if_neg condition]
  by_cases conjunction : Text.asciiUpper start.value = "AND".toList
  · rw [if_pos conjunction, own conjunction rfl]
    exact ⟨rfl, fun _ => .chain⟩
  rw [if_neg conjunction]
  by_cases disjunction : Text.asciiUpper start.value = "OR".toList
  · rw [if_pos disjunction, own disjunction rfl]
    exact ⟨rfl, fun _ => .chain⟩
  rw [if_neg disjunction]
  by_cases sum : Text.asciiUpper start.value = "SUM".toList
  · rw [if_pos sum, own sum rfl]
    exact ⟨rfl, fun _ => .chain⟩
  rw [if_neg sum]
  by_cases negation : Text.asciiUpper start.value = "NOT".toList
  · rw [if_pos negation, own negation rfl]
    exact ⟨rfl, fun _ => .call⟩
  rw [if_neg negation]
  -- What is left of the names is called, each under its own name or under another.
  obtain ⟨value, kind, role⟩ := start
  obtain rfl : kind = .function := function
  obtain rfl : role = some .start := eq_of_beq opens
  have ordinary : RenderCase.of ⟨value, .function, some .start⟩ none = .functionStart := by
    have whole : value ≠ arrayName := by
      rintro rfl
      exact array (.inl rfl)
    have row : value ≠ arrayRowName := by
      rintro rfl
      exact array (.inr rfl)
    simp [RenderCase.of, RenderCase.ofFunctionStart, whole, row]
  cases found : counterparts.lookup (Text.asciiUpper value) with
  | some counterpart =>
      rw [own rfl (named_counterpart found)]
      refine ⟨?_, fun _ => .call⟩
      change (TemplateSet.inlineTemplate (RenderCase.of _ none)).apply counterpart [] [] = _
      rw [ordinary]
      exact List.append_nil _
  | none =>
      have unnamed : ScriptForm.named.lookup (Text.asciiUpper value) = none := by
        obtain ⟨whole, row⟩ := not_or.mp array
        rw [List.lookup_eq_none_iff] at found ⊢
        simp only [counterparts, List.forall_mem_cons, bne_iff_ne] at found
        simp only [ScriptForm.named, List.forall_mem_cons, bne_iff_ne]
        exact ⟨condition, conjunction, disjunction, sum, negation, found.1, found.2.1, found.2.2.1,
          found.2.2.2.1, found.2.2.2.2.1, whole, row, by simp⟩
      have self : ScriptForm.ofStart ⟨value, .function, some .start⟩ = .call value := by
        simp [ScriptForm.ofStart, unnamed]
      rw [self]
      refine ⟨?_, fun _ => .call⟩
      change (TemplateSet.inlineTemplate (RenderCase.of _ none)).apply
        (TemplateSet.minify.tokenText (RenderCase.of _ none) _) [] [] = _
      rw [ordinary]
      exact List.append_nil _

private theorem infixRendition_text {value : List Char} {role : Option TokenRole}
    (joins : RenderCase.ofInfix role = .operatorInfix) :
    (infixRendition value).text ⟨value, .infixOperator, role⟩ =
      (scriptOperators.lookup value).getD value := by
  have through (text : List Char) :
      (TemplateSet.inlineTemplate (.of ⟨value, .infixOperator, role⟩ none)).apply text [] [] =
        text := by
    change (TemplateSet.inlineTemplate (.ofInfix role)).apply text [] [] = text
    rw [joins]
    exact bare_apply text
  unfold infixRendition
  by_cases equal : value = "=".toList
  · subst equal
    exact through _
  by_cases unequal : value = "<>".toList
  · subst unequal
    exact through _
  by_cases append : value = "&".toList
  · subst append
    exact through _
  by_cases power : value = "^".toList
  · subst power
    exact through _
  have unnamed : scriptOperators.lookup value = none := by
    simp only [scriptOperators, List.lookup_eq_none_iff, List.forall_mem_cons, bne_iff_ne]
    exact ⟨equal, unequal, append, power, by simp⟩
  rw [if_neg equal, if_neg unequal, if_neg append, if_neg power, unnamed]
  change (TemplateSet.inlineTemplate (.ofInfix role)).apply
    (TemplateSet.minify.tokenText (.ofInfix role) _) [] [] = value
  rw [joins]
  exact bare_apply value

private theorem Holds.operand {form : ScriptForm} {seen : Nat} {empty : Bool}
    {frames outer : List Frame} (holds : Holds form seen empty frames outer) (value : List Char)
    (role : Option TokenRole) :
    (operandRendition convention frames.head? ⟨value, .operand, role⟩).text
      ⟨value, .operand, role⟩ = form.leaf convention ⟨value, .operand, role⟩ := by
  cases role with
  | none => exact bare_apply value
  | some role =>
      cases role with
      | text => rfl
      | logical => exact bare_apply _
      | number => cases convention <;> exact bare_apply _
      | range => exact holds.range value
      | _ => exact bare_apply value

variable (convention)

/-- Any other token is written in the same way everywhere directly in the scope. -/
theorem Holds.leaf {form : ScriptForm} {seen : Nat} {empty : Bool} {frames outer : List Frame}
    {token : Token} (holds : Holds form seen empty frames outer) (start : token.isStart = false)
    (stop : token.isStop = false) (plain : token.isArgument = false) :
    (renditionStep convention frames token).1.text token = form.leaf convention token ∧
      Holds form seen false (renditionStep convention frames token).2 outer := by
  have noted := holds.note token
  rw [stop, Bool.and_false] at noted
  obtain ⟨value, kind, role⟩ := token
  cases kind with
  | operand => exact ⟨noted.operand value role, noted⟩
  | argument => cases plain
  | infixOperator =>
      cases role with
      | none => exact ⟨infixRendition_text rfl, noted⟩
      | some role =>
          cases role with
          | intersect => exact ⟨rfl, noted⟩
          | union => exact ⟨bare_apply value, noted⟩
          | _ => exact ⟨infixRendition_text rfl, noted⟩
  | postfixOperator =>
      refine ⟨?_, noted⟩
      by_cases percent : value = ['%']
      · subst percent
        rfl
      · change (if value = ['%'] then _ else _ : Rendition).text _ = if value = ['%'] then _ else _
        rw [if_neg percent, if_neg percent]
        exact bare_apply value
  | function | subexpression =>
      cases role with
      | none => exact ⟨bare_apply value, noted⟩
      | some role =>
          cases role with
          | start => cases start
          | stop => cases stop
          | _ => exact ⟨bare_apply value, noted⟩
  | _ => exact ⟨bare_apply value, noted⟩

/-- A separator is written as the form has it, by the number of those before it. -/
theorem Holds.argument {form : ScriptForm} {seen : Nat} {empty : Bool} {frames outer : List Frame}
    {token : Token} (holds : Holds form seen empty frames outer)
    (separates : token.isArgument = true) (stop : token.isStop = false) :
    (renditionStep convention frames token).1.text token = form.separator seen ∧
      Holds form (seen + 1) false (renditionStep convention frames token).2 outer := by
  have noted := holds.note token
  rw [stop, Bool.and_false] at noted
  obtain ⟨value, kind, role⟩ := token
  obtain rfl : kind = .argument := eq_of_beq separates
  exact noted.separator

/-- A start is written as the opening of its form, whose frame comes on top. -/
theorem renditionStep_start {frames : List Frame} {start : Token} (opens : start.isStart = true)
    (kinds : start.kind = .function ∨ start.kind = .subexpression) :
    (renditionStep convention frames start).1.text start = (ScriptForm.ofStart start).opening ∧
      Holds (.ofStart start) 0 true (renditionStep convention frames start).2
        (noteContent start frames) := by
  obtain ⟨value, kind, role⟩ := start
  obtain rfl : role = some .start := eq_of_beq opens
  rcases kinds with rfl | rfl
  · obtain ⟨text, holds⟩ := @openCall_spec ⟨value, .function, some .start⟩ rfl rfl
    exact ⟨text, holds _⟩
  · exact ⟨rfl, .group⟩

/-- The stop of a scope writes the closing text of the form and gives the frames around it back. -/
private theorem Holds.close {form : ScriptForm} {content : Forest} {frames outer : List Frame}
    {stop : Token} (holds : Holds form content.separators content.isEmpty frames outer)
    (plain : form ≠ .brackets → stop.spelled = ")".toList) :
    (closeRendition frames.head?).text stop = form.closing content ∧ frames.tail = outer := by
  cases holds with
  | ternary =>
      refine ⟨?_, rfl⟩
      change (closeRendition (some (.conditional content.separators))).text stop =
        if content.separators = 1 then _ else _
      generalize content.separators = separators
      match separators with
      | 0 => exact plain (by simp)
      | 1 => rfl
      | separators + 2 =>
          rw [if_neg (by omega)]
          exact plain (by simp)
  | @chain joiner =>
      refine ⟨?_, rfl⟩
      unfold ScriptForm.closing
      cases content.isEmpty with
      | true => cases joiner <;> rfl
      | false => cases joiner <;> exact plain (by simp)
  | brackets => exact ⟨rfl, rfl⟩
  | call => exact ⟨plain (by simp), rfl⟩
  | group => exact ⟨plain (by simp), rfl⟩
  | outermost => exact ⟨plain (by simp), rfl⟩

/-- A stop is written as the closing of the form around it, whose frame goes. -/
theorem Holds.stop {start stop : Token} {content : Forest} {frames outer : List Frame}
    (holds : Holds (.ofStart start) content.separators content.isEmpty frames outer)
    (bounds : Forest.Encloses start content stop)
    (kinds : start.kind = .function ∨ start.kind = .subexpression) :
    (renditionStep convention frames stop).1.text stop =
      (ScriptForm.ofStart start).closing content ∧
      (renditionStep convention frames stop).2 = outer := by
  obtain ⟨value, kind, role⟩ := stop
  obtain rfl : role = some .stop := eq_of_beq bounds.closes
  have same : kind = start.kind := bounds.kind
  have noted : Holds (.ofStart start) content.separators content.isEmpty
      (noteContent ⟨value, kind, some .stop⟩ frames) outer := by
    rw [← Bool.and_true content.isEmpty]
    exact holds.note ⟨value, kind, some .stop⟩
  have plain (unbracketed : ScriptForm.ofStart start ≠ .brackets) :
      Token.spelled ⟨value, kind, some .stop⟩ = ")".toList := by
    rcases kinds with function | group
    · obtain rfl := same.trans function
      have whole : value ≠ arrayStopName := by
        intro stops
        apply unbracketed
        simp only [ScriptForm.ofStart, function, (bounds.array stops).1]
        rfl
      have row : value ≠ arrayRowStopName := by
        intro stops
        apply unbracketed
        simp only [ScriptForm.ofStart, function, bounds.row stops]
        rfl
      have ordinary : RenderCase.of ⟨value, .function, some .stop⟩ none = .functionStop := by
        simp [RenderCase.of, RenderCase.ofFunctionStop, whole, row]
      rw [Token.spelled, ordinary]
      rfl
    · obtain rfl := same.trans group
      rfl
  have step : renditionStep convention frames ⟨value, kind, some .stop⟩ =
      (closeRendition (noteContent ⟨value, kind, some .stop⟩ frames).head?,
        (noteContent ⟨value, kind, some .stop⟩ frames).tail) := by
    rcases kinds with function | group
    · obtain rfl := same.trans function
      rfl
    · obtain rfl := same.trans group
      rfl
  rw [step]
  exact noted.close plain

end Script

namespace Forest

variable {convention : Convention} {forest : Forest} {form : ScriptForm} {seen : Nat} {empty : Bool}
  {frames outer : List Frame}

/-- The frames of a scope and the recursion over its content agree on what is written, whatever
comes after the content. -/
theorem Proper.textFrom (proper : forest.Proper)
    (kinds : ∀ token ∈ forest.tokens, token.isStart = true →
      token.kind = .function ∨ token.kind = .subexpression)
    (holds : Script.Holds form seen empty frames outer) (more : List Token) :
    ∃ after, Script.Holds form (seen + forest.separators) (empty && forest.isEmpty) after outer ∧
      Script.textFrom convention frames (forest.tokens ++ more) =
        forest.script convention form seen ++ Script.textFrom convention after more := by
  induction proper generalizing form seen empty frames outer more with
  | nil =>
      refine ⟨frames, ?_, rfl⟩
      rwa [separators, isEmpty, Nat.add_zero, Bool.and_true]
  | @leaf token rest start stop after ih =>
      obtain ⟨_, restKinds⟩ := List.forall_mem_cons.mp kinds
      rw [isEmpty, Bool.and_false, separators, script]
      cases plain : token.isArgument with
      | true =>
          obtain ⟨text, counted⟩ := holds.argument convention plain stop
          obtain ⟨last, lastHolds, written⟩ := ih restKinds counted more
          refine ⟨last, ?_, ?_⟩
          · rwa [Bool.false_and, Nat.add_assoc] at lastHolds
          · rw [if_pos rfl, List.append_assoc, ← written, ← text]
            rfl
      | false =>
          obtain ⟨text, kept⟩ := holds.leaf convention start stop plain
          obtain ⟨last, lastHolds, written⟩ := ih restKinds kept more
          refine ⟨last, ?_, ?_⟩
          · rwa [Bool.false_and, ← Nat.zero_add rest.separators] at lastHolds
          · rw [if_neg Bool.false_ne_true, List.append_assoc, ← written, ← text]
            rfl
  | @scope start stop content rest bounds inside after insideIH afterIH =>
      obtain ⟨own, others⟩ := List.forall_mem_cons.mp kinds
      obtain ⟨contentKinds, later⟩ := List.forall_mem_append.mp others
      have restKinds := (List.forall_mem_cons.mp later).2
      obtain ⟨opening, opened⟩ :=
        Script.renditionStep_start convention bounds.opens (own bounds.opens)
      obtain ⟨filled, contentHolds, contentText⟩ :=
        insideIH contentKinds opened (stop :: (rest.tokens ++ more))
      rw [Nat.zero_add, Bool.true_and] at contentHolds
      obtain ⟨closing, closed⟩ := contentHolds.stop convention bounds (own bounds.opens)
      have goesOn : start.isStop = false := by
        have role : start.role = some .start := eq_of_beq bounds.opens
        simp [Token.isStop, role]
      have noted := holds.note start
      rw [← closed, goesOn, Bool.and_false] at noted
      obtain ⟨last, lastHolds, written⟩ := afterIH restKinds noted more
      refine ⟨last, ?_, ?_⟩
      · rwa [Bool.false_and, ← Bool.and_false empty] at lastHolds
      · calc Script.textFrom convention frames
              ((Forest.scope start content stop rest).tokens ++ more)
            = Script.textFrom convention frames
                (start :: (content.tokens ++ stop :: (rest.tokens ++ more))) := by
              simp only [tokens, List.cons_append, List.append_assoc]
          _ = (ScriptForm.ofStart start).opening ++
                Script.textFrom convention (Script.renditionStep convention frames start).2
                  (content.tokens ++ stop :: (rest.tokens ++ more)) := by
              rw [← opening]
              rfl
          _ = (ScriptForm.ofStart start).opening ++
                (content.script convention (.ofStart start) 0 ++
                  ((ScriptForm.ofStart start).closing content ++
                    (rest.script convention form seen ++
                      Script.textFrom convention last more))) := by
              rw [contentText, ← written, ← closing]
              rfl
          _ = (Forest.scope start content stop rest).script convention form seen ++
                Script.textFrom convention last more := by
              simp only [script, List.append_assoc]

end Forest

/-- The scopes of a formula are calls, arrays and groups. -/
theorem kind_of_isStart {convention : Convention} {formula : List Char} {tokens : List Token}
    (read : tokenize convention formula = .ok tokens) :
    ∀ token ∈ tokens, token.isStart = true →
      token.kind = .function ∨ token.kind = .subexpression := by
  refine (leads_of_tokenize read).forall_mem ?_ ?_ ?_ ?_
  · intro token finished start
    rw [finished.bare.1] at start
    cases start
  · intro c _
    simp [Token.isStart, argumentToken, unionToken]
  · intro kind name _
    cases kind <;> simp [ScopeKind.startToken, ScopeKind.tokenKind]
  · intro kind
    simp [Token.isStart, ScopeKind.stopToken]

end SheetFormula
