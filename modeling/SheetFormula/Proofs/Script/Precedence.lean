import SheetFormula.Proofs.Script.Parts
import SheetFormula.Proofs.Stream.Classified

/-!
# Precedence in joined calls

No parentheses are written around the arguments of a conjunction, a disjunction or a sum, nor around
the cells that a range directly in such a call is replaced by.  So the precedence of the operators
decides what belongs together.  `Written` says which operators a token brings along and how tightly
they bind.  From it follows which calls keep their arguments apart (`toScript_joined_iff`): sums
without a comparison directly in them, and all conjunctions and disjunctions, as long as no word of
the formula directly in the call has a looser operator in it.  It also follows which ranges stay one
operand (`toScript_expanded_iff`): those that no sign, no percent sign and no operator tighter than
that of the call stands next to.
-/

namespace SheetFormula

open Forest

/-- Parts that begin and end with something else than an operator, and have no other operator in
between than that of the call. -/
structure ScriptPart.IsValue (joiner : Joiner) (parts : List ScriptPart) : Prop where
  first : ∃ text, parts.head? = some (.other text)
  last : ∃ text, parts.getLast? = some (.other text)
  inner : ∀ sign, .operator sign ∈ parts → sign = joiner.scriptOperator

namespace ScriptPart

private theorem isValue_other (joiner : Joiner) (text : List Char) : IsValue joiner [other text] :=
  ⟨⟨text, rfl⟩, ⟨text, rfl⟩, by simp⟩

private theorem isValue_intersperse (joiner : Joiner) {texts : List (List Char)}
    (some : texts ≠ []) :
    IsValue joiner ((texts.map other).intersperse (operator joiner.scriptOperator)) := by
  induction texts with
  | nil => exact (some rfl).elim
  | cons first rest ih =>
      cases rest with
      | nil => exact isValue_other joiner first
      | cons second others =>
          obtain ⟨_, ⟨text, last⟩, inner⟩ := ih (by simp)
          rw [List.map_cons, List.map_cons, List.intersperse_cons_cons, ← List.map_cons]
          refine ⟨⟨first, rfl⟩, ⟨text, ?_⟩, fun sign member => ?_⟩
          · rw [List.getLast?_cons, List.getLast?_cons, last]
            rfl
          · rcases List.mem_cons.mp member with same | later
            · cases same
            rcases List.mem_cons.mp later with same | later
            · exact operator.inj same
            · exact inner sign later

private theorem isValue_cells (joiner : Joiner) (range : CellRange) :
    IsValue joiner (cells joiner range) := by
  apply isValue_intersperse
  have positive : 0 < range.size := Nat.mul_pos (Nat.succ_pos _) (Nat.succ_pos _)
  intro none
  have count := congrArg List.length none
  simp only [CellRange.cells, CellRange.firstCells, List.length_map, List.length_range,
    Nat.min_self, List.length_nil] at count
  omega

private theorem isValue_ofRange (joiner : Joiner) (text : List Char) :
    IsValue joiner (ofRange joiner text) := by
  rw [ofRange]
  split
  · split
    · exact isValue_cells joiner _
    · exact isValue_other joiner text
  · exact isValue_other joiner _

end ScriptPart

/-- Comparisons are the loosest operators between two operands of a formula, and only products,
quotients and powers bind more tightly than a sum. -/
theorem ScriptOperator.tightness_ofInfix :
    ∀ entry ∈ ofInfix, 2 ≤ entry.2.tightness ∧ (entry.1 ∈ comparisons ↔ entry.2.tightness < 4) ∧
      (entry.1 ∈ ["*".toList, "/".toList, "^".toList] ↔ 4 < entry.2.tightness) := by
  decide

/-- Each operator that binds looser than that of the call begins with one of the listed texts. -/
theorem Joiner.exists_looser (joiner : Joiner) (sign : ScriptOperator)
    (loose : sign.tightness < joiner.scriptOperator.tightness) :
    ∃ text ∈ joiner.looser, text <:+: sign.text := by
  cases joiner <;> cases sign <;> revert loose <;> decide

/-- Each of the listed texts is that of an operator that binds looser than that of the call. -/
theorem Joiner.exists_operator (joiner : Joiner) :
    ∀ text ∈ joiner.looser, ∃ sign : ScriptOperator,
      sign.text = text ∧ sign.tightness < joiner.scriptOperator.tightness := by
  cases joiner with
  | or => simp [looser]
  | and => exact List.forall_mem_singleton.mpr ⟨.or, rfl, by decide⟩
  | plus =>
      simp only [looser, List.forall_mem_cons]
      exact ⟨⟨.or, rfl, by decide⟩, ⟨.and, rfl, by decide⟩, ⟨.equal, rfl, by decide⟩,
        ⟨.unequal, rfl, by decide⟩, ⟨.less, rfl, by decide⟩, ⟨.greater, rfl, by decide⟩, by simp⟩

/-- When no operator in a text binds looser than that of the call. -/
theorem Joiner.standsIn_iff (joiner : Joiner) (text : List Char) :
    (∀ sign : ScriptOperator, sign.StandsIn text →
        joiner.scriptOperator.tightness ≤ sign.tightness) ↔
      ∀ looser ∈ joiner.looser, ¬ looser <:+: Text.unenclosed [] text := by
  constructor
  · intro tight looser member stands
    obtain ⟨sign, rfl, loose⟩ := joiner.exists_operator looser member
    exact Nat.not_le.mpr loose (tight sign stands)
  · intro absent sign stands
    by_contra loose
    obtain ⟨looser, member, within⟩ := joiner.exists_looser sign (Nat.not_le.mp loose)
    exact absent looser member (within.trans stands)

/-- The operator stands between two operands and binds them more tightly than that of the call. -/
def Token.Tightens (joiner : Joiner) (token : Token) : Prop :=
  token.kind = .infixOperator ∧ token.role ≠ some .intersect ∧
    (joiner = .plus → token.value ∈ ["*".toList, "/".toList, "^".toList])

/-- The parts that a token may bring along, by what it is. -/
inductive Written (joiner : Joiner) (token : Token) : List ScriptPart → Prop where
  | separator (kind : token.kind = .argument) :
      Written joiner token [.operator joiner.scriptOperator]
  | negative (kind : token.kind = .prefixOperator) : Written joiner token [.operator .negate]
  | percent (kind : token.kind = .postfixOperator) :
      Written joiner token [.operator .divide, .other "100".toList]
  | binary {sign : ScriptOperator} (kind : token.kind = .infixOperator)
      (visible : token.role ≠ some .intersect) (binds : 2 ≤ sign.tightness)
      (comparison : token.role = some .logical ↔ sign.tightness < 4)
      (tight : token.value ∈ ["*".toList, "/".toList, "^".toList] ↔ 4 < sign.tightness) :
      Written joiner token [.operator sign]
  | value {parts : List ScriptPart} (kind : token.kind ∉ [.prefixOperator, .postfixOperator])
      (blank : token.kind = .infixOperator → token.role = some .intersect)
      (value : ScriptPart.IsValue joiner parts) : Written joiner token parts

namespace Written

variable {convention : Convention} {joiner : Joiner} {token : Token} {parts : List ScriptPart}

/-- An operator of the formula between two operands. -/
theorem of_lookup {value : List Char} {role : Option TokenRole} {sign : ScriptOperator}
    (found : ScriptOperator.ofInfix.lookup value = some sign)
    (sort : role = none ∧ value ∉ comparisons ∨ role = some .logical ∧ value ∈ comparisons) :
    Written joiner ⟨value, .infixOperator, role⟩
      (Token.parts convention joiner ⟨value, .infixOperator, role⟩) := by
  obtain ⟨_, _, split, _⟩ := List.lookup_eq_some_iff.mp found
  have member : (value, sign) ∈ ScriptOperator.ofInfix := by simp [split]
  obtain ⟨binds, comparison, tight⟩ := ScriptOperator.tightness_ofInfix _ member
  rcases sort with ⟨rfl, other⟩ | ⟨rfl, compares⟩
  · simp only [Token.parts, found]
    exact .binary rfl (by simp) binds (by simpa using mt comparison.mpr other) tight
  · simp only [Token.parts, found]
    exact .binary rfl (by simp) binds (by simpa using comparison.mp compares) tight

/-- A plain token of a finished stream only brings along parts that it may. -/
private theorem of_isFinished {word code : List Char → Prop} (joiner : Joiner)
    (finished : IsFinished convention word code token) :
    Written joiner token (token.parts convention joiner) := by
  have plain {value : List Char} {kind : TokenKind} {role : Option TokenRole} (text : List Char)
      (sort : kind = .operand ∨ kind = .unknown) :
      Written joiner ⟨value, kind, role⟩ [.other text] := by
    refine .value ?_ ?_ (ScriptPart.isValue_other joiner text)
    · rcases sort with rfl | rfl <;> simp
    · rcases sort with rfl | rfl <;> simp
  cases finished.1 with
  | @word text _ =>
      rcases classify_cases convention text with sort | sort | sort <;> rw [sort]
      · exact plain _ (.inl rfl)
      · exact plain _ (.inl rfl)
      · exact .value (by simp) (by simp) (ScriptPart.isValue_ofRange joiner text)
  | text content => exact plain _ (.inl rfl)
  | code _ => exact plain _ (.inl rfl)
  | unknown _ => exact plain _ (.inr rfl)
  | @sign c sign =>
      rcases sign with rfl | rfl
      · exact of_lookup rfl (.inl ⟨rfl, by decide⟩)
      · exact of_lookup rfl (.inl ⟨rfl, by decide⟩)
  | minus => exact .negative rfl
  | plus => exact (finished.2 rfl).elim
  | @operator c mark =>
      simp only [List.mem_cons, List.not_mem_nil, or_false] at mark
      rcases mark with rfl | rfl | rfl | rfl <;> exact of_lookup rfl (.inl ⟨rfl, by decide⟩)
  | @comparison text member =>
      have listed := member
      simp only [comparisons, List.mem_cons, List.not_mem_nil, or_false] at listed
      rcases listed with rfl | rfl | rfl | rfl | rfl | rfl <;>
        exact of_lookup rfl (.inr ⟨rfl, member⟩)
  | percent => exact .percent rfl
  | intersection =>
      exact .value (by simp [intersection]) (fun _ => rfl) (ScriptPart.isValue_other joiner _)

private theorem of_tokenize {formula : List Char} {tokens : List Token}
    (read : tokenize convention formula = .ok tokens) (joiner : Joiner) :
    ∀ token ∈ tokens, token.isStart = false → token.isStop = false → token.role ≠ some .union →
      Written joiner token (token.parts convention joiner) := by
  refine (leads_of_tokenize read).forall_mem ?_ ?_ ?_ ?_
  · intro token finished _ _ _
    exact of_isFinished joiner finished
  · intro c _
    refine ⟨fun _ _ _ => .separator rfl, fun _ _ united => ?_⟩
    exact (united rfl).elim
  · intro kind name start
    cases kind <;> cases start
  · intro kind _ stop
    cases kind <;> cases stop

/-- Nothing that the token brings along binds looser than the operator of the call, but for the
comparisons in a sum. -/
theorem loosest_iff (written : Written joiner token parts) :
    (∀ sign, .operator sign ∈ parts → joiner.scriptOperator.tightness ≤ sign.tightness) ↔
      (joiner = .plus → token.kind = .infixOperator → token.role ≠ some .logical) := by
  cases written with
  | separator kind => simp [kind]
  | negative kind =>
      have tight : joiner.scriptOperator.tightness ≤ ScriptOperator.negate.tightness :=
        joiner.tightness_le.trans (by decide)
      simp [kind, tight]
  | percent kind =>
      have tight : joiner.scriptOperator.tightness ≤ ScriptOperator.divide.tightness :=
        joiner.tightness_le.trans (by decide)
      simp [kind, tight]
  | @binary sign kind _ binds comparison _ =>
      simp only [List.mem_singleton, ScriptPart.operator.injEq, forall_eq, kind, forall_const,
        ne_eq, comparison]
      rcases joiner.tightness_cases with ⟨rfl, order⟩ | ⟨other, order⟩
      · simp only [order, forall_const, Nat.not_lt]
      · simp only [other, false_implies, iff_true]
        omega
  | value _ blank value =>
      refine iff_of_true (fun sign member => ?_) fun _ infixed => ?_
      · rw [value.inner sign member]
      · simp [blank infixed]

/-- What an operator between two operands becomes binds at most as tightly as the call unless it
tightens. -/
theorem binary_le_iff {sign : ScriptOperator} (kind : token.kind = .infixOperator)
    (visible : token.role ≠ some .intersect) (binds : 2 ≤ sign.tightness)
    (tight : token.value ∈ ["*".toList, "/".toList, "^".toList] ↔ 4 < sign.tightness) :
    sign.tightness ≤ joiner.scriptOperator.tightness ↔ ¬ token.Tightens joiner := by
  rw [Token.Tightens, tight, ← Nat.not_lt, not_iff_not]
  rcases joiner.tightness_cases with ⟨rfl, order⟩ | ⟨other, order⟩
  · simp only [order, forall_const, and_iff_right kind, and_iff_right visible]
  · refine iff_of_true (by omega) ⟨kind, visible, fun sum => ?_⟩
    exact (other sum).elim

private theorem not_tightens (blank : token.kind = .infixOperator → token.role = some .intersect) :
    ¬ token.Tightens joiner :=
  fun tightens => tightens.2.1 (blank tightens.1)

/-- When what the token writes last is no operator tighter than that of the call. -/
theorem last_iff (written : Written joiner token parts) :
    (∀ sign, parts.getLast? = some (.operator sign) →
        sign.tightness ≤ joiner.scriptOperator.tightness) ↔
      token.kind ≠ .prefixOperator ∧ ¬ token.Tightens joiner := by
  cases written with
  | separator kind => simp [kind, Token.Tightens]
  | negative kind =>
      have tight : ¬ ScriptOperator.negate.tightness ≤ joiner.scriptOperator.tightness :=
        Nat.not_le.mpr (joiner.tightness_le.trans_lt (by decide))
      simp [kind, tight]
  | percent kind => simp [kind, Token.Tightens]
  | binary kind visible binds _ tight => simp [binary_le_iff kind visible binds tight, kind]
  | value kind blank value =>
      obtain ⟨text, last⟩ := value.last
      have unsigned : token.kind ≠ .prefixOperator := by
        intro same
        simp [same] at kind
      simp [last, not_tightens blank, unsigned]

/-- When what a token other than a sign writes first is no operator tighter than that of the
call. -/
theorem first_iff (written : Written joiner token parts) (unsigned : token.kind ≠ .prefixOperator) :
    (∀ sign, parts.head? = some (.operator sign) →
        sign.tightness ≤ joiner.scriptOperator.tightness) ↔
      token.kind ≠ .postfixOperator ∧ ¬ token.Tightens joiner := by
  cases written with
  | separator kind => simp [kind, Token.Tightens]
  | negative kind => exact (unsigned kind).elim
  | percent kind =>
      have tight : ¬ ScriptOperator.divide.tightness ≤ joiner.scriptOperator.tightness :=
        Nat.not_le.mpr (joiner.tightness_le.trans_lt (by decide))
      simp [kind, tight]
  | binary kind visible binds _ tight => simp [binary_le_iff kind visible binds tight, kind]
  | value kind blank value =>
      obtain ⟨text, first⟩ := value.first
      have whole : token.kind ≠ .postfixOperator := by
        intro same
        simp [same] at kind
      simp [first, not_tightens blank, whole]

private theorem parts_ne_nil (written : Written joiner token parts) : parts ≠ [] := by
  cases written with
  | value _ _ value =>
      obtain ⟨text, first⟩ := value.first
      rintro rfl
      cases first
  | _ => simp

end Written

/-- The formula calls the function of the operator: a scope of the forest of its tokens has the name
of that function. -/
structure JoinedCall (convention : Convention) (formula : List Char) (joiner : Joiner)
    (forest : Forest) (start : Token) (content : Forest) (stop : Token) : Prop where
  read : tokenize convention formula = .ok forest.tokens
  proper : forest.Proper
  within : (Tree.scope start content stop).Within forest
  function : start.kind = .function
  name : Text.asciiUpper start.value = joiner.functionName

/-- The first trees of a proper forest leave open what they find open. -/
theorem Forest.Proper.foldl_nextStarts {forest : Forest} (proper : forest.Proper)
    {before after : List Tree} (place : forest.trees = before ++ after) (starts : List Token) :
    (before.flatMap Tree.tokens).foldl nextStarts starts = starts := by
  induction proper generalizing before after starts with
  | nil =>
      obtain ⟨rfl, _⟩ := List.append_eq_nil_iff.mp place.symm
      rfl
  | @leaf token rest start stop _ ih =>
      cases before with
      | nil => rfl
      | cons first others =>
          obtain ⟨rfl, later⟩ := List.cons.inj place
          have step : nextStarts starts token = starts := by simp [nextStarts, start, stop]
          rw [List.flatMap_cons, Tree.tokens, List.singleton_append, List.foldl_cons, step]
          exact ih later starts
  | @scope start stop content rest bounds _ _ insideIH afterIH =>
      cases before with
      | nil => rfl
      | cons first others =>
          obtain ⟨rfl, later⟩ := List.cons.inj place
          have opened : nextStarts starts start = start :: starts := by
            simp [nextStarts, bounds.opens]
          have inside := insideIH (List.append_nil _).symm (start :: starts)
          have closed : nextStarts (start :: starts) stop = starts := by
            have role : stop.role = some .stop := eq_of_beq bounds.closes
            simp [nextStarts, Token.isStart, Token.isStop, role]
          rw [List.flatMap_cons, Tree.tokens, List.foldl_append, List.foldl_cons, opened,
            List.foldl_append, tokens_eq, inside, List.foldl_cons, closed, List.foldl_nil]
          exact afterIH later starts

namespace JoinedCall

variable {convention : Convention} {language : ScriptLanguage} {formula : List Char}
  {joiner : Joiner} {forest content : Forest} {start stop token : Token} {before after : List Tree}

/-- The tokens before and behind one of the trees of the content. -/
theorem exists_tokens (call : JoinedCall convention formula joiner forest start content stop)
    {tree : Tree} (place : content.trees = before ++ tree :: after) :
    ∃ front back, forest.tokens =
      front ++ start :: (before.flatMap Tree.tokens ++
        (tree.tokens ++ (after.flatMap Tree.tokens ++ stop :: back))) := by
  obtain ⟨front, back, split⟩ := call.within.exists_tokens
  refine ⟨front, back, ?_⟩
  rw [split, Tree.tokens, tokens_eq, place]
  simp

/-- No union stands directly in the call. -/
theorem not_union (call : JoinedCall convention formula joiner forest start content stop)
    (member : .leaf token ∈ content.trees) : token.role ≠ some .union := by
  obtain ⟨before, after, place⟩ := List.append_of_mem member
  obtain ⟨front, back, split⟩ := call.exists_tokens place
  obtain ⟨bounds, proper⟩ := call.within.proper call.proper
  have separated := separated_of_tokenize call.read
  rw [split, ← List.cons_append, ← List.append_assoc] at separated
  have separates := separated.separates_at
  -- What stands before the token in the call is closed again, so the call's start is innermost.
  have opened : nextStarts (front.foldl nextStarts []) start =
      start :: front.foldl nextStarts [] := by
    simp [nextStarts, bounds.opens]
  rw [List.foldl_append, List.foldl_cons, opened, proper.foldl_nextStarts place] at separates
  intro union
  have group := separates.union union start rfl
  rw [call.function] at group
  cases group

private theorem written (call : JoinedCall convention formula joiner forest start content stop)
    (member : .leaf token ∈ content.trees) :
    Written joiner token (token.parts convention joiner) := by
  have proper := (call.within.proper call.proper).2.tree _ member
  obtain ⟨before, after, place⟩ := List.append_of_mem member
  obtain ⟨front, back, split⟩ := call.exists_tokens place
  have inside : token ∈ forest.tokens := by simp [split, Tree.tokens]
  exact Written.of_tokenize call.read joiner token inside proper.1 proper.2 (call.not_union member)

/-- When nothing of a tree directly in the call binds looser than the operator of the call. -/
theorem loosest_iff (call : JoinedCall convention formula joiner forest start content stop)
    {tree : Tree} (member : tree ∈ content.trees) :
    (∀ sign, .operator sign ∈ tree.parts convention joiner →
        joiner.scriptOperator.tightness ≤ sign.tightness) ↔
      (joiner = .plus → ∀ token, tree = .leaf token → token.kind = .infixOperator →
        token.role ≠ some .logical) := by
  cases tree with
  | leaf token => simpa [Tree.parts] using (call.written member).loosest_iff
  | scope inner _ _ =>
      refine iff_of_true (fun sign member => ?_) (by simp)
      rw [Tree.parts] at member
      split at member
      · obtain rfl : sign = .not := by simpa using member
        exact joiner.tightness_le.trans (by decide)
      · simp at member

/-- When no operator among the parts of the call binds looser than that of the call. -/
theorem callParts_iff (call : JoinedCall convention formula joiner forest start content stop) :
    (∀ sign, .operator sign ∈ content.callParts convention joiner →
        joiner.scriptOperator.tightness ≤ sign.tightness) ↔
      (joiner = .plus → ∀ token, .leaf token ∈ content.trees → token.kind = .infixOperator →
        token.role ≠ some .logical) := by
  cases empty : content.isEmpty with
  | true => simp [callParts, empty, isEmpty_eq_true_iff.mp empty]
  | false =>
      rw [callParts, empty, if_neg Bool.false_ne_true]
      constructor
      · intro tight sum token member
        refine (call.loosest_iff member).mp (fun sign own => ?_) sum token rfl
        exact tight sign (List.mem_flatMap.mpr ⟨_, member, own⟩)
      · intro compared sign written
        obtain ⟨tree, member, own⟩ := List.mem_flatMap.mp written
        refine (call.loosest_iff member).mpr ?_ sign own
        rintro sum token rfl
        exact compared sum token member

/-- A call that is the whole formula. -/
theorem of_outermost (name : List Char) (function : Text.asciiUpper name = joiner.functionName)
    (inside : content.Proper)
    (read : tokenize convention formula = .ok (ScopeKind.function.startToken name ::
      (content.tokens ++ [ScopeKind.function.stopToken]))) :
    JoinedCall convention formula joiner
      (.scope (ScopeKind.function.startToken name) content ScopeKind.function.stopToken .nil)
      (ScopeKind.function.startToken name) content ScopeKind.function.stopToken :=
  ⟨read, .scope ⟨rfl, rfl, rfl, nofun, nofun⟩ inside .nil, .here (.head _), rfl, function⟩

private theorem parts_ne_nil (call : JoinedCall convention formula joiner forest start content stop)
    {tree : Tree} (member : tree ∈ content.trees) : tree.parts convention joiner ≠ [] := by
  cases tree with
  | leaf token => exact (call.written member).parts_ne_nil
  | scope inner _ _ =>
      rw [Tree.parts]
      split <;> simp

/-- When no operator directly before a place in the call binds tighter than that of the call. -/
theorem last_iff (call : JoinedCall convention formula joiner forest start content stop)
    (place : content.trees = before ++ after) :
    (∀ sign, (before.flatMap (Tree.parts convention joiner)).getLast? = some (.operator sign) →
        sign.tightness ≤ joiner.scriptOperator.tightness) ↔
      ∀ left, before.getLast? = some (.leaf left) →
        left.kind ≠ .prefixOperator ∧ ¬ left.Tightens joiner := by
  rcases List.eq_nil_or_concat' before with rfl | ⟨others, tree, rfl⟩
  · simp
  have member : tree ∈ content.trees := by simp [place]
  rw [List.flatMap_append, List.flatMap_singleton, List.getLast?_append_of_ne_nil _
    (call.parts_ne_nil member), List.getLast?_concat]
  cases tree with
  | leaf token => simpa [Tree.parts] using (call.written member).last_iff
  | scope inner _ _ =>
      refine iff_of_true (fun sign last => ?_) (by simp)
      rw [Tree.parts] at last
      split at last <;> simp at last

/-- The first token behind a leaf of the call relies on that leaf. -/
theorem exists_links (call : JoinedCall convention formula joiner forest start content stop)
    {next : Tree} (place : content.trees = before ++ .leaf token :: next :: after) :
    ∃ first ∈ next.tokens.head?, ∃ following, Links (some token) first following := by
  obtain ⟨front, back, split⟩ := call.exists_tokens place
  obtain ⟨first, others, shape⟩ : ∃ first others, next.tokens = first :: others := by
    cases next <;> exact ⟨_, _, rfl⟩
  have linked := linked_of_tokenize call.read
  have placed : forest.tokens = (front ++ start :: (before.flatMap Tree.tokens ++ [token])) ++
      first :: (others ++ (after.flatMap Tree.tokens ++ stop :: back)) := by
    rw [split, List.flatMap_cons, shape]
    simp [Tree.tokens]
  rw [placed] at linked
  have links := linked.link_at
  rw [← List.cons_append, ← List.append_assoc, List.getLast?_concat] at links
  exact ⟨first, by rw [shape]; rfl, _, links⟩

/-- Behind a range directly in the call no value begins, and no sign stands alone. -/
theorem leaf_behind (call : JoinedCall convention formula joiner forest start content stop)
    {next : Tree} (place : content.trees = before ++ .leaf token :: next :: after)
    (operand : token.kind = .operand) (range : token.role = some .range) :
    ∃ right, next = .leaf right ∧ right.kind ≠ .prefixOperator := by
  obtain ⟨first, begins, following, links⟩ := call.exists_links place
  -- A value right behind a range would have been read as one with it or across an intersection.
  have apart : first.beginsValue = false :=
    (links.apart token rfl).1 (by simp [Token.isWord, operand, range])
  cases next with
  | leaf right =>
      obtain rfl : right = first := Option.some.inj begins
      refine ⟨right, rfl, fun sign => ?_⟩
      have alone := links.unary (.inl sign)
      simp [precedesInfixSign, Token.endsValue, Token.isOperand, operand] at alone
  | scope inner deeper last =>
      obtain rfl : inner = first := Option.some.inj begins
      have member : .scope inner deeper last ∈ content.trees := by simp [place]
      have bounds := ((call.within.proper call.proper).2.tree _ member).1
      simp [Token.beginsValue, bounds.opens] at apart

/-- When no operator directly behind a range in the call binds tighter than that of the call. -/
theorem first_iff (call : JoinedCall convention formula joiner forest start content stop)
    (place : content.trees = before ++ .leaf token :: after) (operand : token.kind = .operand)
    (range : token.role = some .range) :
    (∀ sign, (after.flatMap (Tree.parts convention joiner)).head? = some (.operator sign) →
        sign.tightness ≤ joiner.scriptOperator.tightness) ↔
      ∀ right, after.head? = some (.leaf right) →
        right.kind ≠ .postfixOperator ∧ ¬ right.Tightens joiner := by
  cases after with
  | nil => simp
  | cons next others =>
      obtain ⟨right, rfl, unsigned⟩ := call.leaf_behind place operand range
      have member : .leaf right ∈ content.trees := by simp [place]
      rw [List.flatMap_cons, List.head?_append_of_ne_nil _ (call.parts_ne_nil member),
        List.head?_cons]
      simpa [Tree.parts] using (call.written member).first_iff unsigned

end JoinedCall

section Formula

variable {convention : Convention} {language : ScriptLanguage} {formula : List Char}
  {joiner : Joiner} {forest content : Forest} {start stop : Token}

/-- The script of a formula has the parts of each joined call in parentheses, and no union is among
them.  None of the operators directly in the call binds looser than that of the call, unless the
call is a sum with a comparison directly in it, or a word directly in it has the text of a looser
operator.  The operators are those of `ScriptOperator`. -/
theorem toScript_joined_iff
    (call : JoinedCall convention formula joiner forest start content stop) :
    (∃ front back, toScript convention language formula =
      .ok (front ++ ("(".toList ++
        (ScriptPart.joined (content.callParts convention joiner) ++ ")".toList) ++ back))) ∧
      (∀ token, .leaf token ∈ content.trees → token.role ≠ some .union) ∧
      ((∀ sign, content.HasOperator convention joiner sign →
          joiner.scriptOperator.tightness ≤ sign.tightness) ↔
        (joiner = .plus → ∀ token, .leaf token ∈ content.trees → token.kind = .infixOperator →
          token.role ≠ some .logical) ∧
        ∀ tree ∈ content.trees, ∀ text ∈ joiner.looser,
          ¬ text <:+: Text.unenclosed [] tree.word) := by
  refine ⟨call.within.toScript_eq call.read call.proper call.function call.name,
    fun token => call.not_union, ?_⟩
  simp only [HasOperator, or_imp, forall_and]
  refine and_congr call.callParts_iff ?_
  simp only [← joiner.standsIn_iff]
  constructor
  · intro tight tree member sign stands
    exact tight sign ⟨tree, member, stands⟩
  · rintro tight sign ⟨tree, member, stands⟩
    exact tight tree member sign stands

/-- A sum with a comparison and a disjunction in parentheses of their own, and with another one
between quotes. -/
theorem toScript_joined_iff_nested :
    ∃ forest start content stop,
      JoinedCall .us "=SUM('a||b'!A1-B1,OR(A1=B1,c||d))".toList .plus forest start content stop ∧
      (∃ front back, toScript .us .javaScript "=SUM('a||b'!A1-B1,OR(A1=B1,c||d))".toList =
        .ok (front ++ ("(".toList ++
          (ScriptPart.joined (content.callParts .us .plus) ++ ")".toList) ++ back))) ∧
      toScript .us .javaScript "=SUM('a||b'!A1-B1,OR(A1=B1,c||d))".toList =
        .ok "('a||b'!A1-B1+(A1===B1||c||d))".toList ∧
      ∀ sign, content.HasOperator .us .plus sign →
        Joiner.plus.scriptOperator.tightness ≤ sign.tightness := by
  have call : JoinedCall .us "=SUM('a||b'!A1-B1,OR(A1=B1,c||d))".toList .plus _ _
      (.leaf ⟨"'a||b'!A1".toList, .operand, some .range⟩ (.leaf ⟨['-'], .infixOperator, none⟩
        (.leaf ⟨"B1".toList, .operand, some .range⟩ (.leaf (argumentToken ',')
          (.scope (ScopeKind.function.startToken "OR".toList)
            (.leaf ⟨"A1".toList, .operand, some .range⟩
              (.leaf ⟨['='], .infixOperator, some .logical⟩
                (.leaf ⟨"B1".toList, .operand, some .range⟩ (.leaf (argumentToken ',')
                  (.leaf ⟨"c||d".toList, .operand, some .range⟩ .nil)))))
            ScopeKind.function.stopToken .nil))))) _ :=
    .of_outermost "SUM".toList rfl (.leaf rfl rfl (.leaf rfl rfl (.leaf rfl rfl (.leaf rfl rfl
      (.scope ⟨rfl, rfl, rfl, nofun, nofun⟩ (.leaf rfl rfl (.leaf rfl rfl (.leaf rfl rfl
        (.leaf rfl rfl (.leaf rfl rfl .nil))))) .nil))))) rfl
  obtain ⟨written, _, tight⟩ := @toScript_joined_iff .us .javaScript _ _ _ _ _ _ call
  refine ⟨_, _, _, _, call, written, by decide +kernel, tight.mpr ⟨?_, ?_⟩⟩
  · simp [trees, argumentToken]
  · decide +kernel

example : toScript .us .javaScript "=AND(a||b,c)".toList = .ok "(a||b&&c)".toList := by
  decide +kernel

/-- The comparison is written as one with the whole rest of the sum. -/
theorem toScript_sum_of_comparison :
    ∃ forest start content stop,
      JoinedCall .us "=SUM(A1=B1,2)".toList .plus forest start content stop ∧
      toScript .us .javaScript "=SUM(A1=B1,2)".toList = .ok "(A1===B1+2)".toList ∧
      .operator .equal ∈ content.callParts .us .plus ∧
      ScriptOperator.equal.tightness < Joiner.plus.scriptOperator.tightness := by
  have call : JoinedCall .us "=SUM(A1=B1,2)".toList .plus _ _
      (.leaf ⟨"A1".toList, .operand, some .range⟩ (.leaf ⟨['='], .infixOperator, some .logical⟩
        (.leaf ⟨"B1".toList, .operand, some .range⟩ (.leaf (argumentToken ',')
          (.leaf ⟨['2'], .operand, some .number⟩ .nil))))) _ :=
    .of_outermost "SUM".toList rfl (.leaf rfl rfl (.leaf rfl rfl (.leaf rfl rfl (.leaf rfl rfl
      (.leaf rfl rfl .nil))))) rfl
  exact ⟨_, _, _, _, call, rfl, by decide, by decide⟩

/-- The cells of a range directly in a joined call are written out between the other parts of the
call.  No operator next to them binds tighter than the one between them, unless in the formula a
sign stands before the range, a percent sign behind it, or an operator that binds tighter than that
of the call on one of its sides. -/
theorem toScript_expanded_iff
    (call : JoinedCall convention formula joiner forest start content stop)
    {before after : List Tree} {token : Token} {range : CellRange}
    (place : content.trees = before ++ .leaf token :: after) (operand : token.kind = .operand)
    (role : token.role = some .range) (parsed : CellRange.parse? token.value = some range)
    (small : range.size ≤ Script.expansionLimit) :
    (∃ front back, toScript convention language formula =
      .ok (front ++ ("(".toList ++
        (ScriptPart.joined (before.flatMap (Tree.parts convention joiner)) ++
          (joiner.operator.intercalate (range.cells.map Cell.display) ++
            ScriptPart.joined (after.flatMap (Tree.parts convention joiner))) ++ ")".toList) ++
        back))) ∧
      ((∀ sign,
          (before.flatMap (Tree.parts convention joiner)).getLast? = some (.operator sign) ∨
            (after.flatMap (Tree.parts convention joiner)).head? = some (.operator sign) →
          sign.tightness ≤ joiner.scriptOperator.tightness) ↔
        (∀ left, before.getLast? = some (.leaf left) →
          left.kind ≠ .prefixOperator ∧ ¬ left.Tightens joiner) ∧
        ∀ right, after.head? = some (.leaf right) →
          right.kind ≠ .postfixOperator ∧ ¬ right.Tightens joiner) := by
  constructor
  · have parts : content.callParts convention joiner =
        before.flatMap (Tree.parts convention joiner) ++ (ScriptPart.cells joiner range ++
          after.flatMap (Tree.parts convention joiner)) := by
      have filled : content.isEmpty ≠ true := by
        rw [ne_eq, isEmpty_eq_true_iff, place]
        simp
      have limit : range.size ≤ 1024 := small
      rw [callParts, if_neg filled, place, List.flatMap_append, List.flatMap_cons, Tree.parts]
      simp only [Token.parts, operand, role, ScriptPart.ofRange, parsed, limit, ↓reduceIte]
    obtain ⟨front, back, written⟩ := @Tree.Within.toScript_eq convention language _ _ _ _ _ _
      call.within call.read call.proper call.function call.name
    have expanded : ScriptPart.joined (ScriptPart.cells joiner range) =
        joiner.operator.intercalate (range.cells.map Cell.display) := by
      rw [ScriptPart.cells, ScriptPart.joined_intersperse, joiner.text_scriptOperator]
    rw [parts, ScriptPart.joined_append, ScriptPart.joined_append, expanded] at written
    exact ⟨front, back, written⟩
  · rw [← call.last_iff place, ← call.first_iff place operand role, ← forall_and]
    exact forall_congr' fun sign => or_imp

/-- A range behind a separator and before a minus, which binds as tightly as the sum. -/
theorem toScript_expanded_iff_minus :
    ∃ forest start content stop before after,
      JoinedCall .us "=SUM(C1,A1:A2-1)".toList .plus forest start content stop ∧
      content.trees = before ++ .leaf ⟨"A1:A2".toList, .operand, some .range⟩ :: after ∧
      (∃ front back, toScript .us .javaScript "=SUM(C1,A1:A2-1)".toList =
        .ok (front ++ ("(".toList ++
          (ScriptPart.joined (before.flatMap (Tree.parts .us .plus)) ++ ("A1+A2".toList ++
            ScriptPart.joined (after.flatMap (Tree.parts .us .plus))) ++ ")".toList) ++ back))) ∧
      ∀ sign,
        (before.flatMap (Tree.parts .us .plus)).getLast? = some (.operator sign) ∨
          (after.flatMap (Tree.parts .us .plus)).head? = some (.operator sign) →
        sign.tightness ≤ Joiner.plus.scriptOperator.tightness := by
  have call : JoinedCall .us "=SUM(C1,A1:A2-1)".toList .plus _ _
      (.leaf ⟨"C1".toList, .operand, some .range⟩ (.leaf (argumentToken ',')
        (.leaf ⟨"A1:A2".toList, .operand, some .range⟩ (.leaf ⟨['-'], .infixOperator, none⟩
          (.leaf ⟨['1'], .operand, some .number⟩ .nil))))) _ :=
    .of_outermost "SUM".toList rfl (.leaf rfl rfl (.leaf rfl rfl (.leaf rfl rfl (.leaf rfl rfl
      (.leaf rfl rfl .nil))))) rfl
  have parsed : CellRange.parse? "A1:A2".toList = some ⟨⟨0, 0⟩, ⟨0, 1⟩⟩ := by rfl
  obtain ⟨written, tight⟩ := @toScript_expanded_iff .us .javaScript _ _ _ _ _ _ call [_, _] [_, _]
    ⟨"A1:A2".toList, .operand, some .range⟩ _ rfl rfl rfl parsed (by decide)
  have expanded : Joiner.plus.operator.intercalate
      ((CellRange.mk ⟨0, 0⟩ ⟨0, 1⟩).cells.map Cell.display) = "A1+A2".toList := by
    decide +kernel
  rw [expanded] at written
  refine ⟨_, _, _, _, _, _, call, rfl, written, tight.mpr ?_⟩
  simp [argumentToken, Token.Tightens]

/-- The product is written as one with the last cell alone. -/
theorem toScript_product_of_range :
    ∃ forest start content stop after,
      JoinedCall .us "=SUM(A1:A2*2)".toList .plus forest start content stop ∧
      content.trees = .leaf ⟨"A1:A2".toList, .operand, some .range⟩ :: after ∧
      toScript .us .javaScript "=SUM(A1:A2*2)".toList = .ok "(A1+A2*2)".toList ∧
      (after.flatMap (Tree.parts .us .plus)).head? = some (.operator .times) ∧
      Joiner.plus.scriptOperator.tightness < ScriptOperator.times.tightness := by
  have call : JoinedCall .us "=SUM(A1:A2*2)".toList .plus _ _
      (.leaf ⟨"A1:A2".toList, .operand, some .range⟩ (.leaf ⟨['*'], .infixOperator, none⟩
        (.leaf ⟨['2'], .operand, some .number⟩ .nil))) _ :=
    .of_outermost "SUM".toList rfl (.leaf rfl rfl (.leaf rfl rfl (.leaf rfl rfl .nil))) rfl
  exact ⟨_, _, _, _, _, call, rfl, by decide +kernel, rfl, by decide⟩

end Formula

end SheetFormula
