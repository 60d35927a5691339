import SheetFormula.Proofs.Stream.Nesting

/-!
# Marks

The marks of a stream are what is left of it when only its scopes and separators count.  They decide
how the scopes of a formula nest: what stands behind the stop of a scope (`Forest.Proper.behind`)
and how many separators stand directly in it (`Forest.Proper.level`).  Whether these separators
divide arguments or unite ranges depends on the scope alone (`Forest.Proper.of_divided`).
-/

namespace SheetFormula

/-- What a token does to scopes and their parts. -/
inductive Mark where
  | opens
  | closes
  | separates
  /-- A semicolon without a meaning. -/
  | stray
  deriving DecidableEq, Repr

namespace Token

/-- The token is the union operator. -/
def isUnion (token : Token) : Bool :=
  token.kind == .infixOperator && token.role == some .union

/-- The mark of a token, if it has one. -/
def mark? (token : Token) : Option Mark :=
  if token.isStart then some .opens
  else if token.isStop then some .closes
  else if token.isArgument || token.isUnion then some .separates
  else if token.kind == .unknown && token.value == [';'] then some .stray
  else none

end Token

/-- The marks of a stream. -/
def marks (tokens : List Token) : List Mark :=
  tokens.filterMap Token.mark?

/-- The marks of two streams are those of the first, then those of the second. -/
@[simp]
theorem marks_append (first second : List Token) :
    marks (first ++ second) = marks first ++ marks second :=
  List.filterMap_append

/-- The marks of a stream begin with the mark of its first token, if it has one. -/
theorem marks_cons (token : Token) (rest : List Token) :
    marks (token :: rest) = token.mark?.toList ++ marks rest := by
  rw [marks, List.filterMap_cons]
  cases token.mark? <;> rfl

namespace Mark

/-- What stands behind the mark that closes the innermost scope, when `depth` scopes have been
opened in it. -/
def behind : (depth : Nat) → List Mark → Option (List Mark)
  | _, [] => none
  | depth, opens :: rest => behind (depth + 1) rest
  | 0, closes :: rest => some rest
  | depth + 1, closes :: rest => behind depth rest
  | depth, _ :: rest => behind depth rest

/-- The number of separators directly in a scope, when `depth` scopes have been opened in it. -/
def level : (depth : Nat) → List Mark → Nat
  | _, [] => 0
  | depth, opens :: rest => level (depth + 1) rest
  | depth, closes :: rest => level (depth - 1) rest
  | depth, separates :: rest => (if depth = 0 then 1 else 0) + level depth rest
  | depth, stray :: rest => level depth rest

/-- Separators do not close the innermost scope. -/
theorem behind_separators (count depth : Nat) (more : List Mark) :
    behind depth (List.replicate count separates ++ more) = behind depth more := by
  induction count with
  | zero => rfl
  | succ count ih => exact ih

/-- Separators directly in a scope are all counted. -/
theorem level_separators (count : Nat) (more : List Mark) :
    level 0 (List.replicate count separates ++ more) = count + level 0 more := by
  induction count with
  | zero => exact (Nat.zero_add _).symm
  | succ count ih =>
      rw [List.replicate_succ, List.cons_append, level, ih, if_pos rfl]
      omega

end Mark

namespace Forest

variable {forest : Forest}

/-- The number of unions directly in the forest. -/
def unions : Forest → Nat
  | nil => 0
  | leaf token rest => (if token.isUnion then 1 else 0) + rest.unions
  | scope _ _ _ rest => rest.unions

private theorem marks_scope (start stop : Token) (content rest : Forest)
    (opens : start.isStart = true) (closes : stop.isStop = true) :
    marks (scope start content stop rest).tokens =
      .opens :: (marks content.tokens ++ .closes :: marks rest.tokens) := by
  have ends : stop.isStart = false := by
    have role : stop.role = some .stop := eq_of_beq closes
    simp [Token.isStart, role]
  simp [tokens, marks_cons, Token.mark?, opens, closes, ends]

/-- A token that bounds no scope separates, or it has no part in scopes at all. -/
theorem leaf_mark {token : Token} (start : token.isStart = false) (stop : token.isStop = false) :
    token.mark? = some .separates ∧
        (if token.isArgument then 1 else 0) + (if token.isUnion then 1 else 0) = 1 ∨
      (token.mark? = some .stray ∨ token.mark? = none) ∧ token.isArgument = false ∧
        token.isUnion = false := by
  unfold Token.mark?
  rw [start, stop]
  cases argument : token.isArgument with
  | true =>
      have kind : token.kind = .argument := eq_of_beq argument
      simp [Token.isUnion, kind]
  | false =>
      cases union : token.isUnion with
      | true => simp
      | false =>
          cases token.kind == .unknown && token.value == [';'] <;> simp

/-- A proper forest does not close the innermost scope. -/
theorem Proper.behind (proper : forest.Proper) (depth : Nat) (more : List Mark) :
    Mark.behind depth (marks forest.tokens ++ more) = Mark.behind depth more := by
  induction proper generalizing depth more with
  | nil => rfl
  | leaf start stop _ ih =>
      rw [tokens, marks_cons, List.append_assoc]
      rcases leaf_mark start stop with ⟨mark, _⟩ | ⟨mark | mark, _⟩ <;> rw [mark] <;>
        exact ih depth more
  | scope bounds _ _ insideIH afterIH =>
      rw [marks_scope _ _ _ _ bounds.opens bounds.closes, List.cons_append, List.append_assoc,
        Mark.behind, insideIH]
      exact afterIH depth more

/-- Of a proper forest, the separators and unions at its top level are counted, and these only
directly in the scope. -/
theorem Proper.level (proper : forest.Proper) (depth : Nat) (more : List Mark) :
    Mark.level depth (marks forest.tokens ++ more) =
      (if depth = 0 then forest.separators + forest.unions else 0) + Mark.level depth more := by
  induction proper generalizing depth more with
  | nil => simp [tokens, marks, separators, unions]
  | leaf start stop _ ih =>
      rw [tokens, marks_cons, List.append_assoc, separators, unions]
      rcases leaf_mark start stop with ⟨mark, one⟩ | ⟨mark | mark, argument, union⟩
      · rw [mark, Option.toList_some, List.singleton_append, Mark.level, ih]
        split_ifs at * <;> omega
      · rw [mark, Option.toList_some, List.singleton_append, Mark.level, ih, argument, union]
        simp
      · rw [mark, Option.toList_none, List.nil_append, ih, argument, union]
        simp
  | scope bounds _ _ insideIH afterIH =>
      rw [marks_scope _ _ _ _ bounds.opens bounds.closes, List.cons_append, List.append_assoc,
        Mark.level, insideIH, if_neg (Nat.succ_ne_zero depth), Nat.zero_add, List.cons_append,
        Mark.level, Nat.add_sub_cancel, afterIH, separators, unions]

/-- A forest is one scope if its marks close the first scope with the last mark. -/
theorem Proper.exists_scope {forest : Forest} {start last : Token} {inner : List Mark}
    (proper : forest.Proper) (first : forest.tokens.head? = some start)
    (opens : start.isStart = true) (final : forest.tokens.getLast? = some last)
    (closes : last.isStop = true) (marked : marks forest.tokens = .opens :: (inner ++ [.closes]))
    (whole : Mark.behind 0 (inner ++ [.closes]) = some []) :
    ∃ content stop, forest = .scope start content stop .nil ∧ content.Proper ∧
      marks content.tokens = inner := by
  cases proper with
  | nil => cases first
  | leaf bare _ _ =>
      obtain rfl := Option.some.inj first
      rw [opens] at bare
      cases bare
  | @scope opening stop content rest bounds inside after =>
      obtain rfl : opening = start := Option.some.inj first
      rw [marks_scope _ _ _ _ bounds.opens bounds.closes] at marked
      have same := (List.cons.inj marked).2
      have behind : marks rest.tokens = [] := by
        have closed := inside.behind 0 (.closes :: marks rest.tokens)
        rw [same, whole] at closed
        exact (Option.some.inj closed).symm
      -- Behind the scope there are no marks, and the last token of the forest has one.
      have ended : rest.tokens = [] := by
        by_contra present
        have split : (Forest.scope opening content stop rest).tokens =
            (opening :: content.tokens ++ [stop]) ++ rest.tokens := by simp [tokens]
        rw [split, List.getLast?_append_of_ne_nil _ present] at final
        have unmarked := List.filterMap_eq_nil_iff.mp behind last (List.mem_of_getLast? final)
        rw [Token.mark?, closes] at unmarked
        split at unmarked <;> cases unmarked
      cases after with
      | nil => exact ⟨content, stop, rfl, inside, List.append_cancel_right same⟩
      | leaf _ _ _ => cases ended
      | scope _ _ _ => cases ended

end Forest

/-- Each separator of the stream stands where its sort has a place.  The stack says of each open
scope whether it takes arguments. -/
def Divided : List Bool → List Token → Prop
  | _, [] => True
  | stack, token :: rest =>
      if token.isStart then Divided ((token.kind != .subexpression) :: stack) rest
      else if token.isStop then Divided stack.tail rest
      else
        (token.isArgument = true → stack.head? = some true) ∧
          (token.isUnion = true → stack.head? ≠ some true) ∧ Divided stack rest

/-- The plain tokens of a finished stream neither end an argument nor stand for a union. -/
theorem IsFinished.unmarked {convention : Convention} {word code : List Char → Prop} {token : Token}
    (finished : IsFinished convention word code token) :
    token.isArgument = false ∧ token.isUnion = false := by
  cases finished.1 with
  | _ => exact ⟨rfl, rfl⟩

namespace Divided

variable {stack : List Bool} {token : Token} {rest : List Token}

private theorem plain (start : token.isStart = false) (stop : token.isStop = false)
    (argument : token.isArgument = false) (union : token.isUnion = false)
    (divided : Divided stack rest) : Divided stack (token :: rest) := by
  simp only [Divided, start, stop, argument, union, Bool.false_eq_true, ↓reduceIte]
  exact ⟨nofun, nofun, divided⟩

end Divided

/-- The separators of a course are divided as its scopes have it. -/
theorem Leads.divided {convention : Convention} {plain : Token → Prop} {called : List Char → Prop}
    {scopes last : List ScopeKind} {tokens : List Token}
    (course : Leads convention plain called scopes tokens last)
    (bare : ∀ token, plain token → (token.isStart = false ∧ token.isStop = false) ∧
      token.isArgument = false ∧ token.isUnion = false) :
    Divided (scopes.map ScopeKind.takesArguments) tokens := by
  induction course with
  | done => trivial
  | plain held _ ih =>
      obtain ⟨⟨start, stop⟩, argument, union⟩ := bare _ held
      exact .plain start stop argument union ih
  | @argument scopes _ _ inside _ ih =>
      refine ⟨fun _ => ?_, nofun, ih⟩
      cases scopes with
      | nil => cases inside
      | cons kind outer => exact congrArg some inside
  | @union scopes _ _ outside _ ih =>
      refine ⟨nofun, fun _ => ?_, ih⟩
      cases scopes with
      | nil => simp
      | cons kind outer =>
          change some kind.takesArguments ≠ some true
          change kind.takesArguments = false at outside
          simp [outside]
  | call _ _ ih => exact ih
  | group _ ih => exact ih
  | callEnd _ ih => exact ih
  | groupEnd _ ih => exact ih
  | array _ ih => exact ih
  | nextRow _ _ ih => exact ⟨fun _ => rfl, nofun, ih⟩
  | arrayEnd _ ih => exact ih

/-- Directly in a scope that takes arguments there are no unions, and elsewhere no arguments. -/
theorem Forest.Proper.of_divided {forest : Forest} {stack : List Bool} {more : List Token}
    (proper : forest.Proper) (divided : Divided stack (forest.tokens ++ more)) :
    (stack.head? = some true → forest.unions = 0) ∧
      (stack.head? ≠ some true → forest.separators = 0) ∧ Divided stack more := by
  induction proper generalizing stack more with
  | nil => exact ⟨fun _ => rfl, fun _ => rfl, divided⟩
  | @leaf token rest start stop _ ih =>
      simp only [tokens, List.cons_append, Divided, start, stop, Bool.false_eq_true,
        ↓reduceIte] at divided
      obtain ⟨argument, union, later⟩ := divided
      obtain ⟨unions, separators, restDivided⟩ := ih later
      refine ⟨fun takes => ?_, fun takes => ?_, restDivided⟩
      · have other : token.isUnion = false := by
          by_contra isUnion
          exact union (by simpa using isUnion) takes
        rw [Forest.unions, other, unions takes]
        rfl
      · have other : token.isArgument = false := by
          by_contra isArgument
          exact takes (argument (by simpa using isArgument))
        rw [Forest.separators, other, separators takes]
        rfl
  | @scope start stop content rest bounds _ _ insideIH afterIH =>
      have ends : stop.isStart = false := by
        have role : stop.role = some .stop := eq_of_beq bounds.closes
        simp [Token.isStart, role]
      simp only [tokens, List.cons_append, Divided, bounds.opens, ↓reduceIte,
        List.append_assoc] at divided
      obtain ⟨_, _, closed⟩ := insideIH divided
      simp only [Divided, ends, bounds.closes, Bool.false_eq_true, ↓reduceIte,
        List.tail_cons] at closed
      exact afterIH closed

private theorem survives_operator (convention : Convention) (value : List Char) :
    Survives convention Token.mark? ⟨value, .infixOperator, none⟩ := by
  refine ⟨nofun, fun previous => ?_, fun _ _ => rfl⟩
  rw [resolveToken, if_pos rfl]
  split_ifs <;> rfl

private theorem survives_marks {convention : Convention} {token : Token}
    (raw : IsRaw (fun _ => True) (fun _ => True) token) :
    Survives convention Token.mark? token := by
  cases raw with
  | @word text _ =>
      refine ⟨nofun, fun previous => ?_, fun _ => nofun⟩
      change Token.mark? ⟨text, .operand, some (Operand.classify convention text)⟩ = none
      rcases classify_cases convention text with sort | sort | sort <;> rw [sort] <;> rfl
  | text content => exact ⟨nofun, fun _ => rfl, fun _ => nofun⟩
  | code _ => exact ⟨nofun, fun _ => rfl, fun _ => nofun⟩
  | unknown _ => exact ⟨nofun, fun _ => rfl, fun _ => nofun⟩
  | blank => exact ⟨fun _ => rfl, fun _ => rfl, fun _ => nofun⟩
  | operator _ => exact survives_operator convention _
  | comparison _ => exact survives_operator convention _
  | percent => exact ⟨nofun, fun _ => rfl, fun _ => nofun⟩

/-- Finishing a stream keeps its marks. -/
theorem Leads.marks_finishStream {convention : Convention} {called : List Char → Prop}
    {scopes last : List ScopeKind} {tokens : List Token}
    (course : Leads convention (IsRaw (fun _ => True) (fun _ => True)) called scopes tokens last) :
    marks (SheetFormula.finishStream convention tokens) = marks tokens := by
  refine seen_finishStream rfl (course.forall_mem ?_ ?_ ?_ ?_)
  · exact fun _ raw => survives_marks raw
  · intro c member
    simp only [List.mem_cons, List.not_mem_nil, or_false] at member
    refine ⟨⟨nofun, fun _ => rfl, fun _ => nofun⟩, ?_⟩
    rcases member with rfl | rfl <;> exact ⟨nofun, fun _ => rfl, fun _ => nofun⟩
  · intro kind name
    cases kind <;> exact ⟨nofun, fun _ => rfl, fun _ => nofun⟩
  · intro kind
    cases kind <;> exact ⟨nofun, fun _ => rfl, fun _ => nofun⟩

end SheetFormula
