import SheetFormula.Proofs.Script.Structure
import SheetFormula.Proofs.Stream.Separators

/-!
# The operators of a joined call

The arguments of a conjunction, a disjunction or a sum are written one after the other, with the
operator of the call between them and parentheses around them all.  So the operators of the
arguments stand next to those of the call.  What is written directly between the parentheses is a
row of parts (`Forest.callParts`): the operators of the formula and of the call, and all other
texts.  The script of a formula has these parts at the place of the call
(`Forest.Tree.Within.toScript_eq`).

Among the other texts are words of the formula that the script takes over as they are, such as names
of functions, and a word may hold the text of an operator: `a||b` is one.
-/

namespace SheetFormula

/-- The operators of script expressions. -/
inductive ScriptOperator where
  | or
  | and
  | equal
  | unequal
  | less
  | greater
  | atMost
  | atLeast
  | plus
  | minus
  | times
  | divide
  | power
  /-- The minus before an operand. -/
  | negate
  | not
  deriving DecidableEq, Repr

namespace ScriptOperator

/-- The operator as it is written. -/
def text : ScriptOperator → List Char
  | or => "||".toList
  | and => "&&".toList
  | equal => "===".toList
  | unequal => "!==".toList
  | less => "<".toList
  | greater => ">".toList
  | atMost => "<=".toList
  | atLeast => ">=".toList
  | plus => "+".toList
  | minus | negate => "-".toList
  | times => "*".toList
  | divide => "/".toList
  | power => "**".toList
  | not => "!".toList

/-- How tightly the operator binds its operands, from the loosest operator on. -/
def tightness : ScriptOperator → Nat
  | or => 0
  | and => 1
  | equal | unequal => 2
  | less | greater | atMost | atLeast => 3
  | plus | minus => 4
  | times | divide => 5
  | power => 6
  | negate | not => 7

/-- What the operators between two operands of a formula become. -/
def ofInfix : List (List Char × ScriptOperator) :=
  [("=".toList, equal), ("<>".toList, unequal), ("<".toList, less), (">".toList, greater),
    ("<=".toList, atMost), (">=".toList, atLeast), ("+".toList, plus), ("-".toList, minus),
    ("&".toList, plus), ("*".toList, times), ("/".toList, divide), ("^".toList, power)]

/-- The operator that stands for one of a formula has the text that a script writes for it. -/
private theorem text_ofInfix (value : List Char) :
    ((ofInfix.lookup value).map text).getD value = (scriptOperators.lookup value).getD value := by
  cases found : ofInfix.lookup value with
  | some operator =>
      obtain ⟨_, _, split, _⟩ := List.lookup_eq_some_iff.mp found
      have member : (value, operator) ∈ ofInfix := by simp [split]
      simp only [ofInfix, List.mem_cons, Prod.mk.injEq, List.not_mem_nil, or_false] at member
      rcases member with ⟨rfl, rfl⟩ | ⟨rfl, rfl⟩ | ⟨rfl, rfl⟩ | ⟨rfl, rfl⟩ | ⟨rfl, rfl⟩ |
        ⟨rfl, rfl⟩ | ⟨rfl, rfl⟩ | ⟨rfl, rfl⟩ | ⟨rfl, rfl⟩ | ⟨rfl, rfl⟩ | ⟨rfl, rfl⟩ |
        ⟨rfl, rfl⟩ <;> rfl
  | none =>
      have kept : scriptOperators.lookup value = none := by
        rw [List.lookup_eq_none_iff] at found ⊢
        intro entry member
        simp only [scriptOperators, List.mem_cons, List.not_mem_nil, or_false] at member
        rcases member with rfl | rfl | rfl | rfl
        · exact found ("=".toList, equal) (by simp [ofInfix])
        · exact found ("<>".toList, unequal) (by simp [ofInfix])
        · exact found ("&".toList, plus) (by simp [ofInfix])
        · exact found ("^".toList, power) (by simp [ofInfix])
      rw [kept]
      rfl

end ScriptOperator

namespace Text

/-- The characters that enclose what follows them, each with the one that ends it. -/
def enclosures : List (Char × Char) :=
  [('(', ')'), ('[', ']'), ('\x7b', '\x7d'), ('"', '"'), ('\'', '\'')]

/-- The ends that are awaited behind a character, innermost first.  Nothing but its end counts
between two quotes. -/
def awaitedAfter (awaited : List Char) (c : Char) : List Char :=
  match awaited with
  | [] => (enclosures.lookup c).toList
  | close :: outer =>
      if c = close then outer
      else if close = '"' ∨ close = '\'' then awaited
      else (enclosures.lookup c).toList ++ awaited

/-- The text with a blank for each character in brackets or quotes, where the ends of some are
awaited. -/
def unenclosed (awaited : List Char) : List Char → List Char
  | [] => []
  | c :: rest =>
      (if awaited = [] ∧ awaitedAfter awaited c = [] then c else ' ') ::
        unenclosed (awaitedAfter awaited c) rest

end Text

/-- The text has that of the operator in it, outside of brackets and quotes. -/
def ScriptOperator.StandsIn (sign : ScriptOperator) (text : List Char) : Prop :=
  sign.text <:+: Text.unenclosed [] text

namespace Joiner

/-- The name of the function whose arguments are joined by the operator. -/
def functionName : Joiner → List Char
  | and => "AND".toList
  | or => "OR".toList
  | plus => "SUM".toList

/-- The operator among those of script expressions. -/
def scriptOperator : Joiner → ScriptOperator
  | and => .and
  | or => .or
  | plus => .plus

/-- The texts of the operators that bind looser than that of the call, up to those that begin with
another one. -/
def looser : Joiner → List (List Char)
  | or => []
  | and => ["||".toList]
  | plus =>
      ["||".toList, "&&".toList, "===".toList, "!==".toList, "<".toList, ">".toList]

/-- The value of a call without arguments. -/
def emptyText : Joiner → List Char
  | and => "true".toList
  | or => "false".toList
  | plus => "0".toList

/-- The operator of a joiner has the text that is written between the arguments. -/
theorem text_scriptOperator (joiner : Joiner) : joiner.scriptOperator.text = joiner.operator := by
  cases joiner <;> rfl

/-- A plus binds tighter than every comparison, and each of the other joiners binds looser. -/
theorem tightness_cases (joiner : Joiner) :
    joiner = plus ∧ joiner.scriptOperator.tightness = 4 ∨
      joiner ≠ plus ∧ joiner.scriptOperator.tightness ≤ 1 := by
  cases joiner with
  | plus => exact .inl ⟨rfl, rfl⟩
  | and => exact .inr ⟨by simp, Nat.le_refl 1⟩
  | or => exact .inr ⟨by simp, Nat.zero_le 1⟩

/-- No joiner binds tighter than a plus. -/
theorem tightness_le (joiner : Joiner) : joiner.scriptOperator.tightness ≤ 4 := by
  have order := joiner.tightness_cases
  omega

private theorem ofStart_eq_chain {joiner : Joiner} {start : Token}
    (function : start.kind = .function) (name : Text.asciiUpper start.value = joiner.functionName) :
    ScriptForm.ofStart start = .chain joiner := by
  rw [ScriptForm.ofStart, function, if_neg (by simp), name]
  cases joiner <;> rfl

end Joiner

/-- A part of what is written directly between the parentheses of a call. -/
inductive ScriptPart where
  | operator (operator : ScriptOperator)
  /-- The text of anything else than an operator of the formula or of the call: an operand, a scope
  with its name and its brackets, or a blank.  It may have operators in it. -/
  | other (text : List Char)
  deriving DecidableEq, Repr

namespace ScriptPart

/-- The part as it is written. -/
def text : ScriptPart → List Char
  | operator sign => sign.text
  | other text => text

/-- Parts as they are written, one after the other. -/
def joined (parts : List ScriptPart) : List Char :=
  parts.flatMap text

/-- The text of parts is the text of the first ones and of the others. -/
theorem joined_append (first second : List ScriptPart) :
    joined (first ++ second) = joined first ++ joined second :=
  List.flatMap_append

private theorem joined_other (text : List Char) : joined [other text] = text :=
  List.append_nil text

/-- Texts with an operator between them are joined by the text of the operator. -/
theorem joined_intersperse (sign : ScriptOperator) (texts : List (List Char)) :
    joined ((texts.map other).intersperse (operator sign)) = sign.text.intercalate texts := by
  induction texts with
  | nil => rfl
  | cons first rest ih =>
      cases rest with
      | nil =>
          rw [List.intercalate_singleton]
          exact joined_other first
      | cons second others =>
          rw [List.intercalate_cons_cons, ← ih]
          simp only [List.map_cons, List.intersperse_cons_cons, joined, List.flatMap_cons, text,
            List.append_assoc]

/-- The cells of a range with the operator of the call between any two. -/
def cells (joiner : Joiner) (range : CellRange) : List ScriptPart :=
  ((range.cells.map Cell.display).map other).intersperse (operator joiner.scriptOperator)

/-- The parts of a range operand directly in a joined call. -/
def ofRange (joiner : Joiner) (text : List Char) : List ScriptPart :=
  match CellRange.parse? text with
  | some range => if range.size ≤ 1024 then cells joiner range else [other text]
  | none => [other ((ScriptForm.chain joiner).rangeText text)]

private theorem joined_cells (joiner : Joiner) (range : CellRange) :
    joined (cells joiner range) = (ScriptForm.chain joiner).cells range := by
  rw [cells, joined_intersperse]
  cases joiner <;> rfl

private theorem joined_ofRange (joiner : Joiner) (text : List Char) :
    joined (ofRange joiner text) = (ScriptForm.chain joiner).rangeText text := by
  cases parsed : CellRange.parse? text with
  | some range =>
      by_cases small : range.size ≤ 1024
      · simp only [ofRange, ScriptForm.rangeText, parsed, small, ↓reduceIte, joined_cells]
      · simp only [ofRange, ScriptForm.rangeText, parsed, small, ↓reduceIte, joined_other]
  | none => simp only [ofRange, parsed, joined_other]

end ScriptPart

/-- The parts of a token directly in a joined call. -/
def Token.parts (convention : Convention) (joiner : Joiner) (token : Token) : List ScriptPart :=
  match token.kind, token.role with
  | .argument, _ => [.operator joiner.scriptOperator]
  | .operand, some .range => ScriptPart.ofRange joiner token.value
  | .prefixOperator, _ => if token.value = ['-'] then [.operator .negate] else [.other token.value]
  | .postfixOperator, _ =>
      if token.value = ['%'] then [.operator .divide, .other "100".toList] else [.other token.value]
  | .infixOperator, some .intersect => [.other " ".toList]
  | .infixOperator, some .union => [.other token.value]
  | .infixOperator, _ =>
      match ScriptOperator.ofInfix.lookup token.value with
      | some operator => [.operator operator]
      | none => [.other token.value]
  | _, _ => [.other (token.scripted convention)]

/-- The word of the formula that the script takes over for a token.  Texts, numbers and truth values
are not taken over but written as literals. -/
def Token.word (token : Token) : List Char :=
  match token.kind, token.role with
  | .operand, some .text | .operand, some .number | .operand, some .logical => []
  | .operand, _ | .unknown, _ => token.value
  | _, _ => []

namespace Forest

/-- One of the trees of a forest. -/
inductive Tree where
  | leaf (token : Token)
  | scope (start : Token) (content : Forest) (stop : Token)

/-- The trees that stand directly in a forest. -/
def trees : Forest → List Tree
  | nil => []
  | leaf token rest => .leaf token :: rest.trees
  | scope start content stop rest => .scope start content stop :: rest.trees

/-- The text of a scope in a script. -/
def scopeText (convention : Convention) (start : Token) (content : Forest) : List Char :=
  (ScriptForm.ofStart start).opening ++
    (content.script convention (.ofStart start) 0 ++ (ScriptForm.ofStart start).closing content)

namespace Tree

/-- The stream of a tree. -/
def tokens : Tree → List Token
  | leaf token => [token]
  | scope start content stop => start :: (content.tokens ++ [stop])

/-- The tree stands in the forest, at any depth. -/
inductive Within (tree : Tree) : Forest → Prop where
  | here {forest : Forest} (member : tree ∈ forest.trees) : Within tree forest
  | deeper {forest content : Forest} {start stop : Token}
      (member : scope start content stop ∈ forest.trees) (within : Within tree content) :
      Within tree forest

/-- What a proper forest says of one of its trees. -/
def Proper : Tree → Prop
  | leaf token => token.isStart = false ∧ token.isStop = false
  | scope start content stop => Encloses start content stop ∧ content.Proper

/-- The parts of a tree directly in a joined call.  A negation stands before the parentheses of its
scope. -/
def parts (convention : Convention) (joiner : Joiner) : Tree → List ScriptPart
  | leaf token => token.parts convention joiner
  | scope start content _ =>
      if ScriptForm.ofStart start = .call "!".toList then
        [.operator .not, .other (scopeText convention start content).tail]
      else [.other (scopeText convention start content)]

end Tree

/-- The word that a tree directly in a joined call has in the script: that of its token, or the name
before the parentheses of its scope. -/
def Tree.word : Tree → List Char
  | leaf token => token.word
  | scope start _ _ =>
      match ScriptForm.ofStart start with
      | .call name => name
      | _ => []

/-- The parts between the parentheses of a joined call. -/
def callParts (convention : Convention) (joiner : Joiner) (content : Forest) : List ScriptPart :=
  if content.isEmpty then [.other joiner.emptyText]
  else content.trees.flatMap (Tree.parts convention joiner)

/-- The operator stands directly between the parentheses of a joined call: it is one of the parts,
or a word of the formula has it. -/
def HasOperator (convention : Convention) (joiner : Joiner) (content : Forest)
    (sign : ScriptOperator) : Prop :=
  .operator sign ∈ content.callParts convention joiner ∨
    ∃ tree ∈ content.trees, sign.StandsIn tree.word

variable {convention : Convention} {joiner : Joiner} {forest content : Forest}
  {start stop token : Token}

/-- The stream of a forest consists of the streams of its trees. -/
theorem tokens_eq (forest : Forest) : forest.tokens = forest.trees.flatMap Tree.tokens := by
  induction forest with
  | nil => rfl
  | leaf token rest ih => simp [tokens, trees, Tree.tokens, ih]
  | scope start content stop rest _ ih => simp [tokens, trees, Tree.tokens, ih]

/-- A forest is empty if it has no trees. -/
theorem isEmpty_eq_true_iff : forest.isEmpty = true ↔ forest.trees = [] := by
  cases forest <;> simp [isEmpty, trees]

/-- The trees of a proper forest are proper. -/
theorem Proper.tree (proper : forest.Proper) : ∀ tree ∈ forest.trees, tree.Proper := by
  induction proper with
  | nil => simp [trees]
  | leaf start stop _ ih => exact List.forall_mem_cons.mpr ⟨⟨start, stop⟩, ih⟩
  | scope bounds inside _ _ ih => exact List.forall_mem_cons.mpr ⟨⟨bounds, inside⟩, ih⟩

/-- The parts of a token make up the text that it has directly in a joined call. -/
private theorem joined_leaf (plain : token.isArgument = false) :
    ScriptPart.joined (token.parts convention joiner) =
      (ScriptForm.chain joiner).leaf convention token := by
  obtain ⟨value, kind, role⟩ := token
  cases kind with
  | argument => cases plain
  | operand =>
      cases role with
      | none => exact ScriptPart.joined_other _
      | some role =>
          cases role with
          | range => exact ScriptPart.joined_ofRange joiner value
          | _ => exact ScriptPart.joined_other _
  | prefixOperator =>
      by_cases minus : value = ['-']
      · subst minus
        rfl
      · simp [Token.parts, minus, ScriptPart.joined_other, ScriptForm.leaf, Token.scripted]
  | postfixOperator =>
      by_cases percent : value = ['%']
      · subst percent
        rfl
      · simp [Token.parts, percent, ScriptPart.joined_other, ScriptForm.leaf, Token.scripted]
  | infixOperator =>
      have sign : ScriptPart.joined
          (match ScriptOperator.ofInfix.lookup value with
            | some operator => [.operator operator]
            | none => [.other value]) = (scriptOperators.lookup value).getD value := by
        rw [← ScriptOperator.text_ofInfix]
        cases ScriptOperator.ofInfix.lookup value with
        | some operator => exact ScriptPart.joined_other operator.text
        | none => exact ScriptPart.joined_other value
      cases role with
      | none => exact sign
      | some role =>
          cases role with
          | intersect => exact ScriptPart.joined_other _
          | union => exact ScriptPart.joined_other _
          | _ => exact sign
  | _ => exact ScriptPart.joined_other _

private theorem joined_scope :
    ScriptPart.joined ((Tree.scope start content stop).parts convention joiner) =
      scopeText convention start content := by
  rw [Tree.parts]
  split
  · rename_i negation
    rw [scopeText, negation]
    exact congrArg ('!' :: ·) (ScriptPart.joined_other _)
  · exact ScriptPart.joined_other _

/-- The content of a joined call is written as its parts. -/
theorem script_chain (content : Forest) (seen : Nat) :
    content.script convention (.chain joiner) seen =
      ScriptPart.joined (content.trees.flatMap (Tree.parts convention joiner)) := by
  induction content generalizing seen with
  | nil => rfl
  | leaf token rest ih =>
      rw [trees, List.flatMap_cons, ScriptPart.joined_append, Forest.script]
      cases plain : token.isArgument with
      | true =>
          have kind : token.kind = .argument := eq_of_beq plain
          have own : ScriptPart.joined ((Tree.leaf token).parts convention joiner) =
              (ScriptForm.chain joiner).separator seen := by
            simp only [Tree.parts, Token.parts, kind]
            cases joiner <;> rfl
          rw [if_pos rfl, ih, own]
      | false => rw [if_neg Bool.false_ne_true, ih, Tree.parts, joined_leaf plain]
  | scope start content stop rest _ ih =>
      rw [trees, List.flatMap_cons, ScriptPart.joined_append, joined_scope, ← ih seen, scopeText]
      simp only [Forest.script, List.append_assoc]

/-- A joined call is its parts in parentheses. -/
theorem scopeText_eq (function : start.kind = .function)
    (name : Text.asciiUpper start.value = joiner.functionName) (content : Forest) :
    scopeText convention start content =
      "(".toList ++ (ScriptPart.joined (content.callParts convention joiner) ++ ")".toList) := by
  rw [scopeText, Joiner.ofStart_eq_chain function name, callParts, script_chain]
  cases content <;> cases joiner <;> rfl

/-- What is written for a scope stands in one piece in what is written for the forest around it. -/
private theorem exists_script_of_mem (convention : Convention)
    (member : .scope start content stop ∈ forest.trees) (form : ScriptForm) (seen : Nat) :
    ∃ front back, forest.script convention form seen =
      front ++ (scopeText convention start content ++ back) := by
  induction forest generalizing seen with
  | nil => cases member
  | leaf token rest ih =>
      have later : .scope start content stop ∈ rest.trees := by simpa [trees] using member
      rw [Forest.script]
      split
      · obtain ⟨front, back, split⟩ := ih later (seen + 1)
        exact ⟨form.separator seen ++ front, back, by rw [split, List.append_assoc]⟩
      · obtain ⟨front, back, split⟩ := ih later seen
        exact ⟨form.leaf convention token ++ front, back, by rw [split, List.append_assoc]⟩
  | scope first inner last rest _ ih =>
      rcases List.mem_cons.mp member with own | later
      · obtain ⟨rfl, rfl, rfl⟩ := Tree.scope.inj own
        exact ⟨[], rest.script convention form seen, by
          simp only [Forest.script, scopeText, List.append_assoc, List.nil_append]⟩
      · obtain ⟨front, back, split⟩ := ih later seen
        exact ⟨scopeText convention first inner ++ front, back, by
          simp only [Forest.script, split, scopeText, List.append_assoc]⟩

private theorem exists_tokens_of_mem {tree : Tree} (member : tree ∈ forest.trees) :
    ∃ front back, forest.tokens = front ++ (tree.tokens ++ back) := by
  obtain ⟨before, after, split⟩ := List.append_of_mem member
  refine ⟨before.flatMap Tree.tokens, after.flatMap Tree.tokens, ?_⟩
  rw [tokens_eq, split, List.flatMap_append, List.flatMap_cons]

namespace Tree.Within

variable {tree : Tree}

/-- A scope at any depth is written as it is by itself. -/
theorem exists_script (within : (scope start content stop).Within forest)
    (convention : Convention) (form : ScriptForm) (seen : Nat) :
    ∃ front back, forest.script convention form seen =
      front ++ (scopeText convention start content ++ back) := by
  induction within generalizing form seen with
  | here member => exact exists_script_of_mem convention member form seen
  | @deeper _ outer first last member _ ih =>
      obtain ⟨front, back, split⟩ := exists_script_of_mem convention member form seen
      obtain ⟨inner, behind, inside⟩ := ih (.ofStart first) 0
      refine ⟨front ++ ((ScriptForm.ofStart first).opening ++ inner),
        behind ++ ((ScriptForm.ofStart first).closing outer ++ back), ?_⟩
      rw [split, scopeText, inside]
      simp only [List.append_assoc]

/-- The tokens of a tree stand in one piece in the stream of each forest around it. -/
theorem exists_tokens (within : tree.Within forest) :
    ∃ front back, forest.tokens = front ++ (tree.tokens ++ back) := by
  induction within with
  | here member => exact exists_tokens_of_mem member
  | @deeper _ outer first last member _ ih =>
      obtain ⟨front, back, split⟩ := exists_tokens_of_mem member
      obtain ⟨inner, behind, inside⟩ := ih
      refine ⟨front ++ first :: inner, behind ++ last :: back, ?_⟩
      rw [split, tokens, inside]
      simp

/-- Every tree in a proper forest is proper, at any depth. -/
theorem proper (within : tree.Within forest) (proper : forest.Proper) : tree.Proper := by
  induction within with
  | here member => exact proper.tree _ member
  | deeper member _ ih => exact ih (proper.tree _ member).2

end Tree.Within

end Forest

section Formula

variable {convention : Convention} {language : ScriptLanguage} {formula : List Char}
  {forest content : Forest} {start stop : Token} {joiner : Joiner}

/-- The script of a formula has the parts of each joined call in parentheses. -/
theorem Forest.Tree.Within.toScript_eq (call : (Tree.scope start content stop).Within forest)
    (read : tokenize convention formula = .ok forest.tokens) (proper : forest.Proper)
    (function : start.kind = .function)
    (name : Text.asciiUpper start.value = joiner.functionName) :
    ∃ front back, toScript convention language formula =
      .ok (front ++ ("(".toList ++
        (ScriptPart.joined (content.callParts convention joiner) ++ ")".toList) ++ back)) := by
  have outermost : Script.Holds (.call []) 0 true [] [] := .outermost
  obtain ⟨_, _, written⟩ := @Forest.Proper.textFrom convention _ _ _ _ _ _ proper
    (kind_of_isStart read) outermost []
  obtain ⟨front, back, split⟩ := call.exists_script convention (.call []) 0
  rw [Script.textFrom, List.append_nil, List.append_nil, split,
    scopeText_eq function name] at written
  refine ⟨Text.trimStart front, Text.trimEnd back, ?_⟩
  rw [Script.toScript_eq read, written, trim_append_append]
  · exact ⟨'(', rfl, rfl⟩
  · exact (endsVisibly_concat rfl _).append_left _

end Formula

end SheetFormula
