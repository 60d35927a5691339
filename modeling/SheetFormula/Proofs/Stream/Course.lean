import SheetFormula.Proofs.Scanner.Reading

/-!
# The course of scopes along a stream

A stream of tokens opens and closes scopes.  `Leads` says that a stream, read with some scopes open,
leaves others open: a start pushes the kind of its scope, a stop has to be the stop of the innermost
one, and separators are arguments or unions as the innermost scope has it.  The tokens of an array
only come in the groups that a brace or a semicolon stands for, so the innermost scope is never an
array between two groups.

The relation leaves open which tokens stand between the starts and stops and which names are called,
so that it serves raw and finished streams alike.
-/

namespace SheetFormula

/-- The separator of arguments as a token. -/
def argumentToken (c : Char) : Token :=
  { value := [c], kind := .argument }

/-- The union operator as a token. -/
def unionToken (c : Char) : Token :=
  { value := [c], kind := .infixOperator, role := some .union }

/-- A separator directly in the innermost of the scopes divides arguments. -/
def takeArguments : List ScopeKind → Bool
  | [] => false
  | innermost :: _ => innermost.takesArguments

/-- Reading the tokens with the first scopes open leaves the last scopes open. -/
inductive Leads (convention : Convention) (plain : Token → Prop) (called : List Char → Prop) :
    List ScopeKind → List Token → List ScopeKind → Prop where
  | done {scopes : List ScopeKind} : Leads convention plain called scopes [] scopes
  | plain {scopes last : List ScopeKind} {token : Token} {rest : List Token} (held : plain token)
      (course : Leads convention plain called scopes rest last) :
      Leads convention plain called scopes (token :: rest) last
  | argument {scopes last : List ScopeKind} {rest : List Token}
      (inside : takeArguments scopes = true)
      (course : Leads convention plain called scopes rest last) :
      Leads convention plain called scopes (argumentToken convention.separator :: rest) last
  | union {scopes last : List ScopeKind} {rest : List Token}
      (outside : takeArguments scopes = false)
      (course : Leads convention plain called scopes rest last) :
      Leads convention plain called scopes (unionToken convention.separator :: rest) last
  | call {scopes last : List ScopeKind} {name : List Char} {rest : List Token}
      (named : called name)
      (course : Leads convention plain called (.function :: scopes) rest last) :
      Leads convention plain called scopes (ScopeKind.function.startToken name :: rest) last
  | group {scopes last : List ScopeKind} {rest : List Token}
      (course : Leads convention plain called (.subexpression :: scopes) rest last) :
      Leads convention plain called scopes (ScopeKind.subexpression.startToken [] :: rest) last
  | callEnd {scopes last : List ScopeKind} {rest : List Token}
      (course : Leads convention plain called scopes rest last) :
      Leads convention plain called (.function :: scopes)
        (ScopeKind.function.stopToken :: rest) last
  | groupEnd {scopes last : List ScopeKind} {rest : List Token}
      (course : Leads convention plain called scopes rest last) :
      Leads convention plain called (.subexpression :: scopes)
        (ScopeKind.subexpression.stopToken :: rest) last
  | array {scopes last : List ScopeKind} {rest : List Token}
      (course : Leads convention plain called (.arrayRow :: .array :: scopes) rest last) :
      Leads convention plain called scopes
        (ScopeKind.array.startToken arrayName :: ScopeKind.arrayRow.startToken arrayRowName :: rest)
        last
  | nextRow {scopes last : List ScopeKind} {rest : List Token} (us : convention = .us)
      (course : Leads convention plain called (.arrayRow :: .array :: scopes) rest last) :
      Leads convention plain called (.arrayRow :: .array :: scopes)
        (ScopeKind.arrayRow.stopToken :: argumentToken ';' ::
          ScopeKind.arrayRow.startToken arrayRowName :: rest) last
  | arrayEnd {scopes last : List ScopeKind} {rest : List Token}
      (course : Leads convention plain called scopes rest last) :
      Leads convention plain called (.arrayRow :: .array :: scopes)
        (ScopeKind.arrayRow.stopToken :: ScopeKind.array.stopToken :: rest) last

namespace Leads

variable {convention : Convention} {plain plain' : Token → Prop}
  {called called' : List Char → Prop} {scopes middle last : List ScopeKind}
  {tokens more : List Token}

/-- Streams that go on from each other's scopes make up one stream. -/
theorem append (first : Leads convention plain called scopes tokens middle)
    (second : Leads convention plain called middle more last) :
    Leads convention plain called scopes (tokens ++ more) last := by
  induction first with
  | done => exact second
  | plain held _ ih => exact .plain held (ih second)
  | argument inside _ ih => exact .argument inside (ih second)
  | union outside _ ih => exact .union outside (ih second)
  | call named _ ih => exact .call named (ih second)
  | group _ ih => exact .group (ih second)
  | callEnd _ ih => exact .callEnd (ih second)
  | groupEnd _ ih => exact .groupEnd (ih second)
  | array _ ih => exact .array (ih second)
  | nextRow us _ ih => exact .nextRow us (ih second)
  | arrayEnd _ ih => exact .arrayEnd (ih second)

/-- A stream stays one when more tokens and more names are allowed. -/
theorem mono (weaker : ∀ token, plain token → plain' token)
    (names : ∀ name, called name → called' name)
    (course : Leads convention plain called scopes tokens last) :
    Leads convention plain' called' scopes tokens last := by
  induction course with
  | done => exact .done
  | plain held _ ih => exact .plain (weaker _ held) ih
  | argument inside _ ih => exact .argument inside ih
  | union outside _ ih => exact .union outside ih
  | call named _ ih => exact .call (names _ named) ih
  | group _ ih => exact .group ih
  | callEnd _ ih => exact .callEnd ih
  | groupEnd _ ih => exact .groupEnd ih
  | array _ ih => exact .array ih
  | nextRow us _ ih => exact .nextRow us ih
  | arrayEnd _ ih => exact .arrayEnd ih

/-- A course can be told what holds of all of its tokens. -/
theorem restrict {holds : Token → Prop} (course : Leads convention plain called scopes tokens last)
    (all : ∀ token ∈ tokens, holds token) :
    Leads convention (fun token => plain token ∧ holds token) called scopes tokens last := by
  have later {token : Token} {rest : List Token} (all : ∀ t ∈ token :: rest, holds t) :
      ∀ t ∈ rest, holds t := (List.forall_mem_cons.mp all).2
  induction course with
  | done => exact .done
  | plain held _ ih =>
      obtain ⟨own, rest⟩ := List.forall_mem_cons.mp all
      exact .plain ⟨held, own⟩ (ih rest)
  | argument inside _ ih => exact .argument inside (ih (later all))
  | union outside _ ih => exact .union outside (ih (later all))
  | call named _ ih => exact .call named (ih (later all))
  | group _ ih => exact .group (ih (later all))
  | callEnd _ ih => exact .callEnd (ih (later all))
  | groupEnd _ ih => exact .groupEnd (ih (later all))
  | array _ ih => exact .array (ih (later (later all)))
  | nextRow us _ ih => exact .nextRow us (ih (later (later (later all))))
  | arrayEnd _ ih => exact .arrayEnd (ih (later (later all)))

/-- A property holds of all tokens of a stream if it holds of the plain ones, of the separators and
of the boundaries of scopes. -/
theorem forall_mem {holds : Token → Prop}
    (course : Leads convention plain called scopes tokens last)
    (plains : ∀ token, plain token → holds token)
    (separators : ∀ c ∈ [',', ';'], holds (argumentToken c) ∧ holds (unionToken c))
    (starts : ∀ (kind : ScopeKind) name, holds (kind.startToken name))
    (stops : ∀ kind : ScopeKind, holds kind.stopToken) : ∀ token ∈ tokens, holds token := by
  have separator : convention.separator ∈ [',', ';'] := by cases convention <;> decide
  induction course with
  | done => simp
  | plain held _ ih => exact List.forall_mem_cons.mpr ⟨plains _ held, ih⟩
  | argument _ _ ih => exact List.forall_mem_cons.mpr ⟨(separators _ separator).1, ih⟩
  | union _ _ ih => exact List.forall_mem_cons.mpr ⟨(separators _ separator).2, ih⟩
  | call _ _ ih => exact List.forall_mem_cons.mpr ⟨starts _ _, ih⟩
  | group _ ih => exact List.forall_mem_cons.mpr ⟨starts _ _, ih⟩
  | callEnd _ ih => exact List.forall_mem_cons.mpr ⟨stops _, ih⟩
  | groupEnd _ ih => exact List.forall_mem_cons.mpr ⟨stops _, ih⟩
  | array _ ih =>
      exact List.forall_mem_cons.mpr ⟨starts _ _, List.forall_mem_cons.mpr ⟨starts _ _, ih⟩⟩
  | nextRow _ _ ih =>
      exact List.forall_mem_cons.mpr ⟨stops _, List.forall_mem_cons.mpr
        ⟨(separators ';' (by decide)).1, List.forall_mem_cons.mpr ⟨starts _ _, ih⟩⟩⟩
  | arrayEnd _ ih =>
      exact List.forall_mem_cons.mpr ⟨stops _, List.forall_mem_cons.mpr ⟨stops _, ih⟩⟩

end Leads

/-- Every row lies directly on its array, and every array lies directly under one of its rows. -/
inductive Stacked : List ScopeKind → Prop where
  | empty : Stacked []
  | call {scopes : List ScopeKind} (outer : Stacked scopes) : Stacked (.function :: scopes)
  | group {scopes : List ScopeKind} (outer : Stacked scopes) : Stacked (.subexpression :: scopes)
  | row {scopes : List ScopeKind} (outer : Stacked scopes) : Stacked (.arrayRow :: .array :: scopes)

/-- Rows and arrays that are stacked stay so along a stream. -/
theorem Leads.stacked {convention : Convention} {plain : Token → Prop} {called : List Char → Prop}
    {scopes last : List ScopeKind} {tokens : List Token}
    (course : Leads convention plain called scopes tokens last) (outer : Stacked scopes) :
    Stacked last := by
  induction course with
  | done => exact outer
  | plain _ _ ih => exact ih outer
  | argument _ _ ih => exact ih outer
  | union _ _ ih => exact ih outer
  | call _ _ ih => exact ih (.call outer)
  | group _ ih => exact ih (.group outer)
  | callEnd _ ih => cases outer with | call outer => exact ih outer
  | groupEnd _ ih => cases outer with | group outer => exact ih outer
  | array _ ih => exact ih (.row outer)
  | nextRow _ _ ih => exact ih outer
  | arrayEnd _ ih => cases outer with | row outer => exact ih outer

/-- An array lies directly under a row. -/
theorem Stacked.under_row {scopes : List ScopeKind} (stacked : Stacked (.arrayRow :: scopes)) :
    ∃ outer, scopes = .array :: outer := by
  cases stacked with
  | row outer => exact ⟨_, rfl⟩

/-- The stops of all open scopes, innermost first, close them all. -/
theorem Stacked.closed {convention : Convention} {plain : Token → Prop}
    {called : List Char → Prop} {scopes : List ScopeKind} (stacked : Stacked scopes) :
    Leads convention plain called scopes (scopes.map ScopeKind.stopToken) [] := by
  induction stacked with
  | empty => exact .done
  | call _ ih => exact .callEnd ih
  | group _ ih => exact .groupEnd ih
  | row _ ih => exact .arrayEnd ih

end SheetFormula
