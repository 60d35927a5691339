import SheetFormula.Proofs.Scanner.Literal
import SheetFormula.Proofs.Stream.Marks

/-!
# Brackets and separators

Which scopes a formula opens and closes depends only on the brackets and separators that it has
outside of literals.  `Bracket.follow` reads them off a text, between brackets that are already
open: it gives the marks that the text leaves and the brackets that are open behind it, or nothing
if some bracket is closed that is not the innermost one.

Texts without brackets and separators can be left out (`Bracket.Inert.skip`).  A parenthesis around
a text changes nothing in it (`Bracket.follow_lift`), unless the text closes this parenthesis
(`Bracket.exists_early`).
-/

namespace SheetFormula

/-- A bracket that has been opened. -/
inductive Bracket where
  | round
  | curly
  deriving DecidableEq, Repr

namespace Bracket

/-- The number of scopes of a bracket.  An array has its rows in a scope of their own. -/
def scopes : Bracket → Nat
  | round => 1
  | curly => 2

/-- The marks of the end of a formula, by the brackets that are still open. -/
def closers (opened : List Bracket) : List Mark :=
  opened.flatMap fun bracket => List.replicate bracket.scopes .closes

end Bracket

/-- What a character outside of literals can mean for scopes. -/
inductive Delimiter where
  | opens (bracket : Bracket)
  | closes (bracket : Bracket)
  | separates
  /-- A semicolon that does not separate arguments. -/
  | row
  deriving DecidableEq, Repr

namespace Delimiter

/-- What a character means for scopes, if anything. -/
def of? (convention : Convention) (c : Char) : Option Delimiter :=
  if c = '(' then some (opens .round)
  else if c = '\x7b' then some (opens .curly)
  else if c = ')' then some (closes .round)
  else if c = '\x7d' then some (closes .curly)
  else if c = convention.separator then some separates
  else if c = ';' then some row
  else none

/-- The marks that a delimiter leaves, and the brackets that are open behind it. -/
def meet : Delimiter → List Bracket → Option (List Mark × List Bracket)
  | opens bracket, opened => some (List.replicate bracket.scopes .opens, bracket :: opened)
  | closes _, [] => none
  | closes bracket, innermost :: outer =>
      if bracket = innermost then some (List.replicate bracket.scopes .closes, outer) else none
  | separates, opened => some ([.separates], opened)
  | row, .curly :: outer => some ([.closes, .separates, .opens], .curly :: outer)
  | row, opened => some ([.stray], opened)

variable {delimiter : Delimiter} {opened last : List Bracket} {left : List Mark}

/-- Every delimiter leaves a mark. -/
theorem meet_marked (delimiter : Delimiter) : delimiter.meet opened ≠ some ([], last) := by
  intro met
  cases delimiter with
  | opens bracket => cases bracket <;> simp [meet, Bracket.scopes] at met
  | closes bracket =>
      cases opened with
      | nil => simp [meet] at met
      | cons innermost outer => cases bracket <;> simp [meet, Bracket.scopes] at met
  | separates => simp [meet] at met
  | row =>
      cases opened with
      | nil => simp [meet] at met
      | cons innermost outer => cases innermost <;> simp [meet] at met

/-- What a delimiter does stays the same with one more parenthesis around all brackets. -/
private theorem meet_lift (delimiter : Delimiter)
    (met : delimiter.meet opened = some (left, last)) :
    delimiter.meet (opened ++ [.round]) = some (left, last ++ [.round]) := by
  cases delimiter with
  | opens bracket =>
      obtain ⟨rfl, rfl⟩ := Prod.mk.inj (Option.some.inj met)
      rfl
  | closes bracket =>
      cases opened with
      | nil => cases met
      | cons innermost outer =>
          rw [List.cons_append]
          rw [meet] at met ⊢
          by_cases same : bracket = innermost
          · rw [if_pos same] at met ⊢
            obtain ⟨rfl, rfl⟩ := Prod.mk.inj (Option.some.inj met)
            rfl
          · rw [if_neg same] at met
            cases met
  | separates =>
      obtain ⟨rfl, rfl⟩ := Prod.mk.inj (Option.some.inj met)
      rfl
  | row =>
      cases opened with
      | nil =>
          obtain ⟨rfl, rfl⟩ := Prod.mk.inj (Option.some.inj met)
          rfl
      | cons innermost outer =>
          cases innermost <;>
            obtain ⟨rfl, rfl⟩ := Prod.mk.inj (Option.some.inj met) <;> rfl

/-- One more parenthesis around all brackets only admits the delimiter that closes it. -/
private theorem meet_early (delimiter : Delimiter) (refused : delimiter.meet opened = none)
    (met : delimiter.meet (opened ++ [.round]) = some (left, last)) :
    opened = [] ∧ delimiter = closes .round := by
  cases delimiter with
  | opens bracket => cases refused
  | closes bracket =>
      cases opened with
      | nil =>
          cases bracket with
          | round => exact ⟨rfl, rfl⟩
          | curly => cases met
      | cons innermost outer =>
          rw [List.cons_append] at met
          rw [meet] at met refused
          by_cases same : bracket = innermost
          · rw [if_pos same] at refused
            cases refused
          · rw [if_neg same] at met
            cases met
  | separates => cases refused
  | row =>
      cases opened with
      | nil => cases refused
      | cons innermost outer => cases innermost <;> cases refused

private theorem of?_closes {convention : Convention} {c : Char}
    (found : of? convention c = some (closes .round)) : c = ')' := by
  by_contra other
  unfold of? at found
  rw [if_neg other] at found
  split_ifs at found <;> cases found

end Delimiter

namespace Bracket

/-- The marks that a character outside of literals leaves, and the brackets that are open behind
it. -/
def meet (convention : Convention) (opened : List Bracket) (c : Char) :
    Option (List Mark × List Bracket) :=
  match Delimiter.of? convention c with
  | some delimiter => delimiter.meet opened
  | none => some ([], opened)

/-- The marks that a character leaves, and the brackets that are open behind it. -/
def meetIn (convention : Convention) (literal : Literal) (opened : List Bracket) (c : Char) :
    Option (List Mark × List Bracket) :=
  if literal = .outside then meet convention opened c else some ([], opened)

/-- The marks that a text leaves, and the brackets that are open behind it. -/
def follow (convention : Convention) : Literal → List Bracket → List Char →
    Option (List Mark × List Bracket)
  | _, opened, [] => some ([], opened)
  | literal, opened, c :: rest =>
      (meetIn convention literal opened c).bind fun met =>
        (follow convention (literal.next c) met.2 rest).map fun last => (met.1 ++ last.1, last.2)

variable {convention : Convention} {literal : Literal} {opened last : List Bracket}
  {left : List Mark}

/-- A text is followed through its parts, the second one with what the first one leaves open. -/
theorem follow_append (literal : Literal) (opened : List Bracket) (first second : List Char) :
    follow convention literal opened (first ++ second) =
      (follow convention literal opened first).bind fun met =>
        (follow convention (literal.after first) met.2 second).map fun last =>
          (met.1 ++ last.1, last.2) := by
  induction first generalizing literal opened with
  | nil => simp [follow]
  | cons c first ih =>
      rw [List.cons_append, follow, follow]
      cases meetIn convention literal opened c with
      | none => rfl
      | some met =>
          rw [Option.bind_some, Option.bind_some, ih, Literal.after_cons]
          cases follow convention (literal.next c) met.2 first with
          | none => rfl
          | some middle =>
              simp [Function.comp_def]

/-- A character that is no delimiter leaves no mark. -/
theorem meet_of_plain {c : Char} (plain : c ∉ delimiters) (opened : List Bracket) :
    meet convention opened c = some ([], opened) := by
  have separator : c ≠ convention.separator := by
    rintro rfl
    cases convention <;> exact plain (by decide)
  simp only [delimiters, List.mem_cons, List.not_mem_nil, or_false, not_or] at plain
  simp [meet, Delimiter.of?, plain, separator]

/-- The text has no brackets and separators outside of literals, and leaves the literals it
enters. -/
structure Inert (convention : Convention) (text : List Char) : Prop where
  closed : Literal.outside.after text = .outside
  unmarked : ∀ opened, follow convention .outside opened text = some ([], opened)

/-- A text without brackets and separators outside of literals can be left out at the front. -/
theorem Inert.skip {text : List Char} (inert : Inert convention text) (opened : List Bracket)
    (rest : List Char) :
    follow convention .outside opened (text ++ rest) = follow convention .outside opened rest := by
  rw [follow_append, inert.unmarked, inert.closed, Option.bind_some]
  exact Option.map_id'

/-- A text without delimiters and without characters that begin literals leaves no marks. -/
theorem inert_of_plain {text : List Char} (plain : IsPlain text) : Inert convention text := by
  refine ⟨Literal.outside_after plain.not_beginner, fun opened => ?_⟩
  induction text with
  | nil => rfl
  | cons c rest ih =>
      have others : IsPlain rest := (List.forall_mem_cons.mp plain).2
      have unmet := @meet_of_plain convention c
        (fun member => plain c List.mem_cons_self (List.mem_append_right _ member)) opened
      have outside := Literal.outside_next (plain.not_beginner c List.mem_cons_self)
      rw [follow, meetIn, if_pos rfl, unmet, Option.bind_some, outside, ih others]
      rfl

private theorem follow_cons_eq_some {c : Char} {rest : List Char} :
    follow convention literal opened (c :: rest) = some (left, last) ↔
      ∃ first middle more, meetIn convention literal opened c = some (first, middle) ∧
        follow convention (literal.next c) middle rest = some (more, last) ∧
          first ++ more = left := by
  rw [follow]
  constructor
  · intro followed
    obtain ⟨⟨first, middle⟩, met, mapped⟩ := Option.bind_eq_some_iff.mp followed
    obtain ⟨⟨more, end'⟩, later, same⟩ := Option.map_eq_some_iff.mp mapped
    obtain ⟨rfl, rfl⟩ := Prod.mk.inj same
    exact ⟨first, middle, more, met, later, rfl⟩
  · rintro ⟨first, middle, more, met, later, rfl⟩
    rw [met, Option.bind_some, later]
    rfl

/-- A character leaves no mark, or it is a delimiter outside of literals. -/
theorem meetIn_cases (convention : Convention) (literal : Literal) (c : Char) :
    (∀ opened, meetIn convention literal opened c = some ([], opened)) ∨
      literal = .outside ∧ ∃ delimiter, Delimiter.of? convention c = some delimiter ∧
        ∀ opened, meetIn convention literal opened c = delimiter.meet opened := by
  by_cases outside : literal = .outside
  · cases found : Delimiter.of? convention c with
    | none =>
        left
        intro opened
        rw [meetIn, if_pos outside, meet, found]
    | some delimiter =>
        refine .inr ⟨outside, delimiter, rfl, fun opened => ?_⟩
        rw [meetIn, if_pos outside, meet, found]
  · left
    intro opened
    rw [meetIn, if_neg outside]

private theorem meetIn_of_unmarked {c : Char}
    (unmarked : meetIn convention literal opened c = some ([], last)) (others : List Bracket) :
    meetIn convention literal others c = some ([], others) := by
  rcases meetIn_cases convention literal c with plain | ⟨_, delimiter, _, same⟩
  · exact plain others
  · rw [same] at unmarked
    exact (delimiter.meet_marked unmarked).elim

/-- A text that leaves no marks has no brackets and separators outside of literals. -/
theorem follow_of_unmarked {text : List Char}
    (unmarked : follow convention literal opened text = some ([], last)) (others : List Bracket) :
    follow convention literal others text = some ([], others) := by
  induction text generalizing literal opened with
  | nil => rfl
  | cons c rest ih =>
      obtain ⟨first, middle, more, met, later, none⟩ := follow_cons_eq_some.mp unmarked
      obtain ⟨rfl, rfl⟩ := List.append_eq_nil_iff.mp none
      have unmet := meetIn_of_unmarked met others
      exact follow_cons_eq_some.mpr ⟨[], others, [], unmet, ih later, rfl⟩

private theorem meetIn_lift {c : Char}
    (met : meetIn convention literal opened c = some (left, last)) :
    meetIn convention literal (opened ++ [round]) c = some (left, last ++ [round]) := by
  rcases meetIn_cases convention literal c with plain | ⟨_, delimiter, _, same⟩
  · rw [plain] at met ⊢
    obtain ⟨rfl, rfl⟩ := Prod.mk.inj (Option.some.inj met)
    rfl
  · rw [same] at met ⊢
    exact delimiter.meet_lift met

/-- What lies in a literal can be left out. -/
theorem follow_of_keeps {text : List Char} (inside : literal ≠ .outside)
    (kept : literal.keeps text = true) (opened : List Bracket) (rest : List Char) :
    follow convention literal opened (text ++ rest) = follow convention literal opened rest := by
  induction text with
  | nil => rfl
  | cons c text ih =>
      obtain ⟨first, others⟩ := Literal.keeps_cons.mp kept
      rw [List.cons_append, follow, meetIn, if_neg inside, Option.bind_some, first, ih others]
      exact Option.map_id'

/-- With a parenthesis around all of it a text leaves the same marks. -/
theorem follow_lift {text : List Char}
    (followed : follow convention literal opened text = some (left, last)) :
    follow convention literal (opened ++ [round]) text = some (left, last ++ [round]) := by
  induction text generalizing literal opened left with
  | nil =>
      obtain ⟨rfl, rfl⟩ := Prod.mk.inj (Option.some.inj followed)
      rfl
  | cons c rest ih =>
      obtain ⟨first, middle, more, met, later, joined⟩ := follow_cons_eq_some.mp followed
      exact follow_cons_eq_some.mpr ⟨first, _, more, meetIn_lift met, ih later, joined⟩

/-- With a parenthesis around all open brackets, the innermost one is a parenthesis unless it is a
brace without it. -/
theorem exists_outer (opened : List Bracket) :
    (∃ last, opened ++ [.round] = .round :: last) ↔ opened.head? ≠ some .curly := by
  cases opened with
  | nil => simp
  | cons innermost outer => cases innermost <;> simp

private theorem meetIn_early {c : Char} (refused : meetIn convention literal opened c = none)
    (met : meetIn convention literal (opened ++ [round]) c = some (left, last)) :
    opened = [] ∧ c = ')' ∧ literal = .outside := by
  rcases meetIn_cases convention literal c with plain | ⟨outside, delimiter, found, same⟩
  · rw [plain] at refused
    cases refused
  · rw [same] at refused met
    obtain ⟨none, rfl⟩ := delimiter.meet_early refused met
    exact ⟨none, Delimiter.of?_closes found, outside⟩

/-- A text that is refused alone and not with a parenthesis around it closes this parenthesis. -/
theorem exists_early {text : List Char}
    (refused : follow convention literal opened text = none)
    (followed : follow convention literal (opened ++ [round]) text = some (left, last)) :
    ∃ before rest marks, text = before ++ ')' :: rest ∧
      follow convention literal opened before = some (marks, []) ∧
        literal.after before = .outside := by
  induction text generalizing literal opened left with
  | nil => cases refused
  | cons c rest ih =>
      obtain ⟨first, middle, more, met, later, _⟩ := follow_cons_eq_some.mp followed
      cases alone : meetIn convention literal opened c with
      | none =>
          obtain ⟨rfl, rfl, rfl⟩ := meetIn_early alone met
          exact ⟨[], rest, [], rfl, rfl, rfl⟩
      | some own =>
          -- Both readings agree here, and the parenthesis stays below the brackets of the text.
          obtain ⟨marks, next⟩ := own
          have same := (meetIn_lift alone).symm.trans met
          obtain ⟨rfl, rfl⟩ := Prod.mk.inj (Option.some.inj same)
          have unread : follow convention (literal.next c) next rest = none := by
            rw [follow, alone, Option.bind_some, Option.map_eq_none_iff] at refused
            exact refused
          obtain ⟨before, behind, found, rfl, reached, outside⟩ := ih unread later
          exact ⟨c :: before, behind, marks ++ found, rfl,
            follow_cons_eq_some.mpr ⟨marks, next, found, alone, reached, rfl⟩, outside⟩

end Bracket

end SheetFormula
