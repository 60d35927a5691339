import SheetFormula.Proofs.Arithmetic.Joined

/-!
# Rows that keep their grouping

In a sheet the percent sign binds most tightly, then the sign, and powers are grouped from the left.
In a script a percent sign is a division by a hundred like any other, powers are grouped from the
right, and the base of a power has no sign.  `Joined.agrees_iff` says for which rows both readings
give the same expression.  The two have the same size, so where a script groups more or less than a
sheet around an operator the sizes of its operands tell them apart.
-/

namespace SheetFormula

open ArithmeticTree

variable {α β : Type}

/-- A value with the signs before it and the percent signs after it. -/
structure Marked (α : Type) where
  signs : Nat
  value : α
  percents : Nat
  deriving DecidableEq, Repr

namespace Marked

def map (f : α → β) (operand : Marked α) : Marked β :=
  ⟨operand.signs, f operand.value, operand.percents⟩

/-- The expression of an operand in a sheet. -/
def tree (operand : Marked ArithmeticTree) : ArithmeticTree :=
  negate^[operand.signs] (percent^[operand.percents] operand.value)

/-- Neither a sign nor a percent sign belongs to the value. -/
def IsPlain (operand : Marked α) : Prop :=
  operand.signs = 0 ∧ operand.percents = 0

end Marked

/-- A value with the signs before it. -/
structure Signed where
  signs : Nat
  value : ArithmeticTree
  deriving DecidableEq, Repr

/-- The expression of an operand in a script. -/
def Signed.tree (operand : Signed) : ArithmeticTree :=
  negate^[operand.signs] operand.value

/-- The operand of a script without the percent signs. -/
def Marked.signed (operand : Marked ArithmeticTree) : Signed :=
  ⟨operand.signs, operand.value⟩

private theorem Marked.signed_tree {operand : Marked ArithmeticTree}
    (percentless : operand.percents = 0) : operand.signed.tree = operand.tree := by
  rw [tree, percentless]
  rfl

namespace Joined

/-- The expression of a row in a sheet. -/
def sheetTree (row : Joined (Marked ArithmeticTree)) : ArithmeticTree :=
  (row.map Marked.tree).arithmetic fold

/-- No power in the row has a base with a sign. -/
def hasPlainBases : Joined Signed → Bool
  | single _ => true
  | join front operator _ =>
      front.hasPlainBases && (operator != .power || front.last.signs == 0)

/-- The expression of a row in a script, whatever the bases. -/
def scriptTree (row : Joined Signed) : ArithmeticTree :=
  (row.map Signed.tree).arithmetic foldRight

/-- The expression of a row in a script. -/
def scriptTree? (row : Joined Signed) : Option ArithmeticTree :=
  if row.hasPlainBases then some row.scriptTree else none

/-- The row with divisions by a hundred after it. -/
def overHundred (row : Joined Signed) : Nat → Joined Signed
  | 0 => row
  | count + 1 => join (row.overHundred count) .divide ⟨0, hundred⟩

/-- The row of a script for a row of a sheet. -/
def scripted : Joined (Marked ArithmeticTree) → Joined Signed
  | single operand => (single operand.signed).overHundred operand.percents
  | join front operator last =>
      (join front.scripted operator last.signed).overHundred last.percents

/-- The row ends with an operand that can be the base of a power: a plain one, and not itself an
exponent. -/
def EndsInBase : Joined (Marked α) → Prop
  | single operand => operand.IsPlain
  | join _ operator last => operator ≠ .power ∧ last.IsPlain

/-- A percent sign belongs to an operand without a sign, at the beginning of a term.  An exponent
follows a plain operand which is not an exponent. -/
def KeepsGrouping : Joined (Marked α) → Prop
  | single operand => operand.percents = 0 ∨ operand.signs = 0
  | join front operator last =>
      front.KeepsGrouping ∧
        match operator with
        | .plus | .minus => last.percents = 0 ∨ last.signs = 0
        | .times | .divide => last.percents = 0
        | .power => last.percents = 0 ∧ front.EndsInBase

instance decidableEndsInBase : (row : Joined (Marked α)) → Decidable row.EndsInBase
  | single operand => inferInstanceAs (Decidable (operand.signs = 0 ∧ operand.percents = 0))
  | join _ operator last =>
      inferInstanceAs (Decidable (operator ≠ .power ∧ last.signs = 0 ∧ last.percents = 0))

instance decidableKeepsGrouping : (row : Joined (Marked α)) → Decidable row.KeepsGrouping
  | single operand => inferInstanceAs (Decidable (operand.percents = 0 ∨ operand.signs = 0))
  | join front operator last =>
      have := decidableKeepsGrouping front
      match operator with
      | .plus | .minus =>
          inferInstanceAs (Decidable (front.KeepsGrouping ∧ (last.percents = 0 ∨ last.signs = 0)))
      | .times | .divide => inferInstanceAs (Decidable (front.KeepsGrouping ∧ last.percents = 0))
      | .power =>
          inferInstanceAs (Decidable (front.KeepsGrouping ∧ last.percents = 0 ∧ front.EndsInBase))

section Scripted

variable (front row : Joined Signed) (operator : ArithmeticOperator) (count : Nat)

/-- Divisions by a hundred at the end of two joined rows belong to the second one. -/
theorem append_overHundred :
    front.append operator (row.overHundred count) =
      (front.append operator row).overHundred count := by
  induction count with
  | zero => rfl
  | succ count ih => rw [overHundred, append, ih, overHundred]

private theorem operators_overHundred :
    (row.overHundred count).operators = row.operators ++ List.replicate count .divide := by
  induction count with
  | zero => exact (List.append_nil _).symm
  | succ count ih =>
      rw [overHundred, operators, ih, List.append_assoc, ← List.replicate_succ']

private theorem hasPlainBases_overHundred :
    (row.overHundred count).hasPlainBases = row.hasPlainBases := by
  induction count with
  | zero => rfl
  | succ count ih => simp [overHundred, hasPlainBases, ih]

private theorem weight_overHundred :
    (row.overHundred count).weight (size ∘ Signed.tree) =
      row.weight (size ∘ Signed.tree) + 2 * count := by
  induction count with
  | zero => rfl
  | succ count ih =>
      have one : (size ∘ Signed.tree) ⟨0, hundred⟩ = 1 := rfl
      rw [overHundred, weight, ih, one]
      omega

variable {front row operator}

private theorem hasPlainBases_append (other : operator ≠ .power) :
    (front.append operator row).hasPlainBases = (front.hasPlainBases && row.hasPlainBases) := by
  induction row with
  | single operand => simp [append, hasPlainBases, other]
  | join middle second last ih => simp [append, hasPlainBases, ih, Bool.and_assoc]

private theorem scriptTree_overHundred (term : ∀ inner ∈ row.operators, inner.isAdditive = false) :
    (row.overHundred count).scriptTree = percent^[count] row.scriptTree := by
  induction count with
  | zero => rfl
  | succ count ih =>
      have divided : ∀ inner ∈ ((row.overHundred count).map Signed.tree).operators,
          inner.isAdditive = false := by
        rw [operators_map, operators_overHundred]
        refine List.forall_mem_append.mpr ⟨term, fun inner member => ?_⟩
        rw [List.eq_of_mem_replicate member]
        rfl
      have last : ∀ inner ∈ (single hundred).operators, inner = .power := by simp [operators]
      rw [Function.iterate_succ_apply', ← ih]
      exact arithmetic_append_factor rfl divided last

end Scripted

section Marked

variable {front row : Joined (Marked ArithmeticTree)} {operator : ArithmeticOperator}

/-- The script row of two joined rows joins the script rows of the two. -/
theorem scripted_append :
    (front.append operator row).scripted = front.scripted.append operator row.scripted := by
  induction row with
  | single operand => rw [append, scripted, scripted, append_overHundred, append]
  | join middle second last ih => rw [append, scripted, scripted, append_overHundred, append, ih]

private theorem mem_operators_scripted :
    operator ∈ row.scripted.operators ↔
      operator ∈ row.operators ∨ operator = .divide ∧ ∃ o ∈ row.operands, o.percents ≠ 0 := by
  induction row with
  | single operand => simp [scripted, operators_overHundred, operators, operands, and_comm]
  | join front earlier last ih =>
      simp only [scripted, operators_overHundred, operators, operands, List.mem_append, ih,
        List.mem_singleton, List.mem_replicate]
      constructor
      · rintro (((before | ⟨own, o, member, some⟩) | own) | ⟨some, own⟩)
        · exact .inl (.inl before)
        · exact .inr ⟨own, o, .inl member, some⟩
        · exact .inl (.inr own)
        · exact .inr ⟨own, last, .inr rfl, some⟩
      · rintro ((before | own) | ⟨own, o, member | rfl, some⟩)
        · exact .inl (.inl (.inl before))
        · exact .inl (.inr own)
        · exact .inl (.inl (.inr ⟨own, o, member, some⟩))
        · exact .inr ⟨some, own⟩

private theorem scripted_eq_map (percentless : ∀ o ∈ row.operands, o.percents = 0) :
    row.scripted = row.map Marked.signed := by
  induction row with
  | single operand =>
      rw [scripted, percentless operand (List.mem_singleton_self operand), overHundred, map]
  | join front earlier last ih =>
      obtain ⟨before, own⟩ := List.forall_mem_append.mp percentless
      rw [scripted, own last (List.mem_singleton_self last), overHundred, ih before, map]

private theorem weight_scripted :
    row.scripted.weight (size ∘ Signed.tree) = row.weight (size ∘ Marked.tree) := by
  have own (operand : Marked ArithmeticTree) :
      (size ∘ Marked.tree) operand =
        (size ∘ Signed.tree) operand.signed + 2 * operand.percents := by
    simp only [Function.comp_apply, Marked.tree, Signed.tree, Marked.signed, size_iterate_negate,
      size_iterate_percent]
    omega
  induction row with
  | single operand => rw [scripted, weight_overHundred, weight, weight, own]
  | join front earlier last ih =>
      rw [scripted, weight_overHundred, weight, weight, own, ih]
      omega

private theorem size_sheetTree (row : Joined (Marked ArithmeticTree)) :
    row.sheetTree.size = row.weight (size ∘ Marked.tree) := by
  rw [sheetTree, size_arithmetic size_fold, weight_map]

private theorem size_scriptTree (row : Joined Signed) :
    row.scriptTree.size = row.weight (size ∘ Signed.tree) := by
  rw [scriptTree, size_arithmetic size_foldRight, weight_map]

private theorem isAdditive_scripted (term : ∀ inner ∈ row.operators, inner.isAdditive = false) :
    ∀ inner ∈ row.scripted.operators, inner.isAdditive = false := by
  intro inner member
  rcases mem_operators_scripted.mp member with own | ⟨rfl, _⟩
  · exact term inner own
  · rfl

private theorem sheetTree_append_term (cut : operator.isAdditive = true)
    (term : ∀ inner ∈ row.operators, inner.isAdditive = false) :
    (front.append operator row).sheetTree = .binary operator front.sheetTree row.sheetTree := by
  rw [sheetTree, map_append]
  apply arithmetic_append cut
  rwa [operators_map]

private theorem sheetTree_append_factor (cut : operator.isMultiplicative = true)
    (term : ∀ inner ∈ front.operators, inner.isAdditive = false)
    (powers : ∀ inner ∈ row.operators, inner = .power) :
    (front.append operator row).sheetTree = .binary operator front.sheetTree row.sheetTree := by
  rw [sheetTree, map_append]
  apply arithmetic_append_factor cut
  · rwa [operators_map]
  · rwa [operators_map]

end Marked

private theorem scriptTree_append_term {front row : Joined Signed} {operator : ArithmeticOperator}
    (cut : operator.isAdditive = true)
    (term : ∀ inner ∈ row.operators, inner.isAdditive = false) :
    (front.append operator row).scriptTree = .binary operator front.scriptTree row.scriptTree := by
  rw [scriptTree, map_append]
  apply arithmetic_append cut
  rwa [operators_map]

private theorem scriptTree_append_factor {front row : Joined Signed} {operator : ArithmeticOperator}
    (cut : operator.isMultiplicative = true)
    (term : ∀ inner ∈ front.operators, inner.isAdditive = false)
    (powers : ∀ inner ∈ row.operators, inner = .power) :
    (front.append operator row).scriptTree = .binary operator front.scriptTree row.scriptTree := by
  rw [scriptTree, map_append]
  apply arithmetic_append_factor cut
  · rwa [operators_map]
  · rwa [operators_map]

private theorem sheetTree_power {front : Joined (Marked ArithmeticTree)}
    {last : Marked ArithmeticTree} (powers : ∀ inner ∈ front.operators, inner = .power) :
    (front.join .power last).sheetTree = .binary .power front.sheetTree last.tree := by
  rw [sheetTree, arithmetic_powers, sheetTree, arithmetic_powers]
  · rfl
  · rwa [operators_map]
  · rw [operators_map]
    exact operators_join_power powers

/-- Where there is no percent sign, powers are grouped from the right. -/
theorem scriptTree_power {front : Joined (Marked ArithmeticTree)} {last : Marked ArithmeticTree}
    (powers : ∀ inner ∈ front.operators, inner = .power)
    (percentless : ∀ o ∈ (front.join .power last).operands, o.percents = 0) :
    (front.join .power last).scripted.scriptTree =
      ((front.map Marked.signed).map Signed.tree).foldOnto .power last.signed.tree := by
  rw [scripted_eq_map percentless, scriptTree, arithmetic_powers]
  · rfl
  · rw [operators_map, operators_map]
    exact operators_join_power powers

/-- A percent sign in a row of powers leaves a quotient in the script, with only a part of the row
after it. -/
theorem exists_last_division {row : Joined (Marked ArithmeticTree)}
    (powers : ∀ inner ∈ row.operators, inner = .power)
    (percent : ∃ o ∈ row.operands, o.percents ≠ 0) :
    ∃ front back : Joined Signed, row.scripted = front.append .divide back ∧
      (∀ inner ∈ front.operators, inner.isAdditive = false) ∧
        (∀ inner ∈ back.operators, inner = .power) ∧
          back.scriptTree.size < row.sheetTree.size := by
  have either : ∀ inner ∈ row.scripted.operators, inner = .power ∨ inner = .divide := by
    intro inner member
    rcases mem_operators_scripted.mp member with own | ⟨division, _⟩
    · exact .inl (powers inner own)
    · exact .inr division
  have division : ArithmeticOperator.divide ∈ row.scripted.operators :=
    mem_operators_scripted.mpr (.inr ⟨rfl, percent⟩)
  rcases exists_last_cut ArithmeticOperator.isMultiplicative row.scripted with
    uncut | ⟨front, operator, back, parts, cut, uncut⟩
  · cases uncut _ division
  · rw [parts, operators_append] at either
    obtain ⟨before, behind⟩ := List.forall_mem_append.mp either
    obtain ⟨own, later⟩ := List.forall_mem_cons.mp behind
    obtain rfl : operator = .divide := own.resolve_left (ArithmeticOperator.ne_power (.inr cut))
    refine ⟨front, back, parts, fun inner member => ?_, fun inner member => ?_, ?_⟩
    · rcases before inner member with rfl | rfl <;> rfl
    · apply (later inner member).resolve_right
      rintro rfl
      cases uncut _ member
    · have total := weight_append (size ∘ Signed.tree) front back .divide
      rw [← parts, weight_scripted] at total
      rw [size_scriptTree, size_sheetTree, total]
      omega

end Joined

/-- The value has the same expression in the sheet and in the script. -/
def Marked.SameValue (operand : Marked (ArithmeticTree × ArithmeticTree)) : Prop :=
  operand.value.2 = operand.value.1

/-- The expressions that the value has in the sheet and in the script are of one size. -/
def Marked.SameSize (operand : Marked (ArithmeticTree × ArithmeticTree)) : Prop :=
  operand.value.2.size = operand.value.1.size

private theorem Marked.SameSize.tree {operand : Marked (ArithmeticTree × ArithmeticTree)}
    (same : operand.SameSize) :
    (operand.map Prod.snd).tree.size = (operand.map Prod.fst).tree.size := by
  simp only [Marked.tree, Marked.map, size_iterate_negate, size_iterate_percent]
  rw [same]

namespace Joined

/-- The row of a sheet, where each value has an expression in the sheet and one in the script. -/
def sheetSide (row : Joined (Marked (ArithmeticTree × ArithmeticTree))) :
    Joined (Marked ArithmeticTree) :=
  row.map (Marked.map Prod.fst)

/-- The same row with the expressions that the values have in the script. -/
def scriptSide (row : Joined (Marked (ArithmeticTree × ArithmeticTree))) :
    Joined (Marked ArithmeticTree) :=
  row.map (Marked.map Prod.snd)

/-- Both readings of the row give the same expression. -/
def Agrees (row : Joined (Marked (ArithmeticTree × ArithmeticTree))) : Prop :=
  row.scriptSide.scripted.scriptTree? = some row.sheetSide.sheetTree

section Agreement

variable {front row : Joined (Marked (ArithmeticTree × ArithmeticTree))}
  {operator : ArithmeticOperator} {last : Marked (ArithmeticTree × ArithmeticTree)}

private theorem agrees_iff_trees :
    row.Agrees ↔ row.scriptSide.scripted.hasPlainBases = true ∧
      row.scriptSide.scripted.scriptTree = row.sheetSide.sheetTree := by
  rw [Agrees, scriptTree?]
  by_cases plain : row.scriptSide.scripted.hasPlainBases = true
  · simp [plain]
  · simp [plain]

/-- What two joined rows stand for in the sheet is joined from what each stands for. -/
@[simp]
theorem sheetSide_append :
    (front.append operator row).sheetSide = front.sheetSide.append operator row.sheetSide :=
  map_append front row operator _

/-- What two joined rows stand for in the script is joined from what each stands for. -/
@[simp]
theorem scriptSide_append :
    (front.append operator row).scriptSide = front.scriptSide.append operator row.scriptSide :=
  map_append front row operator _

private theorem scriptSide_join :
    (front.join operator last).scriptSide = front.scriptSide.join operator (last.map Prod.snd) :=
  rfl

@[simp]
private theorem operators_sheetSide : row.sheetSide.operators = row.operators :=
  operators_map _ row

@[simp]
private theorem operators_scriptSide : row.scriptSide.operators = row.operators :=
  operators_map _ row

private theorem mem_operands_scriptSide {operand : Marked (ArithmeticTree × ArithmeticTree)}
    (member : operand ∈ row.operands) : operand.map Prod.snd ∈ row.scriptSide.operands := by
  rw [scriptSide, operands_map]
  exact List.mem_map_of_mem member

private theorem size_sides (sizes : ∀ o ∈ row.operands, o.SameSize) :
    row.scriptSide.sheetTree.size = row.sheetSide.sheetTree.size := by
  rw [size_sheetTree, size_sheetTree, sheetSide, scriptSide, weight_map, weight_map]
  induction row with
  | single operand => exact (sizes operand (List.mem_singleton_self operand)).tree
  | join front operator last ih =>
      obtain ⟨before, behind⟩ := List.forall_mem_append.mp sizes
      rw [weight, weight, ih before]
      exact congrArg _ (behind last (List.mem_singleton_self last)).tree

/-- Sums are grouped alike if their terms are. -/
theorem agrees_append_term (cut : operator.isAdditive = true)
    (term : ∀ inner ∈ row.operators, inner.isAdditive = false) :
    (front.append operator row).Agrees ↔ front.Agrees ∧ row.Agrees := by
  have sheet : ∀ inner ∈ row.sheetSide.operators, inner.isAdditive = false := by
    rwa [operators_sheetSide]
  have script : ∀ inner ∈ row.scriptSide.scripted.operators, inner.isAdditive = false := by
    apply isAdditive_scripted
    rwa [operators_scriptSide]
  rw [agrees_iff_trees, agrees_iff_trees, agrees_iff_trees, sheetSide_append, scriptSide_append,
    scripted_append, hasPlainBases_append (ArithmeticOperator.ne_power (.inl cut)),
    sheetTree_append_term cut sheet, scriptTree_append_term cut script, Bool.and_eq_true,
    ArithmeticTree.binary.injEq]
  exact ⟨fun ⟨⟨first, second⟩, _, left, right⟩ => ⟨⟨first, left⟩, second, right⟩,
    fun ⟨⟨first, left⟩, second, right⟩ => ⟨⟨first, second⟩, rfl, left, right⟩⟩

/-- A row of powers after an operator stays together if there is no percent sign in it. -/
theorem agrees_append_factor (cut : operator.isMultiplicative = true)
    (term : ∀ inner ∈ front.operators, inner.isAdditive = false)
    (powers : ∀ inner ∈ row.operators, inner = .power) (sizes : ∀ o ∈ row.operands, o.SameSize) :
    (front.append operator row).Agrees ↔
      front.Agrees ∧ row.Agrees ∧ ∀ o ∈ row.operands, o.percents = 0 := by
  have sheetTerm : ∀ inner ∈ front.sheetSide.operators, inner.isAdditive = false := by
    rwa [operators_sheetSide]
  have sheetPowers : ∀ inner ∈ row.sheetSide.operators, inner = .power := by
    rwa [operators_sheetSide]
  have scriptTerm : ∀ inner ∈ front.scriptSide.scripted.operators, inner.isAdditive = false := by
    apply isAdditive_scripted
    rwa [operators_scriptSide]
  have scriptPowers : ∀ inner ∈ row.scriptSide.operators, inner = .power := by
    rwa [operators_scriptSide]
  rw [agrees_iff_trees, agrees_iff_trees, agrees_iff_trees, sheetSide_append, scriptSide_append,
    scripted_append, hasPlainBases_append (ArithmeticOperator.ne_power (.inr cut)),
    sheetTree_append_factor cut sheetTerm sheetPowers, Bool.and_eq_true]
  by_cases percentless : ∀ o ∈ row.operands, o.percents = 0
  · have together : ∀ inner ∈ row.scriptSide.scripted.operators, inner = .power := by
      intro inner member
      rcases mem_operators_scripted.mp member with own | ⟨_, o, inside, positive⟩
      · exact scriptPowers inner own
      · rw [scriptSide, operands_map] at inside
        obtain ⟨operand, own, rfl⟩ := List.mem_map.mp inside
        exact (positive (percentless operand own)).elim
    rw [scriptTree_append_factor cut scriptTerm together, ArithmeticTree.binary.injEq]
    exact ⟨fun ⟨⟨first, second⟩, _, left, right⟩ => ⟨⟨first, left⟩, ⟨second, right⟩, percentless⟩,
      fun ⟨⟨first, left⟩, ⟨second, right⟩, _⟩ => ⟨⟨first, second⟩, rfl, left, right⟩⟩
  · refine ⟨fun ⟨_, same⟩ => ?_, fun ⟨_, _, plain⟩ => (percentless plain).elim⟩
    obtain ⟨operand, member, positive⟩ : ∃ o ∈ row.operands, o.percents ≠ 0 := by
      simpa using percentless
    obtain ⟨before, behind, parts, beforeTerm, behindPowers, smaller⟩ :=
      exists_last_division scriptPowers ⟨_, mem_operands_scriptSide member, positive⟩
    -- The quotient comes last, and what it divides by is too small for the whole factor.
    have wholeTerm : ∀ inner ∈ (front.scriptSide.scripted.append operator before).operators,
        inner.isAdditive = false := by
      rw [operators_append]
      exact List.forall_mem_append.mpr ⟨scriptTerm, List.forall_mem_cons.mpr
        ⟨ArithmeticOperator.isAdditive_eq_false (.inl cut), beforeTerm⟩⟩
    rw [parts, append_assoc, scriptTree_append_factor rfl wholeTerm behindPowers] at same
    obtain ⟨_, _, right⟩ := ArithmeticTree.binary.inj same
    rw [right, size_sides sizes] at smaller
    exact (Nat.lt_irrefl _ smaller).elim

/-- With a percent sign the script has a quotient and the sheet a power. -/
theorem Agrees.percentless_of_power (powers : ∀ inner ∈ front.operators, inner = .power)
    (agrees : (front.join .power last).Agrees) :
    ∀ o ∈ (front.join .power last).operands, o.percents = 0 := by
  intro operand member
  by_contra positive
  have scriptPowers : ∀ inner ∈ (front.join .power last).scriptSide.operators, inner = .power := by
    rw [operators_scriptSide]
    exact operators_join_power powers
  have sheetPowers : ∀ inner ∈ front.sheetSide.operators, inner = .power := by
    rwa [operators_sheetSide]
  obtain ⟨before, behind, parts, beforeTerm, behindPowers, _⟩ :=
    exists_last_division scriptPowers ⟨_, mem_operands_scriptSide member, positive⟩
  have same := (agrees_iff_trees.mp agrees).2
  rw [parts, scriptTree_append_factor rfl beforeTerm behindPowers] at same
  cases (ArithmeticTree.binary.inj (same.trans (sheetTree_power sheetPowers))).1

/-- With two powers the script groups the last two operands first, and the sheet the first two. -/
theorem Agrees.exists_base (powers : ∀ inner ∈ front.operators, inner = .power)
    (size : last.SameSize) (agrees : (front.join .power last).Agrees) :
    ∃ base, front = single base := by
  have percentless := agrees.percentless_of_power powers
  cases front with
  | single base => exact ⟨base, rfl⟩
  | join front operator middle =>
      exfalso
      have scriptPowers : ∀ inner ∈ (front.join operator middle).scriptSide.operators,
          inner = .power := by
        rwa [operators_scriptSide]
      have sheetPowers : ∀ inner ∈ (front.join operator middle).sheetSide.operators,
          inner = .power := by
        rwa [operators_sheetSide]
      obtain ⟨first, left, whole, folded, larger⟩ := exists_foldOnto
        ((front.scriptSide.map Marked.signed).map Signed.tree) operator
        (.binary .power (middle.map Prod.snd).signed.tree (last.map Prod.snd).signed.tree)
      have same : ArithmeticTree.binary first left whole =
          .binary .power (front.join operator middle).sheetSide.sheetTree
            (last.map Prod.fst).tree := by
        rw [← folded, ← sheetTree_power sheetPowers]
        rw [agrees_iff_trees, scriptSide_join, scriptTree_power scriptPowers] at agrees
        · exact agrees.2
        · rw [← scriptSide_join, scriptSide, operands_map]
          exact List.forall_mem_map.mpr percentless
      have lastless : (last.map Prod.snd).percents = 0 := percentless last (by simp [operands])
      rw [(ArithmeticTree.binary.inj same).2.2, ArithmeticTree.size, Marked.signed_tree lastless,
        size.tree] at larger
      omega

/-- The two readings of a power agree exactly if its values do and its base has no sign. -/
private theorem agrees_power_single {base : Marked (ArithmeticTree × ArithmeticTree)}
    (baseless : base.percents = 0) (lastless : last.percents = 0) :
    ((single base).join .power last).Agrees ↔
      base.signs = 0 ∧ base.SameValue ∧ last.SameValue := by
  have percentless : ∀ o ∈ ((single base).join .power last).scriptSide.operands,
      o.percents = 0 := by
    simp [scriptSide, operands, Marked.map, baseless, lastless]
  have powers {operand : Marked ArithmeticTree} :
      ∀ inner ∈ (single operand).operators, inner = .power := by
    simp [operators]
  have bases : ((single base).join .power last).scriptSide.scripted.hasPlainBases = true ↔
      base.signs = 0 := by
    rw [scripted_eq_map percentless]
    simp [scriptSide, map, hasPlainBases, Joined.last, Marked.map, Marked.signed]
  have script : ((single base).join .power last).scriptSide.scripted.scriptTree =
      .binary .power (negate^[base.signs] base.value.2) (negate^[last.signs] last.value.2) :=
    scriptTree_power powers percentless
  have sheet : ((single base).join .power last).sheetSide.sheetTree =
      .binary .power (negate^[base.signs] base.value.1) (negate^[last.signs] last.value.1) := by
    have first : negate^[base.signs] base.value.1 = (base.map Prod.fst).tree :=
      @Marked.signed_tree (base.map Prod.fst) baseless
    have second : negate^[last.signs] last.value.1 = (last.map Prod.fst).tree :=
      @Marked.signed_tree (last.map Prod.fst) lastless
    rw [first, second]
    exact sheetTree_power powers
  rw [agrees_iff_trees, bases, script, sheet, ArithmeticTree.binary.injEq,
    (iterate_negate_injective base.signs).eq_iff, (iterate_negate_injective last.signs).eq_iff]
  exact and_congr_right fun _ => and_iff_right rfl

private theorem agrees_single (operand : Marked (ArithmeticTree × ArithmeticTree)) :
    (single operand).Agrees ↔
      operand.SameValue ∧ (operand.percents = 0 ∨ operand.signs = 0) := by
  have script : (single operand).scriptSide.scripted.scriptTree =
      percent^[operand.percents] (negate^[operand.signs] operand.value.2) := by
    apply scriptTree_overHundred
    simp [operators]
  have plain : (single operand).scriptSide.scripted.hasPlainBases = true :=
    hasPlainBases_overHundred _ _
  rw [agrees_iff_trees, script]
  exact (and_iff_right plain).trans iterate_percent_negate_iff

/-- A row of powers keeps its grouping if it is a single operand or a single power. -/
theorem agrees_powers_iff (powers : ∀ inner ∈ row.operators, inner = .power)
    (sizes : ∀ o ∈ row.operands, o.SameSize) :
    row.Agrees ↔ (∀ o ∈ row.operands, o.SameValue) ∧ row.KeepsGrouping := by
  cases row with
  | single operand =>
      rw [agrees_single]
      simp [operands, KeepsGrouping]
  | join front operator last =>
      obtain ⟨earlier, own⟩ := List.forall_mem_append.mp powers
      obtain rfl : operator = .power := own operator (List.mem_singleton_self operator)
      have size := sizes last (by simp [operands])
      constructor
      · intro agrees
        have percentless := agrees.percentless_of_power earlier
        obtain ⟨base, rfl⟩ := agrees.exists_base earlier size
        have baseless := percentless base (by simp [operands])
        have lastless := percentless last (by simp [operands])
        obtain ⟨unsigned, same, lastSame⟩ := (agrees_power_single baseless lastless).mp agrees
        refine ⟨?_, .inr unsigned, lastless, unsigned, baseless⟩
        simpa [operands] using ⟨same, lastSame⟩
      · intro both
        obtain ⟨same, keeps, lastless, plain⟩ := both
        cases front with
        | single base =>
            apply (agrees_power_single plain.2 lastless).mpr
            simpa [operands, plain.1] using same
        | join front operator middle =>
            exact (plain.1 (earlier operator (by simp [operators]))).elim

section Keeps

variable {front row : Joined (Marked α)} {operator : ArithmeticOperator}

private theorem endsInBase_append (other : operator ≠ .power) :
    (front.append operator row).EndsInBase ↔ row.EndsInBase := by
  cases row with
  | single operand => simp [append, EndsInBase, other]
  | join middle second last => rfl

private theorem keepsGrouping_append_term (cut : operator.isAdditive = true) :
    (front.append operator row).KeepsGrouping ↔ front.KeepsGrouping ∧ row.KeepsGrouping := by
  have other := ArithmeticOperator.ne_power (.inl cut)
  induction row with
  | single operand =>
      cases operator <;> simp_all [append, KeepsGrouping, ArithmeticOperator.isAdditive]
  | join middle second last ih =>
      simp only [append, KeepsGrouping, ih, endsInBase_append other, and_assoc]

private theorem keepsGrouping_append_factor (cut : operator.isMultiplicative = true) :
    (front.append operator row).KeepsGrouping ↔
      front.KeepsGrouping ∧ row.KeepsGrouping ∧ row.first.percents = 0 := by
  have other := ArithmeticOperator.ne_power (.inr cut)
  induction row with
  | single operand =>
      cases operator <;>
        simp_all [append, KeepsGrouping, first, ArithmeticOperator.isMultiplicative]
  | join middle second last ih =>
      simp only [append, KeepsGrouping, ih, endsInBase_append other, first, and_assoc]
      exact and_congr_right fun _ => and_congr_right fun _ => and_comm

/-- Percent signs in a row of powers that keeps its grouping can only be at its first operand. -/
theorem KeepsGrouping.percentless (keeps : row.KeepsGrouping)
    (powers : ∀ inner ∈ row.operators, inner = .power) (first : row.first.percents = 0) :
    ∀ o ∈ row.operands, o.percents = 0 := by
  induction row with
  | single operand =>
      rw [operands, List.forall_mem_singleton]
      exact first
  | join front operator last ih =>
      obtain ⟨earlier, own⟩ := List.forall_mem_append.mp powers
      obtain rfl : operator = .power := own operator (List.mem_singleton_self operator)
      refine List.forall_mem_append.mpr ⟨ih keeps.1 earlier first, ?_⟩
      simpa using keeps.2.1

/-- Whether a row keeps its grouping depends on its operators and marks, not on its values. -/
theorem keepsGrouping_map (f : α → β) :
    (row.map (Marked.map f)).KeepsGrouping ↔ row.KeepsGrouping := by
  induction row with
  | single operand => rfl
  | join front operator last ih =>
      cases front <;> exact and_congr ih Iff.rfl

end Keeps

/-- The two readings of a term agree exactly if its values do and it keeps its grouping. -/
private theorem agrees_term_iff (term : ∀ inner ∈ row.operators, inner.isAdditive = false)
    (sizes : ∀ o ∈ row.operands, o.SameSize) :
    row.Agrees ↔ (∀ o ∈ row.operands, o.SameValue) ∧ row.KeepsGrouping := by
  induction row using split_induction ArithmeticOperator.isMultiplicative with
  | part factor uncut =>
      apply agrees_powers_iff _ sizes
      exact fun inner member => ArithmeticOperator.eq_power (term inner member) (uncut inner member)
  | append front operator factor cut uncut ih =>
      rw [operators_append, List.forall_mem_append, List.forall_mem_cons] at term
      rw [operands_append, List.forall_mem_append] at sizes ⊢
      have powers : ∀ inner ∈ factor.operators, inner = .power := fun inner member =>
        ArithmeticOperator.eq_power (term.2.2 inner member) (uncut inner member)
      rw [agrees_append_factor cut term.1 powers sizes.2, keepsGrouping_append_factor cut]
      constructor
      · intro both
        obtain ⟨before, behind, percentless⟩ := both
        obtain ⟨frontSame, frontKeeps⟩ := (ih term.1 sizes.1).mp before
        obtain ⟨same, keeps⟩ := (agrees_powers_iff powers sizes.2).mp behind
        exact ⟨⟨frontSame, same⟩, frontKeeps, keeps, percentless _ factor.first_mem_operands⟩
      · intro both
        obtain ⟨⟨frontSame, same⟩, frontKeeps, keeps, first⟩ := both
        exact ⟨(ih term.1 sizes.1).mpr ⟨frontSame, frontKeeps⟩,
          (agrees_powers_iff powers sizes.2).mpr ⟨same, keeps⟩, keeps.percentless powers first⟩

/-- Both readings of a row agree if they agree on its values and nothing in the row is grouped
otherwise. -/
theorem agrees_iff (sizes : ∀ o ∈ row.operands, o.SameSize) :
    row.Agrees ↔ (∀ o ∈ row.operands, o.SameValue) ∧ row.KeepsGrouping := by
  induction row using split_induction ArithmeticOperator.isAdditive with
  | part term uncut => exact agrees_term_iff uncut sizes
  | append front operator term cut uncut ih =>
      rw [operands_append, List.forall_mem_append] at sizes ⊢
      rw [agrees_append_term cut uncut, keepsGrouping_append_term cut, and_and_and_comm]
      exact and_congr (ih sizes.1) (agrees_term_iff uncut sizes.2)

/-- Script and sheet may group a row differently, but their expressions are of one size. -/
theorem size_of_scriptTree? {tree : ArithmeticTree} (sizes : ∀ o ∈ row.operands, o.SameSize)
    (read : row.scriptSide.scripted.scriptTree? = some tree) :
    tree.size = row.sheetSide.sheetTree.size := by
  obtain rfl : row.scriptSide.scripted.scriptTree = tree := by
    rw [scriptTree?] at read
    split at read
    · exact Option.some.inj read
    · cases read
  rw [size_scriptTree, weight_scripted, ← size_sheetTree, size_sides sizes]

end Agreement

end Joined

end SheetFormula
