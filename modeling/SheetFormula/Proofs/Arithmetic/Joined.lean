import Mathlib.Logic.Function.Iterate
import SheetFormula.Cell

/-!
# Operands joined by operators

A row of operands with operators between them is grouped by precedence.  Sums and differences are
the loosest, so the row is split at them first, then at products and quotients, and what is left are
powers (`Joined.arithmetic`).  Only the grouping of powers differs between languages and is a
parameter.  A row can be taken apart at the last operator of a kind (`Joined.split_induction`),
which is how facts about the grouping are proved.
-/

namespace SheetFormula

/-- The operators between two operands of an arithmetic expression. -/
inductive ArithmeticOperator where
  | plus
  | minus
  | times
  | divide
  | power
  deriving DecidableEq, Repr

namespace ArithmeticOperator

/-- Sums and differences. -/
def isAdditive : ArithmeticOperator → Bool
  | plus | minus => true
  | times | divide | power => false

/-- Products and quotients. -/
def isMultiplicative : ArithmeticOperator → Bool
  | times | divide => true
  | plus | minus | power => false

/-- An operator of a term or a power is not additive. -/
theorem isAdditive_eq_false {operator : ArithmeticOperator}
    (tight : operator.isMultiplicative = true ∨ operator = .power) :
    operator.isAdditive = false := by
  cases operator <;> simp_all [isAdditive, isMultiplicative]

/-- The only operator that joins neither terms nor factors is the power. -/
theorem eq_power {operator : ArithmeticOperator} (term : operator.isAdditive = false)
    (factor : operator.isMultiplicative = false) : operator = .power := by
  cases operator <;> simp_all [isAdditive, isMultiplicative]

/-- An operator that joins terms or factors is not the power. -/
theorem ne_power {operator : ArithmeticOperator}
    (loose : operator.isAdditive = true ∨ operator.isMultiplicative = true) :
    operator ≠ .power := by
  cases operator <;> simp_all [isAdditive, isMultiplicative]

end ArithmeticOperator

/-- An arithmetic expression with its grouping.  A number is known by its text. -/
inductive ArithmeticTree where
  | number (text : List Char)
  | cell (cell : Cell)
  | negate (operand : ArithmeticTree)
  | binary (operator : ArithmeticOperator) (left right : ArithmeticTree)
  deriving DecidableEq, Repr

namespace ArithmeticTree

/-- The number of leaves and operators. -/
def size : ArithmeticTree → Nat
  | number _ | cell _ => 1
  | negate operand => operand.size + 1
  | binary _ left right => left.size + 1 + right.size

/-- A hundred. -/
def hundred : ArithmeticTree :=
  number "100".toList

/-- The hundredth part. -/
def percent (tree : ArithmeticTree) : ArithmeticTree :=
  binary .divide tree hundred

/-- Each sign makes an expression larger by one. -/
theorem size_iterate_negate (count : Nat) (tree : ArithmeticTree) :
    (negate^[count] tree).size = tree.size + count := by
  induction count with
  | zero => rfl
  | succ count ih => rw [Function.iterate_succ_apply', size, ih, Nat.add_assoc]

/-- Each percent sign makes an expression larger by two: a division and a hundred. -/
theorem size_iterate_percent (count : Nat) (tree : ArithmeticTree) :
    (percent^[count] tree).size = tree.size + 2 * count := by
  induction count with
  | zero => rfl
  | succ count ih =>
      rw [Function.iterate_succ_apply', percent, size, ih, hundred, size]
      omega

/-- Expressions with equally many signs before them differ if they differ without the signs. -/
theorem iterate_negate_injective (count : Nat) : Function.Injective negate^[count] := by
  apply Function.Injective.iterate
  intro first second same
  exact negate.inj same

private theorem iterate_percent_injective (count : Nat) : Function.Injective percent^[count] := by
  apply Function.Injective.iterate
  intro first second same
  exact (binary.inj same).2.1

/-- The part of a negated value and the negated part of a value are different expressions. -/
theorem iterate_percent_negate_iff {percents signs : Nat} {left right : ArithmeticTree} :
    percent^[percents] (negate^[signs] left) = negate^[signs] (percent^[percents] right) ↔
      left = right ∧ (percents = 0 ∨ signs = 0) := by
  cases signs with
  | zero =>
      change percent^[percents] left = percent^[percents] right ↔ _
      rw [(iterate_percent_injective percents).eq_iff]
      simp
  | succ signs =>
      cases percents with
      | zero =>
          change negate^[signs + 1] left = negate^[signs + 1] right ↔ _
          rw [(iterate_negate_injective (signs + 1)).eq_iff]
          simp
      | succ percents =>
          rw [Function.iterate_succ_apply' percent, Function.iterate_succ_apply' negate signs
            (percent^[percents + 1] right), percent]
          constructor
          · intro same
            cases same
          · intro both
            obtain ⟨_, neither⟩ := both
            omega

end ArithmeticTree

/-- One operand, or more of them with an operator between any two. -/
inductive Joined (α : Type) where
  | single (operand : α)
  | join (front : Joined α) (operator : ArithmeticOperator) (last : α)
  deriving DecidableEq, Repr

namespace Joined

variable {α β : Type}

/-- The operands, from the first to the last. -/
def operands : Joined α → List α
  | single operand => [operand]
  | join front _ last => front.operands ++ [last]

/-- The operators, from the first to the last. -/
def operators : Joined α → List ArithmeticOperator
  | single _ => []
  | join front operator _ => front.operators ++ [operator]

def first : Joined α → α
  | single operand => operand
  | join front _ _ => front.first

def last : Joined α → α
  | single operand => operand
  | join _ _ last => last

def map (f : α → β) : Joined α → Joined β
  | single operand => single (f operand)
  | join front operator last => join (front.map f) operator (f last)

/-- Two rows with an operator between them. -/
def append (front : Joined α) (operator : ArithmeticOperator) : Joined α → Joined α
  | single operand => join front operator operand
  | join middle second last => join (front.append operator middle) second last

/-- The rows between the operators that `cuts` selects. -/
def split (cuts : ArithmeticOperator → Bool) : Joined α → Joined (Joined α)
  | single operand => single (single operand)
  | join front operator last =>
      if cuts operator then join (front.split cuts) operator (single last)
      else
        match front.split cuts with
        | single part => single (part.join operator last)
        | join parts earlier part => join parts earlier (part.join operator last)

/-- The expression with the first two operands grouped first. -/
def fold : Joined ArithmeticTree → ArithmeticTree
  | single tree => tree
  | join front operator last => .binary operator front.fold last

/-- The expression with the last two operands grouped first, where an operator and an operand follow
the row. -/
def foldOnto : Joined ArithmeticTree → ArithmeticOperator → ArithmeticTree → ArithmeticTree
  | single tree, operator, right => .binary operator tree right
  | join front earlier last, operator, right => front.foldOnto earlier (.binary operator last right)

/-- The expression with the last two operands grouped first. -/
def foldRight : Joined ArithmeticTree → ArithmeticTree
  | single tree => tree
  | join front operator last => front.foldOnto operator last

/-- The expression of a row without sums and differences, where `power` groups powers. -/
def product (power : Joined ArithmeticTree → ArithmeticTree) (row : Joined ArithmeticTree) :
    ArithmeticTree :=
  ((row.split ArithmeticOperator.isMultiplicative).map power).fold

/-- The expression of a row, where `power` groups powers. -/
def arithmetic (power : Joined ArithmeticTree → ArithmeticTree) (row : Joined ArithmeticTree) :
    ArithmeticTree :=
  ((row.split ArithmeticOperator.isAdditive).map (product power)).fold

section Append

variable (front back : Joined α) (operator : ArithmeticOperator)

/-- The operands of two joined rows are those of the first, then those of the second. -/
@[simp]
theorem operands_append :
    (front.append operator back).operands = front.operands ++ back.operands := by
  induction back with
  | single operand => rfl
  | join middle second last ih => simp only [append, operands, ih, List.append_assoc]

/-- The operators of two joined rows are those of the two, with the joining one between them. -/
@[simp]
theorem operators_append :
    (front.append operator back).operators = front.operators ++ operator :: back.operators := by
  induction back with
  | single operand => rfl
  | join middle second last ih =>
      simp only [append, operators, ih, List.append_assoc, List.cons_append]

/-- Two joined rows begin with the first operand of the first one. -/
@[simp]
theorem first_append : (front.append operator back).first = front.first := by
  induction back with
  | single operand => rfl
  | join middle second last ih => exact ih

/-- Two joined rows end with the last operand of the second one. -/
@[simp]
theorem last_append : (front.append operator back).last = back.last := by
  cases back <;> rfl

/-- A change of the operands of two joined rows is a change of each of the rows. -/
@[simp]
theorem map_append (f : α → β) :
    (front.append operator back).map f = (front.map f).append operator (back.map f) := by
  induction back with
  | single operand => rfl
  | join middle second last ih => simp only [append, map, ih]

/-- Three rows can be joined from either side. -/
theorem append_assoc (second : ArithmeticOperator) (others : Joined α) :
    front.append operator (back.append second others) =
      (front.append operator back).append second others := by
  induction others with
  | single operand => rfl
  | join middle third last ih => simp only [append, ih]

end Append

/-- A change of the operands leaves the operators of a row as they are. -/
@[simp]
theorem operators_map (f : α → β) (row : Joined α) : (row.map f).operators = row.operators := by
  induction row with
  | single operand => rfl
  | join front operator last ih => simp only [map, operators, ih]

/-- The operands of a changed row are the changed operands. -/
@[simp]
theorem operands_map (f : α → β) (row : Joined α) :
    (row.map f).operands = row.operands.map f := by
  induction row with
  | single operand => rfl
  | join front operator last ih => simp [map, operands, ih]

/-- A row of powers with one more exponent is a row of powers. -/
theorem operators_join_power {front : Joined α} {last : α}
    (powers : ∀ operator ∈ front.operators, operator = .power) :
    ∀ operator ∈ (front.join .power last).operators, operator = .power :=
  List.forall_mem_append.mpr ⟨powers, fun _ => List.mem_singleton.mp⟩

/-- The first operand of a row is one of its operands. -/
theorem first_mem_operands (row : Joined α) : row.first ∈ row.operands := by
  induction row with
  | single operand => exact List.mem_singleton_self operand
  | join front operator last ih => exact List.mem_append_left _ ih

section Split

variable {cuts : ArithmeticOperator → Bool}

/-- A row has no operator of a kind, or a last one. -/
theorem exists_last_cut (cuts : ArithmeticOperator → Bool) (row : Joined α) :
    (∀ operator ∈ row.operators, cuts operator = false) ∨
      ∃ (front : Joined α) (operator : ArithmeticOperator) (part : Joined α),
        row = front.append operator part ∧ cuts operator = true ∧
          ∀ inner ∈ part.operators, cuts inner = false := by
  induction row with
  | single operand => exact .inl fun _ member => by cases member
  | join front operator last ih =>
      cases cut : cuts operator with
      | true =>
          exact .inr ⟨front, operator, single last, rfl, cut, fun _ member => by cases member⟩
      | false =>
          have grow {others : List ArithmeticOperator}
              (uncut : ∀ inner ∈ others, cuts inner = false) :
              ∀ inner ∈ others ++ [operator], cuts inner = false := by
            intro inner member
            rcases List.mem_append.mp member with earlier | own
            · exact uncut inner earlier
            · rwa [List.mem_singleton.mp own]
          rcases ih with uncut | ⟨before, earlier, part, rfl, chosen, uncut⟩
          · exact .inl (grow uncut)
          · exact .inr ⟨before, earlier, part.join operator last, rfl, chosen, grow uncut⟩

/-- Rows are built from those without an operator of a kind by appending such rows with an operator
of the kind. -/
theorem split_induction {motive : Joined α → Prop} (cuts : ArithmeticOperator → Bool)
    (part : ∀ part : Joined α, (∀ inner ∈ part.operators, cuts inner = false) → motive part)
    (append : ∀ front operator part, cuts operator = true →
      (∀ inner ∈ part.operators, cuts inner = false) → motive front →
        motive (append front operator part)) (row : Joined α) : motive row := by
  generalize count : row.operators.length = length
  induction length using Nat.strongRecOn generalizing row with
  | ind length ih =>
      rcases exists_last_cut cuts row with uncut | ⟨front, operator, back, rfl, cut, uncut⟩
      · exact part row uncut
      · apply append front operator back cut uncut
        apply ih front.operators.length _ front rfl
        rw [← count, operators_append, List.length_append, List.length_cons]
        omega

private theorem split_eq_single {row : Joined α}
    (uncut : ∀ operator ∈ row.operators, cuts operator = false) :
    row.split cuts = single row := by
  induction row with
  | single operand => rfl
  | join front operator last ih =>
      obtain ⟨inner, own⟩ := List.forall_mem_append.mp uncut
      rw [split, if_neg (by simp [own operator]), ih inner]

private theorem split_append {front part : Joined α} {operator : ArithmeticOperator}
    (cut : cuts operator = true) (uncut : ∀ inner ∈ part.operators, cuts inner = false) :
    (front.append operator part).split cuts = join (front.split cuts) operator part := by
  induction part with
  | single operand => rw [append, split, if_pos cut]
  | join middle second last ih =>
      obtain ⟨inner, own⟩ := List.forall_mem_append.mp uncut
      rw [append, split, if_neg (by simp [own second]), ih inner]

end Split

section Grouping

variable {power : Joined ArithmeticTree → ArithmeticTree} {front row : Joined ArithmeticTree}
  {operator : ArithmeticOperator}

private theorem product_eq (uncut : ∀ inner ∈ row.operators, inner.isMultiplicative = false) :
    row.product power = power row := by
  rw [product, split_eq_single uncut]
  rfl

private theorem product_append (cut : operator.isMultiplicative = true)
    (uncut : ∀ inner ∈ row.operators, inner.isMultiplicative = false) :
    (front.append operator row).product power =
      .binary operator (front.product power) (power row) := by
  rw [product, split_append cut uncut]
  rfl

private theorem arithmetic_eq (uncut : ∀ inner ∈ row.operators, inner.isAdditive = false) :
    row.arithmetic power = row.product power := by
  rw [arithmetic, split_eq_single uncut]
  rfl

/-- The last additive operator of a row is the outermost one of its expression. -/
theorem arithmetic_append (cut : operator.isAdditive = true)
    (uncut : ∀ inner ∈ row.operators, inner.isAdditive = false) :
    (front.append operator row).arithmetic power =
      .binary operator (front.arithmetic power) (row.arithmetic power) := by
  rw [arithmetic_eq uncut, arithmetic, split_append cut uncut]
  rfl

/-- A row without any other operator than the power is grouped as a power. -/
theorem arithmetic_powers (powers : ∀ inner ∈ row.operators, inner = .power) :
    row.arithmetic power = power row := by
  rw [arithmetic_eq, product_eq]
  · intro inner member
    rw [powers inner member]
    rfl
  · exact fun inner member => ArithmeticOperator.isAdditive_eq_false (.inr (powers inner member))

/-- A row of powers after a row without sums and differences. -/
theorem arithmetic_append_factor (cut : operator.isMultiplicative = true)
    (term : ∀ inner ∈ front.operators, inner.isAdditive = false)
    (powers : ∀ inner ∈ row.operators, inner = .power) :
    (front.append operator row).arithmetic power =
      .binary operator (front.arithmetic power) (row.arithmetic power) := by
  have unmultiplied : ∀ inner ∈ row.operators, inner.isMultiplicative = false := by
    intro inner member
    rw [powers inner member]
    rfl
  have whole : ∀ inner ∈ (front.append operator row).operators, inner.isAdditive = false := by
    rw [operators_append]
    refine List.forall_mem_append.mpr ⟨term, List.forall_mem_cons.mpr ⟨?_, ?_⟩⟩
    · exact ArithmeticOperator.isAdditive_eq_false (.inl cut)
    · exact fun inner member => ArithmeticOperator.isAdditive_eq_false (.inr (powers inner member))
  rw [arithmetic_eq whole, product_append cut unmultiplied, arithmetic_eq term,
    arithmetic_powers powers]

end Grouping

section Weight

open ArithmeticTree

/-- The size of the operands together with the operators. -/
def weight (size : α → Nat) : Joined α → Nat
  | single operand => size operand
  | join front _ last => front.weight size + 1 + size last

/-- The weight of two joined rows is the weight of both and of the operator between them. -/
theorem weight_append (size : α → Nat) (front back : Joined α) (operator : ArithmeticOperator) :
    (front.append operator back).weight size = front.weight size + 1 + back.weight size := by
  induction back with
  | single operand => rfl
  | join middle second last ih =>
      rw [append, weight, weight, ih]
      omega

/-- A changed row weighs what the row does when its operands count as the changed ones. -/
theorem weight_map (size : β → Nat) (f : α → β) (row : Joined α) :
    (row.map f).weight size = row.weight (size ∘ f) := by
  induction row with
  | single operand => rfl
  | join front operator last ih => rw [map, weight, weight, ih, Function.comp_apply]

/-- An expression that is grouped from the left is as large as its row weighs. -/
theorem size_fold (row : Joined ArithmeticTree) : row.fold.size = row.weight size := by
  induction row with
  | single tree => rfl
  | join front operator last ih => rw [fold, ArithmeticTree.size, weight, ih]

private theorem size_foldOnto (front : Joined ArithmeticTree) (operator : ArithmeticOperator)
    (right : ArithmeticTree) :
    (front.foldOnto operator right).size = front.weight size + 1 + right.size := by
  induction front generalizing operator right with
  | single tree => rfl
  | join front earlier last ih =>
      rw [foldOnto, ih, weight, ArithmeticTree.size]
      omega

/-- The expression that follows a row becomes part of the right operand. -/
theorem exists_foldOnto (front : Joined ArithmeticTree) (operator : ArithmeticOperator)
    (right : ArithmeticTree) :
    ∃ first left whole, front.foldOnto operator right = .binary first left whole ∧
      right.size ≤ whole.size := by
  induction front generalizing operator right with
  | single tree => exact ⟨operator, tree, right, rfl, Nat.le_refl _⟩
  | join front earlier last ih =>
      obtain ⟨first, left, whole, same, larger⟩ := ih earlier (.binary operator last right)
      refine ⟨first, left, whole, same, ?_⟩
      rw [ArithmeticTree.size] at larger
      omega

/-- An expression that is grouped from the right is as large as its row weighs. -/
theorem size_foldRight (row : Joined ArithmeticTree) : row.foldRight.size = row.weight size := by
  cases row with
  | single tree => rfl
  | join front operator last => exact size_foldOnto front operator last

/-- No grouping loses or adds anything. -/
theorem size_arithmetic {power : Joined ArithmeticTree → ArithmeticTree}
    (same : ∀ row, (power row).size = row.weight size) (row : Joined ArithmeticTree) :
    (row.arithmetic power).size = row.weight size := by
  have terms (row : Joined ArithmeticTree) : (row.product power).size = row.weight size := by
    induction row using split_induction ArithmeticOperator.isMultiplicative with
    | part factor uncut => rw [product_eq uncut, same]
    | append front operator factor cut uncut ih =>
        rw [product_append cut uncut, ArithmeticTree.size, ih, same, weight_append]
  induction row using split_induction ArithmeticOperator.isAdditive with
  | part term uncut => rw [arithmetic_eq uncut, terms]
  | append front operator term cut uncut ih =>
      rw [arithmetic_append cut uncut, ArithmeticTree.size, ih, arithmetic_eq uncut, terms,
        weight_append]

end Weight

end Joined

end SheetFormula
