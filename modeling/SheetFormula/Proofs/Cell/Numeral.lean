import SheetFormula.Cell
import Mathlib.Data.List.Induction
import Mathlib.Data.List.TakeWhile
import Mathlib.Data.Nat.Digits.Defs

/-!
# The numerals of a reference

Letters name a column in bijective base twenty-six: `lettersOf` and `lettersValue` undo each other,
up to the case of the letters.  Digits name a row in base ten, where leading zeros do not count.
-/

namespace SheetFormula

namespace Text

/-- Decimal digits have the value that the library gives them. -/
theorem decimalValue_eq (digits : List Char) :
    decimalValue digits = Nat.ofDigitChars 10 digits 0 := by
  rw [decimalValue, Nat.ofDigitChars_eq_foldl]
  congr 1
  funext value d
  rw [Nat.mul_comm]
  rfl

/-- The digits of a number have the number as their value. -/
theorem decimalValue_decimal (n : Nat) : decimalValue (decimal n) = n := by
  rw [decimalValue_eq, decimal, Nat.ofDigitChars_ten_toDigits]

private theorem decimalValue_concat (digits : List Char) (d : Char) :
    decimalValue (digits ++ [d]) = 10 * decimalValue digits + (d.toNat - 48) := by
  rw [decimalValue, List.foldl_append, List.foldl_cons, List.foldl_nil, ← decimalValue,
    Nat.mul_comm]

/-- A number is written with digits only. -/
theorem isDigit_of_mem_decimal {n : Nat} {d : Char} (member : d ∈ decimal n) :
    d.isDigit = true :=
  Nat.isDigit_of_mem_toDigits (by omega) (by omega) member

private theorem digitChar_sub {d : Char} (digit : d.isDigit = true) :
    d.toNat - 48 < 10 ∧ Nat.digitChar (d.toNat - 48) = d := by
  obtain ⟨low, high⟩ : 48 ≤ d.toNat ∧ d.toNat ≤ 57 := Char.isDigit_iff_toNat.mp digit
  refine ⟨by omega, Char.toNat_inj.mp ?_⟩
  rw [Nat.toNat_digitChar_of_lt_ten (by omega)]
  omega

private theorem eq_zero_of_decimalValue {digits : List Char} (all : ∀ d ∈ digits, d.isDigit = true)
    (zero : decimalValue digits = 0) : ∀ d ∈ digits, (d == '0') = true := by
  induction digits using List.reverseRecOn with
  | nil => simp
  | append_singleton digits d ih =>
      obtain ⟨front, last⟩ := List.forall_mem_append.mp all
      obtain ⟨_, same⟩ := digitChar_sub (last d (List.mem_singleton_self d))
      rw [decimalValue_concat] at zero
      refine List.forall_mem_append.mpr ⟨ih front (by omega), List.forall_mem_singleton.mpr ?_⟩
      rw [← same, show d.toNat - 48 = 0 by omega]
      rfl

/-- The digits of a number are those of any numeral of it, without the leading zeros. -/
theorem decimal_decimalValue {digits : List Char} (all : ∀ d ∈ digits, d.isDigit = true)
    (positive : 0 < decimalValue digits) :
    decimal (decimalValue digits) = digits.dropWhile (· == '0') := by
  induction digits using List.reverseRecOn with
  | nil => exact absurd positive (Nat.lt_irrefl 0)
  | append_singleton digits d ih =>
      obtain ⟨front, last⟩ := List.forall_mem_append.mp all
      obtain ⟨small, same⟩ := digitChar_sub (last d (List.mem_singleton_self d))
      have own : decimal (d.toNat - 48) = [d] := by
        rw [decimal, Nat.toDigits_of_lt_base small, same]
      rw [decimalValue_concat] at positive ⊢
      rw [List.dropWhile_append]
      by_cases zero : decimalValue digits = 0
      · have nonzero : (d == '0') = false := by
          rw [beq_eq_false_iff_ne]
          rintro rfl
          rw [zero] at positive
          exact absurd positive (Nat.lt_irrefl 0)
        rw [List.dropWhile_eq_nil_iff.mpr (eq_zero_of_decimalValue front zero), zero,
          Nat.mul_zero, Nat.zero_add, own]
        simp [nonzero]
      · have some : digits.dropWhile (· == '0') ≠ [] := by
          rw [← ih front (by omega)]
          exact Nat.toDigits_ne_nil
        rw [decimal, ← Nat.toDigits_append_toDigits (by omega) (by omega) small, ← decimal,
          ← decimal, own, ih front (by omega), if_neg (by simpa using some)]

end Text

namespace Cell

variable {c : Char} {letters : List Char}

/-- The capital letters by their code points. -/
theorem isUpper_iff : c.isUpper = true ↔ 65 ≤ c.toNat ∧ c.toNat ≤ 90 := by
  change decide (65 ≤ c.val ∧ c.val ≤ 90) = true ↔ _
  rw [decide_eq_true_iff, UInt32.le_iff_toNat_le, UInt32.le_iff_toNat_le]
  rfl

/-- The letters of columns by their code points. -/
theorem isLetter_iff :
    isLetter c = true ↔ (65 ≤ c.toNat ∧ c.toNat ≤ 90) ∨ (97 ≤ c.toNat ∧ c.toNat ≤ 122) := by
  change (c.isUpper || (decide (97 ≤ c.val) && decide (c.val ≤ 122))) = true ↔ _
  rw [Bool.or_eq_true, isUpper_iff, Bool.and_eq_true, decide_eq_true_iff, decide_eq_true_iff,
    UInt32.le_iff_toNat_le, UInt32.le_iff_toNat_le]
  rfl

/-- The upper case of a letter. -/
theorem toNat_toUpper (letter : isLetter c = true) :
    (65 ≤ c.toNat ∧ c.toNat ≤ 90 ∧ c.toUpper.toNat = c.toNat) ∨
      (97 ≤ c.toNat ∧ c.toNat ≤ 122 ∧ c.toUpper.toNat + 32 = c.toNat) := by
  rcases isLetter_iff.mp letter with ⟨low, high⟩ | ⟨low, high⟩
  · have upper : ¬ (97 ≤ c.val ∧ c.val ≤ 122) := by
      rw [UInt32.le_iff_toNat_le]
      change ¬ (97 ≤ c.toNat ∧ _)
      omega
    exact .inl ⟨low, high, congrArg Char.toNat (dif_neg upper)⟩
  · have lower : 'a'.val ≤ c.val ∧ c.val ≤ 'z'.val := by
      rw [UInt32.le_iff_toNat_le, UInt32.le_iff_toNat_le]
      exact ⟨low, high⟩
    have shifted : c.toUpper.val = c.val + ('A'.val - 'a'.val) :=
      (congrArg Char.val (dif_pos lower) :)
    have wrapped : ('A'.val - 'a'.val).toNat = 4294967264 := by decide
    refine .inr ⟨low, high, ?_⟩
    change c.toUpper.val.toNat + 32 = c.toNat
    rw [shifted, UInt32.toNat_add, wrapped]
    change (c.toNat + 4294967264) % 4294967296 + 32 = c.toNat
    omega

private theorem toNat_letterOf {digit : Nat} (small : digit < 26) :
    (letterOf digit).toNat = 65 + digit := by
  have valid : (65 + digit).isValidChar := .inl (by omega)
  exact congrArg Char.toNat (dif_pos valid)

/-- A letter has a value from one to twenty-six, which names the capital letter. -/
theorem letterValue_cases (letter : isLetter c = true) :
    1 ≤ letterValue c ∧ letterValue c ≤ 26 ∧ letterOf (letterValue c - 1) = c.toUpper := by
  have upper := toNat_toUpper letter
  have low : 1 ≤ letterValue c := by
    rw [letterValue]
    omega
  have high : letterValue c ≤ 26 := by
    rw [letterValue]
    omega
  refine ⟨low, high, Char.toNat_inj.mp ?_⟩
  rw [toNat_letterOf (by omega), letterValue]
  omega

private theorem letterValue_letterOf {digit : Nat} (small : digit < 26) :
    letterValue (letterOf digit) = digit + 1 := by
  have code := toNat_letterOf small
  have letter : isLetter (letterOf digit) = true := isLetter_iff.mpr (by omega)
  rw [letterValue]
  have upper := toNat_toUpper letter
  omega

private theorem isUpper_letterOf {digit : Nat} (small : digit < 26) :
    (letterOf digit).isUpper = true := by
  rw [isUpper_iff, toNat_letterOf small]
  omega

/-- One more letter multiplies the value of the others by twenty-six. -/
theorem lettersValue_concat (letters : List Char) (c : Char) :
    lettersValue (letters ++ [c]) = 26 * lettersValue letters + letterValue c := by
  rw [lettersValue, List.foldl_append, List.foldl_cons, List.foldl_nil, ← lettersValue,
    Nat.mul_comm]

/-- The last letter of a column is its last digit in bijective base twenty-six. -/
theorem lettersOf_of_ne_zero {n : Nat} (some : n ≠ 0) :
    lettersOf n = lettersOf ((n - 1) / 26) ++ [letterOf ((n - 1) % 26)] := by
  rw [lettersOf, if_neg some]

/-- The letters of a number are those of any numeral of it, in upper case. -/
theorem lettersOf_lettersValue (all : ∀ c ∈ letters, isLetter c = true) :
    lettersOf (lettersValue letters) = Text.asciiUpper letters := by
  induction letters using List.reverseRecOn with
  | nil =>
      rw [lettersOf]
      rfl
  | append_singleton letters c ih =>
      obtain ⟨front, last⟩ := List.forall_mem_append.mp all
      obtain ⟨low, high, upper⟩ := letterValue_cases (last c (List.mem_singleton_self c))
      rw [lettersValue_concat, lettersOf_of_ne_zero (by omega),
        show (26 * lettersValue letters + letterValue c - 1) / 26 = lettersValue letters by omega,
        show (26 * lettersValue letters + letterValue c - 1) % 26 = letterValue c - 1 by omega,
        ih front, upper, Text.asciiUpper, Text.asciiUpper, List.map_append]
      rfl

/-- What holds of the letters of every number, by one letter at a time. -/
theorem lettersOf_induction {motive : Nat → List Char → Prop} (zero : motive 0 [])
    (concat : ∀ front digit letters, digit < 26 → motive front letters →
      motive (26 * front + (digit + 1)) (letters ++ [letterOf digit])) (n : Nat) :
    motive n (lettersOf n) := by
  induction n using Nat.strongRecOn with
  | ind n ih =>
      by_cases empty : n = 0
      · subst empty
        rw [lettersOf, if_pos rfl]
        exact zero
      · have step := concat ((n - 1) / 26) ((n - 1) % 26) _ (by omega) (ih _ (by omega))
        rw [show 26 * ((n - 1) / 26) + ((n - 1) % 26 + 1) = n by omega] at step
        rwa [lettersOf_of_ne_zero empty]

/-- The letters of a number have the number as their value. -/
theorem lettersValue_lettersOf (n : Nat) : lettersValue (lettersOf n) = n := by
  induction n using lettersOf_induction with
  | zero => rfl
  | concat front digit letters small ih =>
      rw [lettersValue_concat, ih, letterValue_letterOf small]

/-- Columns are written with capital letters only. -/
theorem isUpper_of_mem_lettersOf (n : Nat) : ∀ c ∈ lettersOf n, c.isUpper = true := by
  induction n using lettersOf_induction with
  | zero => simp
  | concat front digit letters small ih =>
      refine List.forall_mem_append.mpr ⟨ih, List.forall_mem_singleton.mpr ?_⟩
      exact isUpper_letterOf small

/-- The place values of the letters, from one for `A` to twenty-six for `Z`, give the number. -/
theorem ofDigits_lettersOf (n : Nat) :
    Nat.ofDigits 26 ((lettersOf n).reverse.map fun c => c.toNat - 64) = n := by
  induction n using lettersOf_induction with
  | zero => rfl
  | concat front digit letters small ih =>
      rw [List.reverse_concat, List.map_cons, Nat.ofDigits_cons, ih, toNat_letterOf small]
      omega

private theorem length_lettersOf_succ_le {n places : Nat}
    (front : (lettersOf ((n - 1) / 26)).length ≤ places) : (lettersOf n).length ≤ places + 1 := by
  by_cases empty : n = 0
  · rw [lettersOf, if_pos empty]
    exact Nat.zero_le _
  · rw [lettersOf_of_ne_zero empty, List.length_append, List.length_singleton]
    omega

/-- Columns up to the last one with three letters have no more than three. -/
theorem length_lettersOf_le {n : Nat} (small : n ≤ 26 + 26 * 26 + 26 * 26 * 26) :
    (lettersOf n).length ≤ 3 := by
  refine length_lettersOf_succ_le (length_lettersOf_succ_le (length_lettersOf_succ_le ?_))
  rw [lettersOf, if_pos (by omega)]
  exact Nat.zero_le _

end Cell

end SheetFormula
