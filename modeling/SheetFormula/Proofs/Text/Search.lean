import SheetFormula.Text.Search

/-!
# What searches find

Each search is characterised by how the text is put together from its results: a start or an ending
that is taken off, and the first occurrence of a pattern.
-/

namespace SheetFormula.Text

variable {pattern text before after rest : List Char}

/-- What is left of a text without its start is what follows the start. -/
theorem dropStart?_eq_some_iff {start : List Char} :
    dropStart? start text = some rest ↔ text = start ++ rest := by
  induction start generalizing text with
  | nil => simp [dropStart?]
  | cons s start ih =>
      cases text with
      | nil => simp [dropStart?]
      | cons c text =>
          rw [dropStart?]
          split
          · rename_i same
            simp [ih, same]
          · rename_i other
            simp [Ne.symm other]

/-- A start can be dropped unless the text begins otherwise. -/
theorem dropStart?_eq_none_iff {start : List Char} :
    dropStart? start text = none ↔ ¬ start <+: text := by
  constructor
  · rintro refused ⟨rest, rfl⟩
    rw [dropStart?_eq_some_iff.mpr rfl] at refused
    cases refused
  · intro other
    cases found : dropStart? start text with
    | none => rfl
    | some rest => exact absurd ⟨rest, (dropStart?_eq_some_iff.mp found).symm⟩ other

/-- What is left of a text without its ending is what stands before the ending. -/
theorem dropEnd?_eq_some_iff {ending : List Char} :
    dropEnd? ending text = some rest ↔ text = rest ++ ending := by
  rw [dropEnd?, Option.map_eq_some_iff]
  constructor
  · rintro ⟨back, found, rfl⟩
    have split := dropStart?_eq_some_iff.mp found
    rw [← List.reverse_reverse text, split, List.reverse_append, List.reverse_reverse]
  · rintro rfl
    refine ⟨rest.reverse, ?_, List.reverse_reverse rest⟩
    exact dropStart?_eq_some_iff.mpr List.reverse_append

/-- An ending can be dropped unless the text ends otherwise. -/
theorem dropEnd?_eq_none_iff {ending : List Char} :
    dropEnd? ending text = none ↔ ¬ ending <:+ text := by
  rw [dropEnd?, Option.map_eq_none_iff, dropStart?_eq_none_iff, List.reverse_prefix]

/-- The pattern is found where it occurs first. -/
theorem splitOnce?_eq_some_iff :
    splitOnce? pattern text = some (before, after) ↔
      text = before ++ (pattern ++ after) ∧
        ∀ front back, text = front ++ (pattern ++ back) → before.length ≤ front.length := by
  induction text generalizing before with
  | nil =>
      rw [splitOnce?]
      split
      · rename_i empty
        subst empty
        simp only [Option.some.injEq, Prod.mk.injEq, List.nil_append, List.nil_eq,
          List.append_eq_nil_iff]
        constructor
        · rintro ⟨rfl, rfl⟩
          exact ⟨⟨rfl, rfl⟩, fun _ _ _ => Nat.zero_le _⟩
        · rintro ⟨⟨rfl, rfl⟩, -⟩
          exact ⟨rfl, rfl⟩
      · rename_i some
        simp [some]
  | cons c text ih =>
      rw [splitOnce?]
      cases found : dropStart? pattern (c :: text) with
      | some rest =>
          have split := dropStart?_eq_some_iff.mp found
          simp only [Option.some.injEq, Prod.mk.injEq]
          constructor
          · rintro ⟨rfl, rfl⟩
            exact ⟨split, fun _ _ _ => Nat.zero_le _⟩
          · rintro ⟨whole, first⟩
            obtain rfl := List.length_eq_zero_iff.mp (Nat.le_zero.mp (first [] rest split))
            rw [split, List.nil_append, List.append_cancel_left_eq] at whole
            exact ⟨rfl, whole⟩
      | none =>
          have later {front back : List Char} (whole : c :: text = front ++ (pattern ++ back)) :
              ∃ tail, front = c :: tail ∧ text = tail ++ (pattern ++ back) := by
            cases front with
            | nil => exact absurd ⟨back, whole.symm⟩ (dropStart?_eq_none_iff.mp found)
            | cons d tail =>
                obtain ⟨rfl, split⟩ := List.cons.inj whole
                exact ⟨tail, rfl, split⟩
          simp only [Option.map_eq_some_iff, Prod.exists, Prod.mk.injEq]
          constructor
          · rintro ⟨before, after, parts, rfl, rfl⟩
            obtain ⟨split, first⟩ := ih.mp parts
            refine ⟨congrArg (c :: ·) split, fun front back whole => ?_⟩
            obtain ⟨tail, rfl, other⟩ := later whole
            exact Nat.succ_le_succ (first tail back other)
          · rintro ⟨whole, first⟩
            obtain ⟨tail, rfl, split⟩ := later whole
            refine ⟨tail, after, ih.mpr ⟨split, fun front back other => ?_⟩, rfl, rfl⟩
            exact Nat.le_of_succ_le_succ (first (c :: front) back (congrArg (c :: ·) other))

/-- A text is split at a pattern unless the pattern is nowhere in it. -/
theorem splitOnce?_eq_none_iff : splitOnce? pattern text = none ↔ ¬ pattern <:+: text := by
  induction text with
  | nil => simp [splitOnce?]
  | cons c text ih =>
      rw [splitOnce?, List.infix_cons_iff, not_or, ← ih, ← dropStart?_eq_none_iff]
      cases dropStart? pattern (c :: text) <;> simp

/-- A text contains the pattern if the pattern stands somewhere in it. -/
theorem contains_eq_true_iff : contains pattern text = true ↔ pattern <:+: text := by
  rw [contains, ← Decidable.not_iff_not, ← splitOnce?_eq_none_iff]
  cases splitOnce? pattern text <;> simp

/-- A single character is found where it occurs first. -/
theorem splitOnce?_singleton_iff {c : Char} :
    splitOnce? [c] text = some (before, after) ↔ text = before ++ c :: after ∧ c ∉ before := by
  rw [splitOnce?_eq_some_iff]
  refine and_congr_right fun whole => ⟨fun first member => ?_, fun absent front back other => ?_⟩
  · obtain ⟨front, back, split⟩ := List.append_of_mem member
    have shorter := first front (back ++ [c] ++ after) (by simp [whole, split])
    rw [split, List.length_append, List.length_cons] at shorter
    omega
  · rw [whole] at other
    obtain ⟨tail, rfl, _⟩ | ⟨tail, rfl, _⟩ := List.append_eq_append_iff.mp other
    · rw [List.length_append]
      omega
    · cases tail with
      | nil => simp
      | cons d tail => simp_all

end SheetFormula.Text
