import SheetFormula.RowReference
import SheetFormula.Text.Search
import Mathlib.Data.List.TakeWhile

/-!
# The pattern of references

A reference to a field is a name in brackets or a word, followed by the row mark, and what stands
next to it must not prolong its words (`RowReference.Matches`).  At each place of a text at most one
reference fits this pattern, and it is the one that is found there (`RowReference.at?_eq_some_iff`).
-/

namespace SheetFormula

namespace Text

/-- A word begins or ends between the two texts. -/
def IsBoundary (before after : List Char) : Prop :=
  isWordNeighbour before.getLast? ≠ isWordNeighbour after.head?

private theorem inRanges_letter (others : List (Nat × Nat)) {n : Nat}
    (letter : 65 ≤ n ∧ n ≤ 90 ∨ 97 ≤ n ∧ n ≤ 122 ∨ n = 95) :
    inRanges ((0x30, 0x39) :: (0x41, 0x5A) :: (0x5F, 0x5F) :: (0x61, 0x7A) :: others) n = true := by
  simp only [inRanges]
  split_ifs
  all_goals first | rfl | omega

private theorem isWordChar_of_letter {c : Char}
    (letter : 65 ≤ c.toNat ∧ c.toNat ≤ 90 ∨ 97 ≤ c.toNat ∧ c.toNat ≤ 122 ∨ c.toNat = 95) :
    isWordChar c = true :=
  inRanges_letter _ letter

/-- A character is the lower case of itself or of an upper case letter. -/
theorem toLower_cases (c : Char) :
    c.toLower = c ∨ (65 ≤ c.toNat ∧ c.toNat ≤ 90) ∧ c.toLower.toNat = c.toNat + 32 := by
  by_cases upper : 65 ≤ c.val ∧ c.val ≤ 90
  · have low : 65 ≤ c.val.toNat := UInt32.le_iff_toNat_le.mp upper.1
    have high : c.val.toNat ≤ 90 := UInt32.le_iff_toNat_le.mp upper.2
    have shifted : c.toLower.val = c.val + 32 := congrArg Char.val (dif_pos upper)
    refine .inr ⟨⟨low, high⟩, ?_⟩
    change c.toLower.val.toNat = c.val.toNat + 32
    rw [shifted, UInt32.toNat_add]
    exact Nat.mod_eq_of_lt (by change c.val.toNat + 32 < 4294967296; omega)
  · exact .inl (dif_neg upper)

end Text

namespace RowReference

/-- The row mark, in any case. -/
def IsMark (mark : List Char) : Prop :=
  Text.equalFold mark "@row".toList = true

/-- The pattern of a reference between two texts: a name in brackets or a word that begins there,
and the row mark, with which a word ends. -/
inductive Matches (before : List Char) : RowReference → (after : List Char) → Prop where
  | bracketed {field mark after : List Char} (present : field ≠ []) (inside : ']' ∉ field)
      (isMark : IsMark mark) (ends : Text.IsBoundary mark after) :
      Matches before ⟨'[' :: (field ++ ']' :: mark), field⟩ after
  | bare {first : Char} {name mark after : List Char} (starts : startsName first = true)
      (continues : ∀ c ∈ name, continuesName c = true)
      (begins : Text.IsBoundary before (first :: name)) (isMark : IsMark mark)
      (ends : Text.IsBoundary mark after) :
      Matches before ⟨first :: (name ++ mark), first :: name⟩ after

/-- A reference is never written as nothing. -/
theorem Matches.written_ne_nil {before after : List Char} {found : RowReference}
    (fits : Matches before found after) : found.written ≠ [] := by
  cases fits with
  | bracketed => exact List.cons_ne_nil _ _
  | bare => exact List.cons_ne_nil _ _

/-- The last letter of the row mark belongs to a word, so a word ends there if none goes on. -/
theorem isMark_iff {mark : List Char} :
    IsMark mark ↔ ∃ r o w : Char, mark = ['@', r, o, w] ∧ r.toLower = 'r' ∧ o.toLower = 'o' ∧
      w.toLower = 'w' := by
  constructor
  · intro isMark
    have lower : mark.map Char.toLower = ['@', 'r', 'o', 'w'] := eq_of_beq isMark
    simp only [List.map_eq_cons_iff, List.map_eq_nil_iff] at lower
    obtain ⟨sign, _, rfl, isSign, r, _, rfl, isR, o, _, rfl, isO, w, _, rfl, isW, rfl⟩ := lower
    refine ⟨r, o, w, ?_, isR, isO, isW⟩
    rcases Text.toLower_cases sign with same | ⟨⟨low, _⟩, code⟩
    · rw [← same, isSign]
    · rw [isSign] at code
      change 64 = _ at code
      omega
  · rintro ⟨r, o, w, rfl, isR, isO, isW⟩
    refine beq_iff_eq.mpr ?_
    change ['@'.toLower, r.toLower, o.toLower, w.toLower] = _
    rw [isR, isO, isW]
    rfl

private theorem isBoundary_mark_iff {mark after : List Char} (isMark : IsMark mark) :
    Text.IsBoundary mark after ↔ Text.isWordNeighbour after.head? = false := by
  obtain ⟨r, o, w, rfl, _, _, isW⟩ := isMark_iff.mp isMark
  have word : Text.isWordChar w = true := by
    rcases Text.toLower_cases w with same | ⟨upper, _⟩
    · rw [← same, isW]
      rfl
    · exact Text.isWordChar_of_letter (.inl upper)
  change Text.isWordChar w ≠ _ ↔ _
  rw [word]
  cases Text.isWordNeighbour after.head? <;> simp

private theorem isWordChar_of_startsName {c : Char} (starts : startsName c = true) :
    Text.isWordChar c = true := by
  rcases Bool.or_eq_true_iff.mp starts with letter | same
  · rcases Bool.or_eq_true_iff.mp letter with upper | lower
    · obtain ⟨low, high⟩ : 65 ≤ c.val ∧ c.val ≤ 90 := of_decide_eq_true upper
      rw [UInt32.le_iff_toNat_le] at low high
      exact Text.isWordChar_of_letter (.inl ⟨low, high⟩)
    · obtain ⟨low, high⟩ := Bool.and_eq_true_iff.mp lower
      replace low : 97 ≤ c.val := of_decide_eq_true low
      replace high : c.val ≤ 122 := of_decide_eq_true high
      rw [UInt32.le_iff_toNat_le] at low high
      exact Text.isWordChar_of_letter (.inr (.inl ⟨low, high⟩))
  · obtain rfl : c = '_' := eq_of_beq same
    rfl

/-- A character that may start a name may also stand further on in one. -/
theorem continuesName_of_startsName {c : Char} (starts : startsName c = true) :
    continuesName c = true := by
  simp only [startsName, Bool.or_eq_true] at starts
  simp only [continuesName, Bool.or_eq_true]
  exact .inl (starts.elim (fun letter => .inl (.inl letter)) .inr)

private theorem rowMark?_eq_some_iff {text mark : List Char} :
    rowMark? text = some mark ↔
      ∃ after, text = mark ++ after ∧ IsMark mark ∧ Text.IsBoundary mark after := by
  constructor
  · intro marked
    unfold rowMark? at marked
    split at marked
    · rename_i sign r o w rest
      split at marked
      · rename_i spelled
        obtain ⟨rfl, isR, isO, isW, ends⟩ := spelled
        obtain rfl := Option.some.inj marked
        have isMark := isMark_iff.mpr ⟨r, o, w, rfl, isR, isO, isW⟩
        exact ⟨rest, rfl, isMark, (isBoundary_mark_iff isMark).mpr (by simpa using ends)⟩
      · cases marked
    · cases marked
  · rintro ⟨after, rfl, isMark, ends⟩
    have free := (isBoundary_mark_iff isMark).mp ends
    obtain ⟨r, o, w, rfl, isR, isO, isW⟩ := isMark_iff.mp isMark
    exact if_pos ⟨rfl, isR, isO, isW, by simp [free]⟩

/-- Behind an opening bracket, a reference is a field without closing brackets, the bracket that
closes it, and a row mark with which the word ends. -/
private theorem bracketed?_eq_some_iff {text : List Char} {found : RowReference} :
    bracketed? text = some found ↔ ∃ field mark after, text = field ++ ']' :: (mark ++ after) ∧
      field ≠ [] ∧ ']' ∉ field ∧ IsMark mark ∧ Text.IsBoundary mark after ∧
        found = ⟨'[' :: (field ++ ']' :: mark), field⟩ := by
  constructor
  · intro read
    have whole := @List.takeWhile_append_dropWhile _ (fun c : Char => c != ']') text
    have inside : ']' ∉ text.takeWhile fun c => c != ']' := by
      intro member
      simpa using List.mem_takeWhile_imp member
    rw [bracketed?] at read
    generalize text.takeWhile (fun c => c != ']') = field at read whole inside
    cases behind : text.dropWhile fun c => c != ']' with
    | nil =>
        rw [behind] at read
        cases read
    | cons close rest =>
        have isClose : close = ']' := by
          have head := List.head?_dropWhile_not (fun c : Char => c != ']') text
          rw [behind] at head
          simpa using head
        subst isClose
        rw [behind] at read whole
        by_cases empty : field.isEmpty = true
        · simp [empty] at read
        · simp only [empty, ↓reduceIte, Bool.false_eq_true, Option.map_eq_some_iff] at read
          obtain ⟨mark, marked, rfl⟩ := read
          obtain ⟨after, rfl, isMark, ends⟩ := rowMark?_eq_some_iff.mp marked
          exact ⟨field, mark, after, whole.symm, by simpa using empty, inside, isMark, ends,
            by simp⟩
  · rintro ⟨field, mark, after, rfl, present, inside, isMark, ends, rfl⟩
    have kept : ∀ c ∈ field, (c != ']') = true := by
      intro c member
      rw [bne_iff_ne]
      rintro rfl
      exact inside member
    have marked : rowMark? (mark ++ after) = some mark :=
      rowMark?_eq_some_iff.mpr ⟨after, rfl, isMark, ends⟩
    rw [bracketed?, List.takeWhile_append_of_pos kept, List.dropWhile_append_of_pos kept,
      List.takeWhile_cons_of_neg (by simp), List.dropWhile_cons_of_neg (by simp), List.append_nil]
    simp [present, marked]

private theorem bare?_eq_some_iff {text : List Char} {found : RowReference} :
    bare? text = some found ↔ ∃ field mark after, text = field ++ (mark ++ after) ∧
      (∀ c ∈ field, continuesName c = true) ∧ IsMark mark ∧ Text.IsBoundary mark after ∧
        found = ⟨field ++ mark, field⟩ := by
  constructor
  · intro read
    obtain ⟨mark, marked, rfl⟩ := Option.map_eq_some_iff.mp read
    obtain ⟨after, split, isMark, ends⟩ := rowMark?_eq_some_iff.mp marked
    refine ⟨_, mark, after, ?_, fun c => List.mem_takeWhile_imp, isMark, ends, rfl⟩
    rw [← split, List.takeWhile_append_dropWhile]
  · rintro ⟨field, mark, after, rfl, continues, isMark, ends, rfl⟩
    have marked : rowMark? (mark ++ after) = some mark :=
      rowMark?_eq_some_iff.mpr ⟨after, rfl, isMark, ends⟩
    obtain ⟨r, o, w, rfl, _⟩ := isMark_iff.mp isMark
    rw [bare?, List.takeWhile_append_of_pos continues, List.dropWhile_append_of_pos continues,
      List.cons_append, List.takeWhile_cons_of_neg (by decide),
      List.dropWhile_cons_of_neg (by decide), List.append_nil]
    rw [List.cons_append] at marked
    rw [marked]
    rfl

/-- The reference at the start of a text is the one that fits the pattern there. -/
theorem at?_eq_some_iff {previous : Option Char} {before text : List Char} {found : RowReference}
    (same : Text.isWordNeighbour before.getLast? = Text.isWordNeighbour previous) :
    at? previous text = some found ↔
      ∃ after, text = found.written ++ after ∧ Matches before found after := by
  constructor
  · intro read
    cases text with
    | nil => cases read
    | cons c rest =>
        rw [at?] at read
        by_cases opening : c = '['
        · rw [if_pos opening] at read
          obtain ⟨field, mark, after, rfl, present, inside, isMark, ends, rfl⟩ :=
            bracketed?_eq_some_iff.mp read
          exact ⟨after, by simp [opening], .bracketed present inside isMark ends⟩
        · rw [if_neg opening] at read
          split at read
          · rename_i begins
            obtain ⟨starts, free⟩ := Bool.and_eq_true_iff.mp begins
            obtain ⟨field, mark, after, split, continues, isMark, ends, rfl⟩ :=
              bare?_eq_some_iff.mp read
            cases field with
            | nil =>
                obtain ⟨r, o, w, rfl, _⟩ := isMark_iff.mp isMark
                obtain ⟨rfl, _⟩ := List.cons.inj split
                cases starts
            | cons first name =>
                obtain ⟨rfl, _⟩ := List.cons.inj split
                refine ⟨after, by rw [split, List.append_assoc], .bare starts
                  (List.forall_mem_cons.mp continues).2 ?_ isMark ends⟩
                change Text.isWordNeighbour before.getLast? ≠ Text.isWordChar c
                rw [same, isWordChar_of_startsName starts]
                simpa using free
          · cases read
  · rintro ⟨after, rfl, fits⟩
    cases fits with
    | bracketed present inside isMark ends =>
        rw [List.cons_append, at?, if_pos rfl, bracketed?_eq_some_iff]
        exact ⟨_, _, after, by simp, present, inside, isMark, ends, rfl⟩
    | @bare first name mark _ starts continues begins isMark ends =>
        change Text.isWordNeighbour before.getLast? ≠ Text.isWordChar first at begins
        rw [same, isWordChar_of_startsName starts] at begins
        have word : first ≠ '[' := by
          rintro rfl
          cases starts
        have read : bare? (first :: (name ++ mark) ++ after) =
            some ⟨first :: (name ++ mark), first :: name⟩ :=
          bare?_eq_some_iff.mpr ⟨first :: name, mark, after, by simp,
            List.forall_mem_cons.mpr ⟨continuesName_of_startsName starts, continues⟩, isMark, ends,
            by simp⟩
        refine (if_neg word).trans ((if_pos ?_).trans read)
        simpa [starts] using begins

/-- Of what follows a reference, only whether it goes on with a word matters. -/
theorem Matches.congr_after {before after other : List Char} {found : RowReference}
    (fits : Matches before found after)
    (same : Text.isWordNeighbour after.head? = Text.isWordNeighbour other.head?) :
    Matches before found other := by
  cases fits with
  | bracketed present inside isMark ends =>
      refine .bracketed present inside isMark ?_
      rwa [Text.IsBoundary, ← same]
  | bare starts continues begins isMark ends =>
      refine .bare starts continues begins isMark ?_
      rwa [Text.IsBoundary, ← same]

end RowReference

end SheetFormula
