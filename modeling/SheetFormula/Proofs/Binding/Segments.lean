import SheetFormula.RowReference

/-!
# The stretches of a formula

Stretches outside of quotes and stretches between quotes take turns (`Segment.Alternate`), and a
text can be divided into such stretches in one way only, which is how it is divided
(`Segment.divide_eq_iff`).  A change of the stretches outside of quotes meets each of them once
(`Segment.run_mapOutsideM`).
-/

namespace SheetFormula

namespace Segment

variable {text stretch inner : List Char} {parts : List Segment}

/-- The stretches take turns: one outside of quotes, which may be empty, and one between quotes.  A
stretch between quotes is closed unless it is the last one, and an empty stretch outside of quotes
is never the last one. -/
inductive Alternate : List Segment → Prop where
  | nil : Alternate []
  | last {stretch : List Char} (present : stretch ≠ []) (unquoted : '"' ∉ stretch) :
      Alternate [outside stretch]
  | unclosed {stretch inner : List Char} (unquoted : '"' ∉ stretch) (inside : '"' ∉ inner) :
      Alternate [outside stretch, quoted ('"' :: inner)]
  | closed {stretch inner : List Char} {parts : List Segment} (unquoted : '"' ∉ stretch)
      (inside : '"' ∉ inner) (later : Alternate parts) :
      Alternate (outside stretch :: quoted ('"' :: (inner ++ ['"'])) :: parts)

/-- A stretch outside of quotes holds no quote. -/
theorem Alternate.unquoted_of_mem (alternate : Alternate parts)
    (member : outside stretch ∈ parts) : '"' ∉ stretch := by
  induction alternate with
  | nil => cases member
  | last _ unquoted =>
      obtain rfl := outside.inj (List.mem_singleton.mp member)
      exact unquoted
  | unclosed unquoted _ =>
      obtain rfl : stretch = _ := by simpa using member
      exact unquoted
  | closed unquoted _ _ ih =>
      obtain rfl | later : stretch = _ ∨ outside stretch ∈ _ := by simpa using member
      · exact unquoted
      · exact ih later

/-- The text of stretches that begin with one outside of quotes and a closed one between quotes. -/
theorem text_closed (stretch inner : List Char) (parts : List Segment) :
    (outside stretch :: quoted ('"' :: (inner ++ ['"'])) :: parts).flatMap Segment.text =
      stretch ++ '"' :: (inner ++ '"' :: parts.flatMap Segment.text) := by
  simp [Segment.text]

/-- Characters other than quotes prolong the stretch that they stand in. -/
theorem divideFrom_append (unquoted : '"' ∉ stretch) (inQuotes : Bool) (held rest : List Char) :
    divideFrom inQuotes held (stretch ++ rest) =
      divideFrom inQuotes (stretch.reverse ++ held) rest := by
  induction stretch generalizing held with
  | nil => rfl
  | cons c stretch ih =>
      obtain ⟨other, unquoted⟩ := not_or.mp (mt List.mem_cons.mpr unquoted)
      rw [List.cons_append, List.reverse_cons, List.append_assoc, List.singleton_append]
      cases inQuotes with
      | false => rw [divideFrom, if_neg (Ne.symm other), ih unquoted]
      | true => rw [divideFrom, if_neg (Ne.symm other), ih unquoted]

private theorem divide_of_unquoted (present : text ≠ []) (unquoted : '"' ∉ text) :
    divide text = [outside text] := by
  have whole := divideFrom_append unquoted false [] []
  rw [List.append_nil, List.append_nil] at whole
  rw [divide, whole, divideFrom, List.isEmpty_reverse, List.isEmpty_eq_false_iff.mpr present,
    List.reverse_reverse]
  rfl

private theorem divide_of_quote (unquoted : '"' ∉ stretch) (rest : List Char) :
    divide (stretch ++ '"' :: rest) = outside stretch :: divideFrom true ['"'] rest := by
  rw [divide, divideFrom_append unquoted, divideFrom, if_pos rfl, List.append_nil,
    List.reverse_reverse]

private theorem divideFrom_of_unclosed (inside : '"' ∉ inner) :
    divideFrom true ['"'] inner = [quoted ('"' :: inner)] := by
  have whole := divideFrom_append inside true ['"'] []
  rw [List.append_nil] at whole
  rw [whole, divideFrom, List.reverse_append, List.reverse_reverse]
  rfl

private theorem divideFrom_of_closed (inside : '"' ∉ inner) (rest : List Char) :
    divideFrom true ['"'] (inner ++ '"' :: rest) =
      quoted ('"' :: (inner ++ ['"'])) :: divide rest := by
  rw [divideFrom_append inside, divideFrom, if_pos rfl, List.reverse_cons, List.reverse_append,
    List.reverse_reverse]
  rfl

/-- Stretches that take turns are found again in the text that they make up. -/
theorem Alternate.divide_text (alternate : Alternate parts) :
    divide (parts.flatMap Segment.text) = parts := by
  induction alternate with
  | nil => rfl
  | last present unquoted =>
      rw [List.flatMap_singleton]
      exact divide_of_unquoted present unquoted
  | unclosed unquoted inside =>
      rw [List.flatMap_cons, List.flatMap_singleton]
      exact (divide_of_quote unquoted _).trans (congrArg _ (divideFrom_of_unclosed inside))
  | closed unquoted inside _ ih =>
      rw [text_closed, divide_of_quote unquoted, divideFrom_of_closed inside, ih]

/-- Every text is made up of stretches that take turns. -/
theorem exists_alternate (text : List Char) :
    ∃ parts, Alternate parts ∧ parts.flatMap Segment.text = text := by
  -- The recursion goes from one closed stretch to the text behind it, not from character to
  -- character, so nothing needs to be said about a stretch that is only half read.
  by_cases quote : '"' ∈ text
  · obtain ⟨stretch, behind, rfl, unquoted⟩ := List.eq_append_cons_of_mem quote
    by_cases again : '"' ∈ behind
    · obtain ⟨inner, rest, rfl, inside⟩ := List.eq_append_cons_of_mem again
      obtain ⟨parts, later, whole⟩ := exists_alternate rest
      refine ⟨_, .closed unquoted inside later, ?_⟩
      rw [text_closed, whole]
    · refine ⟨_, .unclosed unquoted again, ?_⟩
      rw [List.flatMap_cons, List.flatMap_singleton]
      rfl
  · by_cases present : text = []
    · exact ⟨[], .nil, present.symm⟩
    · exact ⟨_, .last present quote, List.flatMap_singleton _ _⟩
termination_by text.length

/-- The division of a text is the only one into stretches that take turns. -/
theorem divide_eq_iff :
    divide text = parts ↔ Alternate parts ∧ parts.flatMap Segment.text = text := by
  constructor
  · rintro rfl
    obtain ⟨parts, alternate, rfl⟩ := exists_alternate text
    rw [alternate.divide_text]
    exact ⟨alternate, rfl⟩
  · rintro ⟨alternate, rfl⟩
    exact alternate.divide_text

/-- The stretches of a text take turns. -/
theorem alternate_divide (text : List Char) : Alternate (divide text) :=
  (divide_eq_iff.mp rfl).1

/-- The stretches of a text make up the text. -/
theorem text_divide (text : List Char) : (divide text).flatMap Segment.text = text :=
  (divide_eq_iff.mp rfl).2

/-- The text of a stretch, changed if it lies outside of quotes. -/
def changed (change : List Char → List Char) : Segment → List Char
  | outside stretch => change stretch
  | quoted stretch => stretch

/-- A change outside of quotes is a change of each stretch that lies there. -/
theorem mapOutside_eq (change : List Char → List Char) (text : List Char) :
    mapOutside change text = (divide text).flatMap (changed change) := by
  have each : changeM (fun stretch => (pure (change stretch) : Id (List Char))) =
      fun segment => pure (segment.changed change) := by
    funext segment
    cases segment with
    | outside stretch => rfl
    | quoted stretch => rfl
  rw [mapOutside, mapOutsideM, each, List.mapM_pure, pure_bind, Id.run_pure, List.flatMap]

/-- Where nothing is changed, the stretches are put together to the same text. -/
theorem mapOutside_id (text : List Char) : mapOutside id text = text := by
  have same : changed id = Segment.text := by
    funext segment
    cases segment with
    | outside stretch => rfl
    | quoted stretch => rfl
  rw [mapOutside_eq, same, text_divide]

/-- A change that keeps a state goes through stretches from the left.  It is applied once to each
stretch outside of quotes, in the state that it left behind at the one before, and the stretches
between quotes are copied. -/
inductive Changes {σ : Type} (change : List Char → StateM σ (List Char)) :
    List Segment → σ → List Char → σ → Prop where
  | nil (state : σ) : Changes change [] state [] state
  | outside {stretch new written : List Char} {parts : List Segment} {state next last : σ}
      (applied : (change stretch).run state = (new, next))
      (later : Changes change parts next written last) :
      Changes change (outside stretch :: parts) state (new ++ written) last
  | quoted {stretch written : List Char} {parts : List Segment} {state last : σ}
      (later : Changes change parts state written last) :
      Changes change (quoted stretch :: parts) state (stretch ++ written) last

section Changes

variable {σ : Type} {change : List Char → StateM σ (List Char)} {state last : σ}
  {written : List Char}

private theorem Changes.unique {otherLast : σ} {otherWritten : List Char}
    (changes : Changes change parts state written last)
    (others : Changes change parts state otherWritten otherLast) :
    written = otherWritten ∧ last = otherLast := by
  induction changes generalizing otherWritten otherLast with
  | nil state =>
      cases others
      exact ⟨rfl, rfl⟩
  | outside applied later ih =>
      cases others with
      | outside again rest =>
          obtain ⟨rfl, rfl⟩ := Prod.mk.inj (applied.symm.trans again)
          obtain ⟨rfl, rfl⟩ := ih rest
          exact ⟨rfl, rfl⟩
  | quoted later ih =>
      cases others with
      | quoted rest =>
          obtain ⟨rfl, rfl⟩ := ih rest
          exact ⟨rfl, rfl⟩

private theorem changes_mapM (parts : List Segment) (state : σ) :
    Changes change parts state ((parts.mapM (changeM change)).run state).1.flatten
      ((parts.mapM (changeM change)).run state).2 := by
  induction parts generalizing state with
  | nil => exact .nil state
  | cons segment parts ih =>
      rw [List.mapM_cons]
      cases segment with
      | outside stretch => exact .outside rfl (ih ((change stretch).run state).2)
      | quoted stretch => exact .quoted (ih state)

/-- A change that keeps a state goes through the stretches of the text from the left. -/
theorem run_mapOutsideM :
    (mapOutsideM change text).run state = (written, last) ↔
      Changes change (divide text) state written last := by
  have runs := @changes_mapM σ change (divide text) state
  constructor
  · intro run
    obtain ⟨rfl, rfl⟩ := Prod.mk.inj run
    exact runs
  · intro changes
    obtain ⟨rfl, rfl⟩ := changes.unique runs
    rfl

end Changes

end Segment

end SheetFormula
