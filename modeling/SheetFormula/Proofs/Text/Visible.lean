import SheetFormula.Text.Blank
import Mathlib.Data.List.TakeWhile

/-!
# Visible characters

Trimming removes the blanks around a text, so it keeps what is visible of it.  A text that begins
and ends with a visible character is left over when it is trimmed together with blanks around it
(`trim_surrounded`).
-/

namespace SheetFormula

namespace Text

/-- What is left of a text without its blanks. -/
def visible (text : List Char) : List Char :=
  text.filter fun c => !isBlank c

/-- The visible characters of two texts are those of the first, then those of the second. -/
theorem visible_append (first second : List Char) :
    visible (first ++ second) = visible first ++ visible second :=
  List.filter_append ..

/-- A visible character stays in its place. -/
theorem visible_cons {c : Char} {text : List Char} (shown : isBlank c = false) :
    visible (c :: text) = c :: visible text :=
  List.filter_cons_of_pos (by simp [shown])

/-- Nothing is visible of blanks. -/
theorem visible_of_blank {text : List Char} (blank : ∀ c ∈ text, isBlank c = true) :
    visible text = [] := by
  simpa [visible] using blank

private theorem not_blank_of_head? {text : List Char} {c : Char}
    (first : (text.dropWhile isBlank).head? = some c) : isBlank c = false := by
  have none := List.head?_dropWhile_not isBlank text
  rwa [first] at none

/-- Only blanks are dropped from the end of a text. -/
theorem exists_trimEnd (text : List Char) :
    ∃ blanks, text = trimEnd text ++ blanks ∧ ∀ c ∈ blanks, isBlank c = true := by
  refine ⟨(text.reverse.takeWhile isBlank).reverse, ?_, ?_⟩
  · rw [trimEnd, ← List.reverse_append, List.takeWhile_append_dropWhile, List.reverse_reverse]
  · intro c member
    exact List.mem_takeWhile_imp (List.mem_reverse.mp member)

/-- A visible character in front stays when blanks at the end are dropped. -/
theorem trimEnd_cons {c : Char} {text : List Char} (visible : isBlank c = false) :
    trimEnd (c :: text) = c :: trimEnd text := by
  rw [trimEnd, List.reverse_cons, List.dropWhile_append]
  split
  · rename_i empty
    rw [trimEnd, List.isEmpty_iff.mp empty, List.dropWhile_cons_of_neg (by simp [visible])]
    rfl
  · rw [List.reverse_append]
    rfl

/-- Only blanks are dropped from around a text. -/
theorem exists_trim (text : List Char) :
    ∃ before behind, text = before ++ (trim text ++ behind) ∧ (∀ c ∈ before, isBlank c = true) ∧
      ∀ c ∈ behind, isBlank c = true := by
  obtain ⟨behind, split, blank⟩ := exists_trimEnd (trimStart text)
  refine ⟨text.takeWhile isBlank, behind, ?_, fun c => List.mem_takeWhile_imp, blank⟩
  rw [trim, ← split, trimStart, List.takeWhile_append_dropWhile]

/-- Trimming keeps what is visible. -/
theorem visible_trim (text : List Char) : visible (trim text) = visible text := by
  obtain ⟨before, behind, split, blankBefore, blankBehind⟩ := exists_trim text
  calc visible (trim text)
      = visible before ++ (visible (trim text) ++ visible behind) := by
        rw [visible_of_blank blankBefore, visible_of_blank blankBehind, List.nil_append,
          List.append_nil]
    _ = visible text := by rw [← visible_append, ← visible_append, ← split]

/-- The text has a visible character. -/
def HasVisible (text : List Char) : Prop :=
  ∃ c ∈ text, isBlank c = false

/-- A text is not blank exactly if it has a visible character. -/
theorem isBlankText_eq_false {text : List Char} : isBlankText text = false ↔ HasVisible text := by
  simp [isBlankText, HasVisible]

private theorem visible_ne_nil {text : List Char} : visible text ≠ [] ↔ HasVisible text := by
  simp [visible, HasVisible]

/-- What is left of a text when it is trimmed has a visible character, if it is anything at all. -/
theorem hasVisible_trim {text : List Char} (left : trim text ≠ []) : HasVisible (trim text) := by
  rw [← visible_ne_nil, visible_trim, visible_ne_nil, ← isBlankText_eq_false]
  by_contra blank
  apply left
  rw [trim, trimStart, List.dropWhile_eq_nil_iff.mpr (by simpa [isBlankText] using blank)]
  rfl

end Text

variable {text : List Char}

/-- The text begins with a visible character. -/
def BeginsVisibly (text : List Char) : Prop :=
  ∃ c ∈ text.head?, Text.isBlank c = false

/-- A text with a visible beginning keeps it whatever follows. -/
theorem BeginsVisibly.append_right (begins : BeginsVisibly text) (more : List Char) :
    BeginsVisibly (text ++ more) := by
  obtain ⟨c, member, visible⟩ := begins
  refine ⟨c, ?_, visible⟩
  rw [List.head?_append, show text.head? = some c from member]
  rfl

/-- The text ends with a visible character. -/
def EndsVisibly (text : List Char) : Prop :=
  ∃ c ∈ text.getLast?, Text.isBlank c = false

/-- A text with a visible end keeps it whatever stands before. -/
theorem EndsVisibly.append_left (ends : EndsVisibly text) (first : List Char) :
    EndsVisibly (first ++ text) := by
  obtain ⟨c, member, visible⟩ := ends
  refine ⟨c, ?_, visible⟩
  rw [List.getLast?_append, show text.getLast? = some c from member]
  rfl

/-- A text with a visible character added ends visibly. -/
theorem endsVisibly_concat {c : Char} (visible : Text.isBlank c = false) (first : List Char) :
    EndsVisibly (first ++ [c]) :=
  ⟨c, List.getLast?_concat, visible⟩

/-- Trimming takes away the blanks around a text that begins and ends visibly. -/
theorem trim_surrounded {lead trail : List Char} (leading : ∀ c ∈ lead, Text.isBlank c = true)
    (trailing : ∀ c ∈ trail, Text.isBlank c = true)
    (begins : ∀ c ∈ text.head?, Text.isBlank c = false) (ends : text = [] ∨ EndsVisibly text) :
    Text.trim (lead ++ (text ++ trail)) = text := by
  rcases ends with rfl | ⟨c, final, visible⟩
  · rw [List.nil_append, Text.trim, Text.trimStart,
      List.dropWhile_eq_nil_iff.mpr (List.forall_mem_append.mpr ⟨leading, trailing⟩)]
    rfl
  · have start : Text.trimStart (lead ++ (text ++ trail)) = text ++ trail := by
      rw [Text.trimStart, List.dropWhile_append_of_pos leading]
      cases text with
      | nil => cases final
      | cons first rest => exact List.dropWhile_cons_of_neg (by simp [begins first rfl])
    obtain ⟨front, rfl⟩ := List.getLast?_eq_some_iff.mp final
    rw [Text.trim, start, Text.trimEnd, List.reverse_append, List.dropWhile_append_of_pos
      fun d member => trailing d (List.mem_reverse.mp member), List.reverse_concat,
      List.dropWhile_cons_of_neg (by simp [visible]), List.reverse_cons, List.reverse_reverse]

/-- The second text is what the blanks around it leave of the first one. -/
structure Text.Trims (text inner : List Char) : Prop where
  around : ∃ lead trail, text = lead ++ (inner ++ trail) ∧ (∀ c ∈ lead, isBlank c = true) ∧
    ∀ c ∈ trail, isBlank c = true
  begins : ∀ c ∈ inner.head?, isBlank c = false
  ends : ∀ c ∈ inner.getLast?, isBlank c = false

/-- Trimming finds the one text that neither begins nor ends with a blank and has nothing but blanks
around it. -/
theorem Text.trims_iff {inner : List Char} : Trims text inner ↔ inner = trim text := by
  constructor
  · rintro ⟨⟨lead, trail, rfl, leading, trailing⟩, begins, ends⟩
    refine (trim_surrounded leading trailing begins ?_).symm
    cases final : inner.getLast? with
    | none => exact .inl (List.getLast?_eq_none_iff.mp final)
    | some c => exact .inr ⟨c, final, ends c final⟩
  · rintro rfl
    refine ⟨exists_trim text, fun c first => ?_, fun c final => ?_⟩
    · -- The first character is the same as before the blanks at the end were taken away.
      obtain ⟨behind, split, _⟩ := exists_trimEnd (trimStart text)
      refine @not_blank_of_head? text c ?_
      rw [← trimStart, split, List.head?_append, ← trim, show (trim text).head? = some c from first]
      rfl
    · rw [trim, trimEnd, List.getLast?_reverse] at final
      exact not_blank_of_head? final

private theorem trimStart_append (begins : BeginsVisibly text) (front : List Char) :
    Text.trimStart (front ++ text) = Text.trimStart front ++ text := by
  obtain ⟨c, first, visible⟩ := begins
  have kept : text.dropWhile Text.isBlank = text := by
    cases text with
    | nil => cases first
    | cons d rest =>
        obtain rfl : d = c := Option.some.inj first
        exact List.dropWhile_cons_of_neg (by simp [visible])
  rw [Text.trimStart, List.dropWhile_append, kept]
  split
  · rename_i blank
    rw [Text.trimStart, List.isEmpty_iff.mp blank, List.nil_append]
  · rfl

private theorem trimEnd_append (ends : EndsVisibly text) (back : List Char) :
    Text.trimEnd (text ++ back) = text ++ Text.trimEnd back := by
  obtain ⟨c, final, visible⟩ := ends
  have begins : BeginsVisibly text.reverse := ⟨c, by rwa [List.head?_reverse], visible⟩
  have kept := trimStart_append begins back.reverse
  rw [Text.trimStart, Text.trimStart] at kept
  rw [Text.trimEnd, Text.trimEnd, List.reverse_append, kept, List.reverse_append,
    List.reverse_reverse]

/-- Trimming keeps a text that begins and ends visibly, whatever is around it. -/
theorem trim_append_append (begins : BeginsVisibly text) (ends : EndsVisibly text)
    (front back : List Char) :
    Text.trim (front ++ (text ++ back)) = Text.trimStart front ++ (text ++ Text.trimEnd back) := by
  rw [Text.trim, trimStart_append (begins.append_right back), ← List.append_assoc,
    trimEnd_append (ends.append_left _), List.append_assoc]

end SheetFormula
