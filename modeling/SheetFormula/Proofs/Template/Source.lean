import SheetFormula.Proofs.Text.Search
import SheetFormula.Template
import Mathlib.Data.List.Infix

/-!
# Templates and their sources

Two placeholders in a text are the same one or lie apart (`Placeholder.apart`): no part of one is
the beginning of another.  So the texts around the placeholders of a template cannot join them into
another reading, and the parts of a source are found where they were put.  Reading and writing
templates are therefore inverse to each other (`Template.parse_iff_display`).
-/

namespace SheetFormula

namespace Placeholder

variable {first second : Placeholder} {gap back left right : List Char}

/-- A placeholder begins with two braces, and no later part of it does so or is a brace alone. -/
theorem not_opening_of_mem_tails (placeholder : Placeholder) :
    ∀ part ∈ placeholder.text.tail.tails, part ≠ [] → ¬ part.take 2 <+: ['\x7b', '\x7b'] := by
  cases placeholder <;> decide

private theorem append_ne_of_suffix {part : List Char} (suffix : part <:+ first.text.tail)
    (some : part ≠ []) : part ++ back ≠ second.text ++ right := by
  intro same
  have opening : part.take 2 ++ back.take (2 - part.length) = ['\x7b', '\x7b'] := by
    rw [← List.take_append, same]
    rfl
  exact first.not_opening_of_mem_tails part ((List.mem_tails _ _).mpr suffix) some ⟨_, opening⟩

private theorem eq_of_append_eq (same : first.text ++ back = second.text ++ right) :
    first = second ∧ back = right := by
  have eq : first = second := by
    cases first <;> cases second <;> simp [text, word] at same ⊢
  subst eq
  exact ⟨rfl, List.append_cancel_left same⟩

/-- A placeholder that begins not behind another one is that one or ends before it. -/
theorem apart (same : first.text ++ back = gap ++ (second.text ++ right)) :
    (gap = [] ∧ first = second ∧ back = right) ∨ ∃ middle, gap = first.text ++ middle := by
  rcases List.append_eq_append_iff.mp same with ⟨middle, ends, -⟩ | ⟨part, split, behind⟩
  · exact .inr ⟨middle, ends⟩
  · cases gap with
    | nil =>
        obtain ⟨eq, rest⟩ := eq_of_append_eq same
        exact .inl ⟨rfl, eq, rest⟩
    | cons c gap =>
        by_cases whole : part = []
        · subst whole
          exact .inr ⟨[], by rw [List.append_nil, split, List.append_nil]⟩
        · have suffix : part <:+ first.text.tail := ⟨gap, by rw [split]; rfl⟩
          exact absurd behind.symm (append_ne_of_suffix suffix whole)

/-- A placeholder around another one is in the text before it, in the text behind it or the same. -/
theorem occurrence_cases {front : List Char}
    (same : front ++ (first.text ++ back) = left ++ (second.text ++ right)) :
    first.text <:+: left ∨ (front = left ∧ first = second ∧ back = right) ∨
      (first.text <:+: right ∧ left.length ≤ front.length) := by
  rcases List.append_eq_append_iff.mp same with ⟨gap, rfl, ends⟩ | ⟨gap, rfl, ends⟩
  · rcases apart ends with ⟨rfl, eq, rest⟩ | ⟨middle, rfl⟩
    · exact .inr (.inl ⟨(List.append_nil _).symm, eq, rest⟩)
    · exact .inl ⟨front, middle, by rw [List.append_assoc]⟩
  · rcases apart ends with ⟨rfl, eq, rest⟩ | ⟨middle, rfl⟩
    · exact .inr (.inl ⟨List.append_nil _, eq.symm, rest.symm⟩)
    · rw [List.append_assoc, List.append_cancel_left_eq] at ends
      exact .inr (.inr ⟨⟨middle, back, by rw [ends, List.append_assoc]⟩, by simp⟩)

/-- A placeholder is around another one only if it is in the text before or behind it. -/
theorem not_infix_append (other : first ≠ second) (before : ¬ first.text <:+: left)
    (behind : ¬ first.text <:+: right) : ¬ first.text <:+: left ++ (second.text ++ right) := by
  rintro ⟨front, back, same⟩
  rw [List.append_assoc] at same
  rcases occurrence_cases same with inside | ⟨-, eq, -⟩ | ⟨inside, -⟩
  · exact before inside
  · exact other eq
  · exact behind inside

private theorem not_infix_nil (placeholder : Placeholder) : ¬ placeholder.text <:+: [] := by
  simp [text]

end Placeholder

namespace Template

/-- A template that a source can describe: its texts have no placeholder in them, and there is no
second text if there is no token before it. -/
structure IsNormal (template : Template) : Prop where
  before : ∀ placeholder : Placeholder, ¬ placeholder.text <:+: template.before
  after : ∀ placeholder : Placeholder, ¬ placeholder.text <:+: template.after
  alone : template.token = false → template.after = []

variable {source text rest : List Char} {template : Template} {flag : Bool}

private theorem fault?_eq_none_iff :
    fault? text = none ↔ ∀ placeholder : Placeholder, ¬ placeholder.text <:+: text := by
  rw [fault?]
  split
  · rename_i repeated
    simp only [reduceCtorEq, false_iff, not_forall, not_not]
    exact ⟨.token, Text.contains_eq_true_iff.mp repeated⟩
  · rename_i single
    rw [Text.contains_eq_true_iff] at single
    simp only [Option.map_eq_none_iff, List.find?_eq_none, Text.contains_eq_true_iff]
    constructor
    · intro absent placeholder
      cases placeholder with
      | token => exact single
      | _ => exact absent _ (by simp)
    · exact fun absent placeholder _ => absent placeholder

private theorem takeStart_eq_iff {start : List Char} :
    takeStart start text = (flag, rest) ↔
      text = optional flag start ++ rest ∧ (flag = false → ¬ start <+: text) := by
  rw [takeStart]
  cases found : Text.dropStart? start text with
  | some after =>
      have split := Text.dropStart?_eq_some_iff.mp found
      cases flag with
      | true => simp [optional, split, eq_comm]
      | false => simp [split]
  | none =>
      have absent := Text.dropStart?_eq_none_iff.mp found
      cases flag with
      | true =>
          simp only [Prod.mk.injEq, Bool.false_eq_true, false_and, false_iff]
          rintro ⟨split, -⟩
          exact absent ⟨rest, split.symm⟩
      | false => simp [optional, absent]

private theorem takeEnd_eq_iff {ending : List Char} :
    takeEnd ending text = (flag, rest) ↔
      text = rest ++ optional flag ending ∧ (flag = false → ¬ ending <:+ text) := by
  rw [takeEnd]
  cases found : Text.dropEnd? ending text with
  | some before =>
      have split := Text.dropEnd?_eq_some_iff.mp found
      cases flag with
      | true => simp [optional, split, eq_comm]
      | false => simp [split]
  | none =>
      have absent := Text.dropEnd?_eq_none_iff.mp found
      cases flag with
      | true =>
          simp only [Prod.mk.injEq, Bool.false_eq_true, false_and, false_iff]
          rintro ⟨split, -⟩
          exact absent ⟨rest, split.symm⟩
      | false => simp [optional, absent]

/-- What is left of a source without its placeholders for lines and indentation. -/
def body (template : Template) : List Char :=
  template.before ++ (optional template.token Placeholder.token.text ++ template.after)

private theorem display_eq (template : Template) :
    template.display = optional template.freshLine Placeholder.newline.text ++
      (optional template.indent Placeholder.autoindent.text ++
        (template.body ++ optional template.lineBreak Placeholder.autolinebreak.text)) := by
  simp only [display, body, List.append_assoc]

/-- The parts of a source, in the order in which they are taken off. -/
theorem ofSource_eq {afterNewline afterIndent : List Char}
    (first : takeStart Placeholder.newline.text source = (template.freshLine, afterNewline))
    (second : takeStart Placeholder.autoindent.text afterNewline = (template.indent, afterIndent))
    (third : takeEnd Placeholder.autolinebreak.text afterIndent =
      (template.lineBreak, template.body))
    (last : Text.splitOnce? Placeholder.token.text template.body =
      if template.token then some (template.before, template.after) else none)
    (alone : template.token = false → template.after = []) : ofSource source = template := by
  rw [ofSource, first]
  dsimp only
  rw [second]
  dsimp only
  rw [third]
  dsimp only
  rw [last]
  obtain ⟨freshLine, indent, before, token, after, lineBreak⟩ := template
  cases token with
  | true => rfl
  | false =>
      obtain rfl : after = [] := alone rfl
      simp [body, optional]

/-- Nothing of a source is lost. -/
theorem display_ofSource (source : List Char) :
    (ofSource source).display = source ∧
      ((ofSource source).token = false → (ofSource source).after = []) := by
  obtain ⟨⟨freshLine, afterNewline⟩, first⟩ :
    ∃ parts, takeStart Placeholder.newline.text source = parts := ⟨_, rfl⟩
  obtain ⟨⟨indent, afterIndent⟩, second⟩ :
    ∃ parts, takeStart Placeholder.autoindent.text afterNewline = parts := ⟨_, rfl⟩
  obtain ⟨⟨lineBreak, rest⟩, third⟩ :
    ∃ parts, takeEnd Placeholder.autolinebreak.text afterIndent = parts := ⟨_, rfl⟩
  have whole : source = optional freshLine Placeholder.newline.text ++
      (optional indent Placeholder.autoindent.text ++
        (rest ++ optional lineBreak Placeholder.autolinebreak.text)) := by
    rw [← (takeEnd_eq_iff.mp third).1, ← (takeStart_eq_iff.mp second).1,
      ← (takeStart_eq_iff.mp first).1]
  cases last : Text.splitOnce? Placeholder.token.text rest with
  | some parts =>
      obtain ⟨before, after⟩ := parts
      obtain rfl := (Text.splitOnce?_eq_some_iff.mp last).1
      have read : ofSource source = ⟨freshLine, indent, before, true, after, lineBreak⟩ :=
        ofSource_eq first second third last (by simp)
      rw [read, display_eq]
      exact ⟨whole.symm, by simp⟩
  | none =>
      have lone : rest = body ⟨freshLine, indent, rest, false, [], lineBreak⟩ := by
        simp [body, optional]
      have read : ofSource source = ⟨freshLine, indent, rest, false, [], lineBreak⟩ :=
        ofSource_eq first second (by rw [← lone, third]) (by rw [← lone, last]; rfl) (by simp)
      rw [read, display_eq, ← lone]
      exact ⟨whole.symm, by simp⟩

namespace IsNormal

variable (normal : template.IsNormal)

include normal

private theorem not_infix_body {placeholder : Placeholder} (other : placeholder ≠ .token) :
    ¬ placeholder.text <:+: template.body := by
  rw [body]
  cases token : template.token with
  | true => exact Placeholder.not_infix_append other (normal.before _) (normal.after _)
  | false =>
      rw [normal.alone token]
      simpa [optional] using normal.before placeholder

private theorem not_infix_line {placeholder : Placeholder} (notToken : placeholder ≠ .token)
    (notBreak : placeholder ≠ .autolinebreak) :
    ¬ placeholder.text <:+:
      template.body ++ optional template.lineBreak Placeholder.autolinebreak.text := by
  cases template.lineBreak with
  | true =>
      rw [optional, if_pos rfl, ← List.append_nil Placeholder.autolinebreak.text]
      exact Placeholder.not_infix_append notBreak (normal.not_infix_body notToken)
        placeholder.not_infix_nil
  | false => simpa [optional] using normal.not_infix_body notToken

private theorem not_infix_indented :
    ¬ Placeholder.newline.text <:+: optional template.indent Placeholder.autoindent.text ++
      (template.body ++ optional template.lineBreak Placeholder.autolinebreak.text) := by
  have line : ¬ Placeholder.newline.text <:+:
      template.body ++ optional template.lineBreak Placeholder.autolinebreak.text :=
    normal.not_infix_line (by simp) (by simp)
  cases template.indent with
  | true => exact Placeholder.not_infix_append (by simp) (Placeholder.not_infix_nil _) line
  | false => exact line

private theorem splitOnce?_body :
    Text.splitOnce? Placeholder.token.text template.body =
      if template.token then some (template.before, template.after) else none := by
  cases token : template.token with
  | true =>
      rw [if_pos rfl, Text.splitOnce?_eq_some_iff]
      refine ⟨by simp [body, token, optional], fun front back whole => ?_⟩
      simp only [body, token, optional, if_pos] at whole
      rcases Placeholder.occurrence_cases whole.symm with inside | ⟨rfl, -⟩ | ⟨-, later⟩
      · exact absurd inside (normal.before _)
      · exact Nat.le_refl _
      · exact later
  | false =>
      rw [if_neg Bool.false_ne_true, Text.splitOnce?_eq_none_iff]
      simpa [body, token, optional, normal.alone token] using normal.before .token

/-- The source of a normal template is read as that template. -/
theorem ofSource_display : ofSource template.display = template := by
  rw [display_eq]
  refine ofSource_eq (takeStart_eq_iff.mpr ⟨rfl, fun absent start => ?_⟩)
    (takeStart_eq_iff.mpr ⟨rfl, fun absent start => ?_⟩)
    (takeEnd_eq_iff.mpr ⟨rfl, fun absent ending => ?_⟩) normal.splitOnce?_body normal.alone
  · rw [absent] at start
    exact normal.not_infix_indented start.isInfix
  · rw [absent] at start
    exact normal.not_infix_line (by simp) (by simp) start.isInfix
  · rw [absent, optional, if_neg Bool.false_ne_true, List.append_nil] at ending
    exact normal.not_infix_body (by simp) ending.isInfix

end IsNormal

/-- Reading and writing templates are inverse: a source is read as a template if and only if the
template is normal and written as that source, and every other source is refused. -/
theorem parse_iff_display (source : List Char) :
    (∀ template, parse source = .ok template ↔ template.IsNormal ∧ template.display = source) ∧
      ((∀ template : Template, template.IsNormal → template.display ≠ source) →
        ∃ fault, parse source = .error (.invalidTemplate source fault)) := by
  obtain ⟨written, alone⟩ := display_ofSource source
  rw [parse]
  cases found : (fault? (ofSource source).before).or (fault? (ofSource source).after) with
  | some fault =>
      refine ⟨fun template => ⟨by simp, ?_⟩, fun _ => ⟨fault, rfl⟩⟩
      rintro ⟨normal, rfl⟩
      rw [normal.ofSource_display, fault?_eq_none_iff.mpr normal.before,
        fault?_eq_none_iff.mpr normal.after] at found
      cases found
  | none =>
      obtain ⟨before, after⟩ := Option.or_eq_none_iff.mp found
      have own : (ofSource source).IsNormal :=
        ⟨fault?_eq_none_iff.mp before, fault?_eq_none_iff.mp after, alone⟩
      refine ⟨fun template => ⟨?_, ?_⟩, fun refused => absurd written (refused _ own)⟩
      · intro read
        obtain rfl := Except.ok.inj read
        exact ⟨own, written⟩
      · rintro ⟨normal, rfl⟩
        rw [normal.ofSource_display]

/-- Braces next to a placeholder belong to the texts around it. -/
theorem parse_iff_display_braces :
    IsNormal ⟨true, false, ['\x7b'], true, ['\x7d', '\x7d'], true⟩ ∧
      parse (Placeholder.newline.text ++ ['\x7b'] ++ Placeholder.token.text ++ ['\x7d', '\x7d'] ++
        Placeholder.autolinebreak.text) =
          .ok ⟨true, false, ['\x7b'], true, ['\x7d', '\x7d'], true⟩ := by
  have normal : IsNormal ⟨true, false, ['\x7b'], true, ['\x7d', '\x7d'], true⟩ := by
    constructor
    · intro placeholder
      cases placeholder <;> decide
    · intro placeholder
      cases placeholder <;> decide
    · simp
  exact ⟨normal, ((parse_iff_display _).1 _).mpr ⟨normal, by simp [display, optional]⟩⟩

end Template

end SheetFormula
