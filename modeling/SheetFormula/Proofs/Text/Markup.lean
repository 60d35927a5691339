import SheetFormula.Proofs.Text.Visible
import SheetFormula.Text.Escape
import SheetFormula.Text.Search

/-!
# The text that markup shows

Markup shows a text: its tags are invisible and its entities stand for characters (`plainText`).
`Shows` relates markup to the text it shows piece by piece, so that it composes along `++`; escaped
text shows the text itself (`shows_markup`).

Trimming markup is not the same as trimming the text that it shows, since a hard space is no blank.
Where the two begin and end alike, the trimmed markup shows the trimmed text, behind the hard spaces
that markup keeps (`plainText_trim`).
-/

namespace SheetFormula.Text

variable {markup shown first second : List Char} {c : Char}

/-- The text outside of tags, with the first characters inside a tag or not. -/
def untagFrom : (inside : Bool) → List Char → List Char
  | _, [] => []
  | true, c :: rest => untagFrom (c != '>') rest
  | false, c :: rest => if c = '<' then untagFrom true rest else c :: untagFrom false rest

/-- The markup without its tags. -/
def untagged (markup : List Char) : List Char :=
  untagFrom false markup

/-- The entities and the characters that they stand for. -/
def entities : List (List Char × Char) :=
  [("&amp;".toList, '&'), ("&lt;".toList, '<'), ("&gt;".toList, '>'), ("&quot;".toList, '"'),
    ("&#39;".toList, '\''), ("&nbsp;".toList, ' ')]

/-- The entity with which the text begins. -/
def entity? (text : List Char) : Option (List Char × Char) :=
  entities.find? fun entity => entity.1.isPrefixOf text

/-- Decode the entities of a text, after so many characters of an entity already decoded. -/
def decodeFrom : (pending : Nat) → List Char → List Char
  | _, [] => []
  | pending + 1, _ :: rest => decodeFrom pending rest
  | 0, c :: rest =>
      match entity? (c :: rest) with
      | some (written, character) => character :: decodeFrom (written.length - 1) rest
      | none => c :: decodeFrom 0 rest

/-- The text with its entities decoded, in one pass from left to right. -/
def decoded (text : List Char) : List Char :=
  decodeFrom 0 text

/-- The text that markup shows: the tags are deleted, then the entities are decoded. -/
def plainText (markup : List Char) : List Char :=
  decoded (untagged markup)

private theorem untagFrom_tag {name : List Char} (closed : '>' ∉ name) (rest : List Char) :
    untagFrom true (name ++ '>' :: rest) = untagFrom false rest := by
  induction name with
  | nil => rfl
  | cons c name ih =>
      obtain ⟨other, closed⟩ := not_or.mp (List.mem_cons.not.mp closed)
      rw [List.cons_append, untagFrom, bne_iff_ne.mpr (Ne.symm other), ih closed]

/-- A character that begins no tag stays. -/
theorem untagged_cons (plain : c ≠ '<') (rest : List Char) :
    untagged (c :: rest) = c :: untagged rest :=
  if_neg plain

/-- Every entity begins with an ampersand. -/
theorem decoded_cons (plain : c ≠ '&') (rest : List Char) :
    decoded (c :: rest) = c :: decoded rest := by
  have none : entity? (c :: rest) = none := by
    simp [entity?, entities, List.isPrefixOf, Ne.symm plain]
  rw [decoded, decodeFrom, none, decoded]

private theorem untagged_entity {written : List Char} (entity : (written, c) ∈ entities)
    (rest : List Char) : untagged (written ++ rest) = written ++ untagged rest := by
  simp only [entities, List.mem_cons, List.not_mem_nil, or_false, Prod.mk.injEq] at entity
  rcases entity with ⟨rfl, _⟩ | ⟨rfl, _⟩ | ⟨rfl, _⟩ | ⟨rfl, _⟩ | ⟨rfl, _⟩ | ⟨rfl, _⟩ <;> rfl

private theorem decoded_entity {written : List Char} (entity : (written, c) ∈ entities)
    (rest : List Char) : decoded (written ++ rest) = c :: decoded rest := by
  simp only [entities, List.mem_cons, List.not_mem_nil, or_false, Prod.mk.injEq] at entity
  rcases entity with ⟨rfl, rfl⟩ | ⟨rfl, rfl⟩ | ⟨rfl, rfl⟩ | ⟨rfl, rfl⟩ | ⟨rfl, rfl⟩ | ⟨rfl, rfl⟩ <;>
    rfl

/-- Markup made of whole tags, entities and other characters, and the text that it shows. -/
inductive Shows : List Char → List Char → Prop where
  | nil : Shows [] []
  | tag {name rest shown : List Char} (closed : '>' ∉ name) (after : Shows rest shown) :
      Shows ('<' :: (name ++ '>' :: rest)) shown
  | entity {written rest shown : List Char} {c : Char} (entity : (written, c) ∈ entities)
      (after : Shows rest shown) : Shows (written ++ rest) (c :: shown)
  | char {rest shown : List Char} {c : Char} (plain : c ≠ '<' ∧ c ≠ '&')
      (after : Shows rest shown) : Shows (c :: rest) (c :: shown)

namespace Shows

/-- Two pieces of markup show what each of them shows. -/
theorem append {markup more shown further : List Char} (first : Shows markup shown)
    (second : Shows more further) : Shows (markup ++ more) (shown ++ further) := by
  induction first with
  | nil => exact second
  | tag closed _ ih =>
      rw [List.cons_append, List.append_assoc]
      exact .tag closed ih
  | entity entity _ ih =>
      rw [List.append_assoc]
      exact .entity entity ih
  | char plain _ ih => exact .char plain ih

private theorem plainText_eq (shows : Shows markup shown) : plainText markup = shown := by
  induction shows with
  | nil => rfl
  | @tag name rest _ closed _ ih =>
      have deleted : untagged ('<' :: (name ++ '>' :: rest)) = untagged rest :=
        untagFrom_tag closed rest
      rw [plainText, deleted, ← plainText, ih]
  | entity entity _ ih =>
      rw [plainText, untagged_entity entity, decoded_entity entity, ← plainText, ih]
  | char plain _ ih => rw [plainText, untagged_cons plain.1, decoded_cons plain.2, ← plainText, ih]

private theorem of_plain {text : List Char} (plain : ∀ c ∈ text, c ≠ '<' ∧ c ≠ '&') :
    Shows text text := by
  induction text with
  | nil => exact .nil
  | cons c rest ih =>
      obtain ⟨own, others⟩ := List.forall_mem_cons.mp plain
      exact .char own (ih others)

/-- Blanks show as they are. -/
theorem of_blank {text : List Char} (blank : ∀ c ∈ text, isBlank c = true) : Shows text text := by
  refine of_plain fun c member => ⟨?_, ?_⟩
  · rintro rfl
    cases blank _ member
  · rintro rfl
    cases blank _ member

/-- Markup that is repeated shows its text as often. -/
theorem repeated {unit : List Char} (shows : Shows unit shown) (count : Nat) :
    Shows (Text.repeated count unit) (Text.repeated count shown) := by
  induction count with
  | zero => exact .nil
  | succ count ih => exact shows.append ih

/-- Markup that shows a text with a visible beginning has one itself. -/
theorem beginsVisibly (shows : Shows markup shown) (begins : BeginsVisibly shown) :
    BeginsVisibly markup := by
  cases shows with
  | nil => exact begins
  | tag _ _ => exact ⟨'<', rfl, rfl⟩
  | entity entity _ =>
      refine ⟨'&', ?_, rfl⟩
      simp only [entities, List.mem_cons, List.not_mem_nil, or_false, Prod.mk.injEq] at entity
      rcases entity with ⟨rfl, _⟩ | ⟨rfl, _⟩ | ⟨rfl, _⟩ | ⟨rfl, _⟩ | ⟨rfl, _⟩ | ⟨rfl, _⟩ <;> rfl
  | char _ _ => exact begins

/-- Markup ends with a tag, with an entity or as the text that it shows does. -/
theorem eq_nil_or_endsVisibly (shows : Shows markup shown)
    (ends : shown = [] ∨ EndsVisibly shown) : markup = [] ∨ EndsVisibly markup := by
  have later {c : Char} {text : List Char} (ends : c :: text = [] ∨ EndsVisibly (c :: text)) :
      text = [] ∨ EndsVisibly text := by
    cases text with
    | nil => exact .inl rfl
    | cons d text => exact .inr (ends.resolve_left (List.cons_ne_nil _ _))
  induction shows with
  | nil => exact .inl rfl
  | @tag name rest _ _ _ ih =>
      right
      rcases ih ends with rfl | visible
      · exact endsVisibly_concat rfl ('<' :: name)
      · exact (visible.append_left ['>']).append_left ('<' :: name)
  | @entity written rest _ _ entity _ ih =>
      right
      rcases ih (later ends) with rfl | visible
      · rw [List.append_nil]
        refine ⟨';', ?_, rfl⟩
        simp only [entities, List.mem_cons, List.not_mem_nil, or_false, Prod.mk.injEq] at entity
        rcases entity with ⟨rfl, _⟩ | ⟨rfl, _⟩ | ⟨rfl, _⟩ | ⟨rfl, _⟩ | ⟨rfl, _⟩ | ⟨rfl, _⟩ <;> rfl
      · exact visible.append_left written
  | @char rest _ c _ after ih =>
      right
      rcases ih (later ends) with rfl | visible
      · have own := ends.resolve_left (List.cons_ne_nil _ _)
        rw [← after.plainText_eq] at own
        exact own
      · exact visible.append_left [c]

/-- Markup that shows a text with a visible end has one itself. -/
theorem endsVisibly (shows : Shows markup shown) (ends : EndsVisibly shown) :
    EndsVisibly markup := by
  rcases shows.eq_nil_or_endsVisibly (.inr ends) with rfl | visible
  · rw [← shows.plainText_eq] at ends
    exact ends
  · exact visible

end Shows

/-- Escaped text shows the text. -/
theorem shows_markup (text : List Char) : Shows (Text.markup text) text := by
  induction text with
  | nil => exact .nil
  | cons c rest ih =>
      rw [Text.markup, List.flatMap_cons, ← Text.markup, markupChar]
      split_ifs with ampersand less greater quote apostrophe
      · exact ampersand ▸ .entity (by simp [entities]) ih
      · exact less ▸ .entity (by simp [entities]) ih
      · exact greater ▸ .entity (by simp [entities]) ih
      · exact quote ▸ .entity (by simp [entities]) ih
      · exact apostrophe ▸ .entity (by simp [entities]) ih
      · exact .char ⟨less, ampersand⟩ ih

private theorem plainText_append_of_blank {lead : List Char} (blank : ∀ c ∈ lead, isBlank c = true)
    (rest : List Char) : plainText (lead ++ rest) = lead ++ plainText rest := by
  induction lead with
  | nil => rfl
  | cons c lead ih =>
      obtain ⟨own, others⟩ := List.forall_mem_cons.mp blank
      have tagless : c ≠ '<' := by
        rintro rfl
        cases own
      have plain : c ≠ '&' := by
        rintro rfl
        cases own
      rw [List.cons_append, plainText, untagged_cons tagless, decoded_cons plain, ← plainText,
        ih others, List.cons_append]

/-- Markup and the text that it shows end with the same blanks: either there is nothing else, or
both have a visible character before them. -/
inductive EndsAlike : List Char → List Char → Prop where
  | blank {trail : List Char} (blank : ∀ c ∈ trail, isBlank c = true) : EndsAlike trail trail
  | visible {markup shown trail : List Char} (shows : Shows markup shown)
      (ends : EndsVisibly markup) (shownEnds : EndsVisibly shown)
      (blank : ∀ c ∈ trail, isBlank c = true) : EndsAlike (markup ++ trail) (shown ++ trail)

namespace EndsAlike

private theorem shows (alike : EndsAlike markup shown) : Shows markup shown := by
  cases alike with
  | blank blank => exact .of_blank blank
  | visible shows _ _ blank => exact shows.append (.of_blank blank)

/-- Markup and text still end alike with the same blanks behind both. -/
theorem append_blank (alike : EndsAlike markup shown) {trail : List Char}
    (blank : ∀ c ∈ trail, isBlank c = true) : EndsAlike (markup ++ trail) (shown ++ trail) := by
  cases alike with
  | blank before => exact .blank (List.forall_mem_append.mpr ⟨before, blank⟩)
  | visible shows ends shownEnds before =>
      rw [List.append_assoc, List.append_assoc]
      exact .visible shows ends shownEnds (List.forall_mem_append.mpr ⟨before, blank⟩)

/-- Markup and text that end alike may follow others that do. -/
theorem append {more further : List Char} (alike : EndsAlike markup shown)
    (after : EndsAlike more further) : EndsAlike (markup ++ more) (shown ++ further) := by
  cases after with
  | blank blank => exact alike.append_blank blank
  | visible shows ends shownEnds blank =>
      rw [← List.append_assoc, ← List.append_assoc]
      exact .visible (alike.shows.append shows) (ends.append_left _) (shownEnds.append_left _) blank

/-- Markup and text that end alike are only empty together. -/
theorem eq_nil_iff (alike : EndsAlike markup shown) : markup = [] ↔ shown = [] := by
  have present {text trail : List Char} (ends : EndsVisibly text) : text ++ trail ≠ [] := by
    rintro empty
    obtain ⟨c, member, _⟩ := ends
    rw [(List.append_eq_nil_iff.mp empty).1] at member
    cases member
  cases alike with
  | blank _ => rfl
  | visible _ ends shownEnds _ => simp only [present ends, present shownEnds]

end EndsAlike

/-- Markup and the text that it shows begin with the same blanks, and after these the text has extra
spaces where the markup has something visible. -/
def BeginsAlike (extra : Nat) (markup shown : List Char) : Prop :=
  ∃ lead front shownFront, markup = lead ++ front ∧
    shown = lead ++ (List.replicate extra ' ' ++ shownFront) ∧
    (∀ c ∈ lead, isBlank c = true) ∧ BeginsVisibly front ∧ BeginsVisibly shownFront

/-- Markup and text begin alike whatever follows them. -/
theorem BeginsAlike.append_right {extra : Nat} (alike : BeginsAlike extra markup shown)
    (more further : List Char) : BeginsAlike extra (markup ++ more) (shown ++ further) := by
  obtain ⟨lead, front, shownFront, rfl, rfl, blank, begins, shownBegins⟩ := alike
  refine ⟨lead, front ++ more, shownFront ++ further, ?_, ?_, blank, begins.append_right more,
    shownBegins.append_right further⟩
  · rw [List.append_assoc]
  · rw [List.append_assoc, List.append_assoc]

/-- A text between blanks that begins and ends visibly is what trimming leaves. -/
theorem eq_append_trim {lead front text trail : List Char}
    (leading : ∀ c ∈ lead, isBlank c = true) (begins : BeginsVisibly front)
    (ends : EndsVisibly text) (trailing : ∀ c ∈ trail, isBlank c = true)
    (same : lead ++ front = text ++ trail) : text = lead ++ trim (lead ++ front) := by
  obtain ⟨c, member, visible⟩ := begins
  have hidden {gap : List Char} (within : trail = gap ++ front) : False := by
    rw [trailing c (within ▸ List.mem_append_right gap (List.mem_of_mem_head? member))] at visible
    cases visible
  rcases List.append_eq_append_iff.mp same with ⟨body, rfl, rfl⟩ | ⟨gap, _, within⟩
  · cases body with
    | nil => exact (hidden (List.nil_append trail).symm).elim
    | cons first rest =>
        obtain rfl : first = c := Option.some.inj member
        obtain ⟨d, final, seen⟩ := ends
        rw [List.getLast?_append, List.getLast?_cons, Option.some_or, ← List.getLast?_cons] at final
        rw [trim_surrounded leading trailing (by simpa using visible) (.inr ⟨d, final, seen⟩)]
  · exact (hidden within).elim

/-- Trimmed markup shows the trimmed text behind the extra spaces. -/
theorem plainText_trim {extra : Nat} (ends : EndsAlike markup shown)
    (begins : BeginsAlike extra markup shown) :
    plainText (trim markup) = List.replicate extra ' ' ++ trim shown := by
  obtain ⟨lead, front, shownFront, split, shownSplit, leading, begins, shownBegins⟩ := begins
  cases ends with
  | blank blank =>
      obtain ⟨c, member, visible⟩ := begins
      rw [blank c (split ▸ List.mem_append_right lead (List.mem_of_mem_head? member))] at visible
      cases visible
  | @visible text shownText trail shows ends shownEnds trailing =>
      have spaces : ∀ c ∈ lead ++ List.replicate extra ' ', isBlank c = true := by
        refine List.forall_mem_append.mpr ⟨leading, fun c member => ?_⟩
        obtain rfl := List.eq_of_mem_replicate member
        rfl
      rw [← List.append_assoc] at shownSplit
      have whole := eq_append_trim leading begins ends trailing split.symm
      have shownWhole := eq_append_trim spaces shownBegins shownEnds trailing shownSplit.symm
      rw [← split] at whole
      rw [← shownSplit, List.append_assoc] at shownWhole
      have same : lead ++ plainText (trim (text ++ trail)) =
          lead ++ (List.replicate extra ' ' ++ trim (shownText ++ trail)) := by
        rw [← plainText_append_of_blank leading, ← whole, shows.plainText_eq, ← shownWhole]
      exact List.append_cancel_left same

end SheetFormula.Text
