import SheetFormula.Mapping.Json
import SheetFormula.Proofs.Mapping.Columns
import SheetFormula.Proofs.Text.Visible

/-!
# Blank values in mapping tables

The cells of a table of records are trimmed, and blank ones count as absent, so the mappings of such
a table hold no blank text.  A table written in JSON is only asked for fields and locations that are
not blank: other texts are taken as they are, and a blank identifier is bound as it stands
(`loaded_filled`).
-/

namespace SheetFormula.Mapping

variable {mapping : Mapping} {mappings : List Mapping}

/-- No text of the mapping is blank. -/
structure IsFilled (mapping : Mapping) : Prop where
  field : Text.HasVisible mapping.field
  location : Text.HasVisible mapping.location
  name : ∀ name, mapping.name = some name → Text.HasVisible name
  letName : ∀ letName, mapping.letName = some letName → Text.HasVisible letName

/-- The identifier of a mapping is blank only if it is given as a blank text. -/
theorem hasVisible_identifier :
    Text.HasVisible mapping.identifier ↔
      ∀ letName, mapping.letName = some letName → Text.HasVisible letName := by
  unfold identifier
  cases given : mapping.letName with
  | some letName => simp
  | none => simpa using ⟨'_', List.mem_cons_self, rfl⟩

section Records

variable {headers record : List (List Char)}

private theorem hasVisible_of_under? {wanted : String} {value : List Char}
    (found : under? headers record wanted = some value) : Text.HasVisible value := by
  obtain ⟨place, _, held⟩ := Option.bind_eq_some_iff.mp found
  obtain ⟨cell, _, rfl, filled⟩ := cell?_eq_some.mp held
  exact Text.hasVisible_trim filled

private theorem Reads.isFilled (reads : Reads headers record mapping) : mapping.IsFilled := by
  refine ⟨hasVisible_of_under? reads.field, hasVisible_of_under? reads.location, ?_, ?_⟩
  · intro text given
    exact hasVisible_of_under? (reads.name.trans given)
  · intro text given
    exact hasVisible_of_under? (reads.letName.trans given)

private theorem isFilled_of_ofRecords {records : List (List (List Char))}
    (read : ofRecords records = .ok mappings) : ∀ mapping ∈ mappings, mapping.IsFilled := by
  obtain ⟨columns, named, rows⟩ := bind_eq_ok.mp read
  have filled := ((ofRows_eq_ok named).mp rows).flip.imp fun mapping record reads =>
    And.intro reads.isFilled reads
  exact ((List.forall₂_and_left ..).mp filled).1

end Records

section Json

/-- The item gives the text for the part of a mapping that has the given key in an object and the
given place in an array. -/
def Gives (item : Json) (key : String) (place : Nat) (text : List Char) : Prop :=
  match item with
  | .object members => (some key.toList, .string (some text)) ∈ members
  | .array items => items[place]? = some (.string (some text))
  | _ => False

/-- The mapping consists of the texts that the item gives. -/
structure IsGiven (item : Json) (mapping : Mapping) : Prop where
  field : Gives item "field" 0 mapping.field
  location : Gives item "location" 1 mapping.location
  name (text : List Char) : mapping.name = some text ↔ Gives item "name" 2 text
  letName (text : List Char) : mapping.letName = some text ↔ Gives item "let_name" 3 text

variable {members : List (Option (List Char) × Json)} {items : List Json} {value : Json}
  {held : Option (List Char)} {text : List Char} {key : String} {place : Nat}

private theorem textValue_eq_ok : textValue value = .ok text ↔ value = .string (some text) := by
  fun_cases textValue value <;> simp_all

private theorem optionalValue_eq_some (read : optionalValue value = .ok held) :
    held = some text ↔ value = .string (some text) := by
  unfold optionalValue at read
  split at read
  · cases read
    simp
  · cases given : textValue value with
    | error _ =>
        rw [given] at read
        cases read
    | ok own =>
        rw [given] at read
        cases read
        rw [textValue_eq_ok.mp given]
        simp

private theorem mem_valuesOf :
    value ∈ valuesOf members key ↔ (some key.toList, value) ∈ members := by
  simp [valuesOf]

private theorem mem_of_value? {found : Option Json} (read : value? members key = .ok found) :
    (some key.toList, value) ∈ members ↔ found = some value := by
  rw [← mem_valuesOf]
  unfold value? at read
  split at read
  · rename_i none
    cases read
    simp [none]
  · rename_i only one
    cases read
    simp [one, eq_comm]
  · cases read

private theorem mem_of_requiredMember (read : requiredMember members key = .ok text) :
    (some key.toList, .string (some text)) ∈ members := by
  obtain ⟨found, only, given⟩ := bind_eq_ok.mp read
  rw [mem_of_value? only]
  cases found with
  | none => cases given
  | some value => exact congrArg some (textValue_eq_ok.mp given)

private theorem mem_of_optionalMember (read : optionalMember members key = .ok held) :
    held = some text ↔ (some key.toList, .string (some text)) ∈ members := by
  obtain ⟨found, only, given⟩ := bind_eq_ok.mp read
  rw [mem_of_value? only]
  cases found with
  | none =>
      cases given
      simp
  | some value => rw [optionalValue_eq_some given, Option.some.injEq]

private theorem isGiven_of_ofMembers (read : ofMembers members = .ok mapping) :
    IsGiven (.object members) mapping := by
  unfold ofMembers at read
  split at read
  · cases read
  · simp only [bind_eq_ok, pure_eq_ok] at read
    obtain ⟨_, field, _, location, _, name, _, letName, rfl⟩ := read
    exact ⟨mem_of_requiredMember field, mem_of_requiredMember location,
      fun _ => mem_of_optionalMember name, fun _ => mem_of_optionalMember letName⟩

private theorem isGiven_of_ofItems (read : ofItems items = .ok mapping) :
    IsGiven (.array items) mapping := by
  unfold ofItems at read
  split at read
  · simp only [bind_eq_ok, pure_eq_ok, textValue_eq_ok] at read
    obtain ⟨_, rfl, _, rfl, rfl⟩ := read
    exact ⟨rfl, rfl, fun _ => by simp [Gives], fun _ => by simp [Gives]⟩
  · simp only [bind_eq_ok, pure_eq_ok, textValue_eq_ok] at read
    obtain ⟨_, rfl, _, rfl, _, name, rfl⟩ := read
    exact ⟨rfl, rfl, fun _ => by simpa [Gives] using optionalValue_eq_some name,
      fun _ => by simp [Gives]⟩
  · simp only [bind_eq_ok, pure_eq_ok, textValue_eq_ok] at read
    obtain ⟨_, rfl, _, rfl, _, name, _, letName, rfl⟩ := read
    exact ⟨rfl, rfl, fun _ => by simpa [Gives] using optionalValue_eq_some name,
      fun _ => by simpa [Gives] using optionalValue_eq_some letName⟩
  · cases read

private theorem isGiven_of_ofJsonValue (read : ofJsonValue value = .ok mapping) :
    IsGiven value mapping := by
  unfold ofJsonValue at read
  split at read
  · exact isGiven_of_ofMembers read
  · exact isGiven_of_ofItems read
  · cases read

private theorem forall₂_of_mapM (read : items.mapM ofJsonValue = .ok mappings) :
    List.Forall₂ IsGiven items mappings := by
  induction items generalizing mappings with
  | nil =>
      cases read
      exact .nil
  | cons item rest ih =>
      rw [List.mapM_cons] at read
      simp only [bind_eq_ok, pure_eq_ok] at read
      obtain ⟨mapping, own, others, readOthers, rfl⟩ := read
      exact .cons (isGiven_of_ofJsonValue own) (ih readOthers)

private theorem requireFilled_eq_ok {row : Nat} :
    requireFilled row mappings = .ok () ↔
      ∀ mapping ∈ mappings, Text.HasVisible mapping.field ∧ Text.HasVisible mapping.location := by
  induction mappings generalizing row with
  | nil => simp [requireFilled]
  | cons mapping rest ih =>
      rw [requireFilled, List.forall_mem_cons]
      by_cases field : Text.isBlankText mapping.field = true
      · rw [if_pos field]
        simp [← Text.isBlankText_eq_false, field]
      · rw [if_neg field]
        by_cases location : Text.isBlankText mapping.location = true
        · rw [if_pos location]
          simp [← Text.isBlankText_eq_false, location]
        · rw [if_neg location, ih, ← Text.isBlankText_eq_false, ← Text.isBlankText_eq_false]
          simp [field, location]

private theorem given_of_ofJson (read : ofJson text = .ok mappings) :
    ∃ items, Json.parse? text = some (.array items) ∧ List.Forall₂ IsGiven items mappings ∧
      ∀ mapping ∈ mappings, Text.HasVisible mapping.field ∧ Text.HasVisible mapping.location := by
  unfold ofJson at read
  split at read
  · rename_i items parsed
    simp only [bind_eq_ok, pure_eq_ok] at read
    obtain ⟨_, given, _, filled, rfl⟩ := read
    exact ⟨items, parsed, forall₂_of_mapM given, requireFilled_eq_ok.mp filled⟩
  · cases read

/-- A mapping is filled if and only if the item that it is read from gives no blank text for its
name or its identifier. -/
theorem IsGiven.isFilled_iff (given : IsGiven value mapping)
    (field : Text.HasVisible mapping.field) (location : Text.HasVisible mapping.location) :
    mapping.IsFilled ↔
      (∀ text, Gives value "name" 2 text → Text.HasVisible text) ∧
        ∀ text, Gives value "let_name" 3 text → Text.HasVisible text := by
  simp only [← given.name, ← given.letName]
  constructor
  · intro filled
    exact ⟨filled.name, filled.letName⟩
  · rintro ⟨name, letName⟩
    exact ⟨field, location, name, letName⟩

end Json

/-- The mappings of a table of records hold no blank text, and their identifiers have a visible
character.  The mappings of a table written in JSON consist of the texts that the items give, of
which the field and the location are not blank.  Such a mapping holds no blank text if and only if
none is given for its name and its identifier, and it binds a blank identifier if and only if that
is given. -/
theorem loaded_filled (text : List Char) (mappings : List Mapping) :
    (ofCsv text = .ok mappings →
      ∀ mapping ∈ mappings, mapping.IsFilled ∧ Text.HasVisible mapping.identifier) ∧
    (ofJson text = .ok mappings →
      ∃ items, Json.parse? text = some (.array items) ∧
        List.Forall₂ (fun item mapping =>
          IsGiven item mapping ∧
          Text.HasVisible mapping.field ∧ Text.HasVisible mapping.location ∧
          (mapping.IsFilled ↔
            (∀ given, Gives item "name" 2 given → Text.HasVisible given) ∧
              ∀ given, Gives item "let_name" 3 given → Text.HasVisible given) ∧
          (Text.HasVisible mapping.identifier ↔
            ∀ given, Gives item "let_name" 3 given → Text.HasVisible given)) items mappings) := by
  constructor
  · intro read mapping member
    have filled := isFilled_of_ofRecords read mapping member
    exact ⟨filled, hasVisible_identifier.mpr filled.letName⟩
  · intro read
    obtain ⟨items, parsed, given, filled⟩ := given_of_ofJson read
    refine ⟨items, parsed, ?_⟩
    -- The check runs over the mappings after all items are read, so the two facts are paired here.
    have both := (List.forall₂_and_left ..).mpr ⟨filled, given.flip⟩
    refine both.flip.imp fun item mapping own => ?_
    obtain ⟨⟨field, location⟩, isGiven⟩ := own
    refine ⟨isGiven, field, location, isGiven.isFilled_iff field location, ?_⟩
    simp only [hasVisible_identifier, isGiven.letName]

/-- A blank name is passed over in a record and kept in JSON, where the identifier made from it is
an underscore. -/
theorem loaded_filled_blank_name :
    (∃ mapping, ofCsv "field,location,name\nA,B:B, \n".toList = .ok [mapping] ∧
      mapping.IsFilled ∧ Text.HasVisible mapping.identifier) ∧
    ∃ mapping, ofJson "[[\"A\",\"B:B\",\" \"]]".toList = .ok [mapping] ∧
      ¬mapping.IsFilled ∧ Text.HasVisible mapping.identifier := by
  constructor
  · have read : ofCsv "field,location,name\nA,B:B, \n".toList =
        .ok [⟨"A".toList, "B:B".toList, none, none⟩] := by
      decide +kernel
    exact ⟨_, read, (loaded_filled _ _).1 read _ List.mem_cons_self⟩
  · have read : ofJson "[[\"A\",\"B:B\",\" \"]]".toList =
        .ok [⟨"A".toList, "B:B".toList, some " ".toList, none⟩] := by
      decide +kernel
    obtain ⟨items, _, own⟩ := (loaded_filled _ _).2 read
    obtain ⟨item, _, ⟨given, _, _, filled, identifier⟩, _⟩ := List.forall₂_cons_right_iff.mp own
    refine ⟨_, read, fun isFilled => ?_, identifier.mpr fun text isLetName => ?_⟩
    · obtain ⟨c, member, visible⟩ := (filled.mp isFilled).1 _ ((given.name _).mp rfl)
      cases List.mem_singleton.mp member
      cases visible
    · cases (given.letName text).mpr isLetName

/-- A blank identifier is accepted and bound. -/
theorem ofJson_blank_identifier :
    ∃ mapping, ofJson
        "[\x7b\"field\":\"A\",\"location\":\"B:B\",\"let_name\":\" \"\x7d]".toList =
        .ok [mapping] ∧
      ¬mapping.IsFilled ∧ ¬Text.HasVisible mapping.identifier := by
  refine ⟨⟨"A".toList, "B:B".toList, none, some " ".toList⟩, by decide +kernel, ?_⟩
  have blank : ¬Text.HasVisible " ".toList := by
    rw [← Text.isBlankText_eq_false]
    decide
  exact ⟨fun filled => blank (filled.letName _ rfl), blank⟩

end SheetFormula.Mapping
