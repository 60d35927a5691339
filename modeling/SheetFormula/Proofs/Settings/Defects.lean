import SheetFormula.Proofs.Settings.Entries
import Mathlib.Data.List.Induction

/-!
# Defective entries of a settings file

An entry of a settings file may be defective in four ways (`SettingsEntry.Warns`).  Each defective
entry gives one warning, and the options are the defaults but for what the other entries set
(`FormatOptions.Follows`).  So without an entry that names no mode or sets no template, the file
gives the same options, and all of its warnings but one (`Settings.load_defects`).  This holds of
files of one MiB at most; a larger one is not read, whatever its entries are
(`Settings.load_oversized`).
-/

namespace SheetFormula

open Toml (Table)

namespace SettingsEntry

/-- What can be wrong with an entry, and the warning that it gives then. -/
inductive Warns : SettingsEntry → SettingsWarning → Prop where
  | unknownMode {text : List Char} {error : UnknownMode}
      (unknown : Mode.parse text = .error error) : Warns (.mode text) (.unknownMode error)
  | wideIndent {width : Nat} (wide : Settings.widthLimit < width) :
      Warns (.indent width) (.wideIndent width)
  | unknownTemplate {name source : List Char}
      (unknown : RenderCase.ofName? (Text.trim name) = none) :
      Warns (.template name source) (.unknownTemplate name)
  | invalidTemplate {name source : List Char} {case : RenderCase} {error : FormulaError}
      (known : RenderCase.ofName? (Text.trim name) = some case)
      (invalid : Template.parse source = .error error) :
      Warns (.template name source) (.invalidTemplate name error)

/-- Something is wrong with the entry. -/
def Defective (entry : SettingsEntry) : Prop :=
  ∃ warning, entry.Warns warning

/-- The warning that the entry gives. -/
def warning? : SettingsEntry → Option SettingsWarning
  | mode text =>
      match Mode.parse text with
      | .ok _ => none
      | .error error => some (.unknownMode error)
  | indent width => if Settings.widthLimit < width then some (.wideIndent width) else none
  | template name source =>
      match Settings.readTemplate (name, source) with
      | .ok _ => none
      | .error warning => some warning
  | _ => none

end SettingsEntry

namespace Settings

variable {settings : Settings} {entry : SettingsEntry} {table : Table} {name source : List Char}
  {case : RenderCase} {template : Template} {warning : SettingsWarning}
  {entries : List (List Char × List Char)} {options : FormatOptions}

private theorem readTemplate_eq_ok :
    readTemplate (name, source) = .ok (case, template) ↔
      RenderCase.ofName? (Text.trim name) = some case ∧ Template.parse source = .ok template := by
  unfold readTemplate
  dsimp only
  cases RenderCase.ofName? (Text.trim name) with
  | none => simp
  | some found => cases Template.parse source <;> simp

private theorem readTemplate_eq_error :
    readTemplate (name, source) = .error warning ↔
      (SettingsEntry.template name source).Warns warning := by
  constructor
  · intro refused
    unfold readTemplate at refused
    split at refused
    · rename_i unknown
      obtain rfl := Except.error.inj refused
      exact .unknownTemplate unknown
    · rename_i known
      split at refused
      · cases refused
      · rename_i invalid
        obtain rfl := Except.error.inj refused
        exact .invalidTemplate known invalid
  · intro warns
    cases warns with
    | unknownTemplate unknown => simp [readTemplate, unknown]
    | invalidTemplate known invalid => simp [readTemplate, known, invalid]

/-- The warning about an entry by what is wrong with the entry. -/
private theorem warning?_eq_some : entry.warning? = some warning ↔ entry.Warns warning := by
  cases entry with
  | mode text =>
      simp only [SettingsEntry.warning?]
      constructor
      · intro given
        split at given
        · cases given
        · rename_i unknown
          obtain rfl := Option.some.inj given
          exact .unknownMode unknown
      · intro warns
        cases warns with
        | unknownMode unknown => rw [unknown]
  | indent width =>
      simp only [SettingsEntry.warning?, Option.ite_none_right_eq_some, Option.some.injEq]
      constructor
      · rintro ⟨wide, rfl⟩
        exact .wideIndent wide
      · intro warns
        cases warns with
        | wideIndent wide => exact ⟨wide, rfl⟩
  | template name source =>
      rw [← readTemplate_eq_error, SettingsEntry.warning?]
      cases readTemplate (name, source) <;> simp
  | _ => exact ⟨nofun, nofun⟩

/-- The warning that a template entry gives. -/
def templateWarning? (entry : List Char × List Char) : Option SettingsWarning :=
  (SettingsEntry.template entry.1 entry.2).warning?

private theorem templateWarnings_eq :
    settings.templateWarnings = settings.templates.filterMap templateWarning? :=
  rfl

/-- The warnings of the settings are those of their entries. -/
theorem warnings_eq : settings.warnings = settings.entries.filterMap SettingsEntry.warning? := by
  have mode : (settings.under .mode).filterMap SettingsEntry.warning? = settings.chosenMode.2 := by
    unfold under chosenMode
    cases settings.mode with
    | none => rfl
    | some text => cases parsed : Mode.parse text <;> simp [SettingsEntry.warning?, parsed]
  have indent :
      (settings.under .indent).filterMap SettingsEntry.warning? = settings.indentWarnings := by
    unfold under indentWarnings
    cases settings.indent with
    | none => rfl
    | some width => by_cases wide : widthLimit < width <;> simp [SettingsEntry.warning?, wide]
  have flag (field : Option Bool) (entry : Bool → SettingsEntry)
      (sound : ∀ flag, (entry flag).warning? = none) :
      (field.toList.map entry).filterMap SettingsEntry.warning? = [] := by
    cases field <;> simp [sound]
  have templates :
      (settings.under .templates).filterMap SettingsEntry.warning? = settings.templateWarnings := by
    rw [templateWarnings_eq, under, List.filterMap_map]
    rfl
  have tabs : (settings.under .tabs).filterMap SettingsEntry.warning? = [] :=
    flag settings.tabs .tabs fun _ => rfl
  have commaFirst : (settings.under .commaFirst).filterMap SettingsEntry.warning? = [] :=
    flag settings.commaFirst .commaFirst fun _ => rfl
  have eu : (settings.under .eu).filterMap SettingsEntry.warning? = [] :=
    flag settings.eu .eu fun _ => rfl
  rw [warnings, ← mode, ← indent, ← templates]
  simp only [entries, SettingsKey.all, List.flatMap_cons, List.flatMap_nil, List.append_nil,
    List.filterMap_append, List.append_assoc]
  rw [tabs, commaFirst, eu]
  rfl

/-! ### The options -/

/-- The template entries change nothing but templates. -/
theorem foldl_withEntry (entries : List (List Char × List Char)) (options : FormatOptions) :
    (entries.foldl withEntry options).mode = options.mode ∧
      (entries.foldl withEntry options).layout = options.layout ∧
      (entries.foldl withEntry options).convention = options.convention := by
  have step (options : FormatOptions) (entry : List Char × List Char) :
      (withEntry options entry).mode = options.mode ∧
        (withEntry options entry).layout = options.layout ∧
        (withEntry options entry).convention = options.convention := by
    unfold withEntry
    split <;> exact ⟨rfl, rfl, rfl⟩
  induction entries generalizing options with
  | nil => exact ⟨rfl, rfl, rfl⟩
  | cons entry rest ih =>
      obtain ⟨mode, layout, convention⟩ := ih (withEntry options entry)
      obtain ⟨sameMode, sameLayout, sameConvention⟩ := step options entry
      exact ⟨mode.trans sameMode, layout.trans sameLayout, convention.trans sameConvention⟩

private theorem templates_withEntry {entry : List Char × List Char} :
    (withEntry options entry).templates case = some template ↔
      readTemplate entry = .ok (case, template) ∨
        (∀ other, readTemplate entry ≠ .ok (case, other)) ∧
          options.templates case = some template := by
  unfold withEntry
  cases read : readTemplate entry with
  | error warning => simp
  | ok set =>
      obtain ⟨other, found⟩ := set
      by_cases same : case = other
      · subst same
        simp [FormatOptions.withTemplate]
      · have differs : other ≠ case := Ne.symm same
        simp [FormatOptions.withTemplate, same, differs]

/-- Of the entries that set the template of a case, the last one counts. -/
theorem templates_foldl (ascending : Ascending entries) (unset : options.templates case = none) :
    (entries.foldl withEntry options).templates case = some template ↔
      ∃ entry ∈ entries, readTemplate entry = .ok (case, template) ∧
        ∀ later ∈ entries, entry.1 < later.1 →
          ∀ other, readTemplate later ≠ .ok (case, other) := by
  -- The last entry is the one that is taken up last, so the induction is from that end.
  induction entries using List.reverseRecOn with
  | nil => simp [unset]
  | append_singleton front last ih =>
      obtain ⟨frontAscending, _, less⟩ := List.pairwise_append.mp ascending
      have below (entry : List Char × List Char) (member : entry ∈ front) : entry.1 < last.1 :=
        less entry member last List.mem_cons_self
      rw [List.foldl_append, List.foldl_cons, List.foldl_nil, templates_withEntry,
        ih frontAscending]
      constructor
      · rintro (set | ⟨idle, entry, member, set, final⟩)
        · refine ⟨last, List.mem_append_right _ List.mem_cons_self, set, ?_⟩
          refine List.forall_mem_append.mpr ⟨fun later member greater => ?_,
            List.forall_mem_singleton.mpr fun greater => ?_⟩
          · exact (lt_asymm greater (below later member)).elim
          · exact (lt_irrefl _ greater).elim
        · refine ⟨entry, List.mem_append_left _ member, set, ?_⟩
          exact List.forall_mem_append.mpr ⟨final, List.forall_mem_singleton.mpr fun _ => idle⟩
      · rintro ⟨entry, member, set, final⟩
        obtain ⟨finalFront, finalLast⟩ := List.forall_mem_append.mp final
        rcases List.mem_append.mp member with old | same
        · exact .inr ⟨finalLast last List.mem_cons_self (below entry old), entry, old, set,
            finalFront⟩
        · obtain rfl := List.mem_singleton.mp same
          exact .inl set

/-- The value is one that is given, or the default if none is. -/
def Chosen {α : Type} (given : α → Prop) (default value : α) : Prop :=
  given value ∨ (∀ other, ¬given other) ∧ value = default

private theorem chosen_getD {α : Type} (field : Option α) (default : α) :
    Chosen (fun value => field = some value) default (field.getD default) := by
  cases field with
  | none => exact .inr ⟨nofun, rfl⟩
  | some value => exact .inl rfl

end Settings

open Settings (Chosen)

/-- A source stands under the name and replaces the template of the case. -/
def Toml.Table.Sets (table : Table) (name : List Char) (case : RenderCase) (template : Template) :
    Prop :=
  ∃ source, (SettingsEntry.template name source).Within table ∧
    RenderCase.ofName? (Text.trim name) = some case ∧ Template.parse source = .ok template

/-- The options are the defaults but for what the entries of the document set.  Tabs win over a
width, a width counts up to its limit, and of the names that stand for a case the last one
counts. -/
structure FormatOptions.Follows (options : FormatOptions) (table : Table) : Prop where
  mode : Chosen
    (fun mode => ∃ text, (SettingsEntry.mode text).Within table ∧ Mode.parse text = .ok mode)
    ({} : FormatOptions).mode options.mode
  indent : Chosen
    (fun indent => (SettingsEntry.tabs true).Within table ∧ indent = .tabs ∨
      ¬(SettingsEntry.tabs true).Within table ∧
        ∃ width, (SettingsEntry.indent width).Within table ∧
          indent = .spaces (min width Settings.widthLimit))
    ({} : FormatOptions).layout.indent options.layout.indent
  commaFirst : Chosen (fun flag => (SettingsEntry.commaFirst flag).Within table)
    ({} : FormatOptions).layout.commaFirst options.layout.commaFirst
  convention : Chosen
    (fun convention => ∃ flag, (SettingsEntry.eu flag).Within table ∧ convention = .ofFlag flag)
    ({} : FormatOptions).convention options.convention
  templates : ∀ case template, options.templates case = some template ↔
    ∃ name, table.Sets name case template ∧
      ∀ later, name < later → ∀ other, ¬table.Sets later case other

namespace Settings

variable {settings : Settings} {entry : SettingsEntry} {table : Table} {name : List Char}
  {case : RenderCase} {template : Template} {warning : SettingsWarning}

private theorem chosenMode_chosen :
    Chosen (fun mode => ∃ text, settings.mode = some text ∧ Mode.parse text = .ok mode) .beautify
      settings.chosenMode.1 := by
  unfold chosenMode
  cases settings.mode with
  | none => exact .inr ⟨nofun, rfl⟩
  | some text =>
      dsimp only
      cases parsed : Mode.parse text with
      | ok mode => exact .inl ⟨text, rfl, parsed⟩
      | error error =>
          refine .inr ⟨?_, rfl⟩
          rintro mode ⟨_, ⟨⟩, named⟩
          rw [parsed] at named
          cases named

private theorem chosenIndent_chosen :
    Chosen (fun indent => settings.tabs = some true ∧ indent = .tabs ∨
        ¬settings.tabs = some true ∧
          ∃ width, settings.indent = some width ∧ indent = .spaces (min width widthLimit))
      (.spaces 4) settings.chosenIndent := by
  unfold chosenIndent
  by_cases tabs : settings.tabs = some true
  · rw [if_pos tabs]
    exact .inl (.inl ⟨tabs, rfl⟩)
  · rw [if_neg tabs]
    cases settings.indent with
    | none =>
        refine .inr ⟨?_, rfl⟩
        rintro _ (⟨isTabs, _⟩ | ⟨_, _, ⟨⟩, _⟩)
        exact tabs isTabs
    | some width => exact .inl (.inr ⟨tabs, width, rfl, rfl⟩)

private theorem chosen_convention :
    Chosen (fun convention : Convention => ∃ flag, settings.eu = some flag ∧
      convention = .ofFlag flag) .us (.ofFlag (settings.eu.getD false)) := by
  cases settings.eu with
  | none => exact .inr ⟨nofun, rfl⟩
  | some flag => exact .inl ⟨flag, rfl, rfl⟩

private theorem sets_iff (same : ∀ entry, settings.Holds entry ↔ entry.Within table) :
    table.Sets name case template ↔
      ∃ source, (name, source) ∈ settings.templates ∧
        readTemplate (name, source) = .ok (case, template) := by
  simp only [Toml.Table.Sets, ← same, Holds, readTemplate_eq_ok]

/-- The last name that sets the template of a case gives the template of the options. -/
theorem templates_options (ascending : Ascending settings.templates)
    (same : ∀ entry, settings.Holds entry ↔ entry.Within table) :
    settings.options.templates case = some template ↔
      ∃ name, table.Sets name case template ∧
        ∀ later, name < later → ∀ other, ¬table.Sets later case other := by
  rw [options, templates_foldl ascending rfl]
  constructor
  · rintro ⟨⟨name, source⟩, member, set, final⟩
    refine ⟨name, (sets_iff same).mpr ⟨source, member, set⟩, fun later greater other sets => ?_⟩
    obtain ⟨_, laterMember, laterSet⟩ := (sets_iff same).mp sets
    exact final _ laterMember greater other laterSet
  · rintro ⟨name, sets, final⟩
    obtain ⟨source, member, set⟩ := (sets_iff same).mp sets
    refine ⟨(name, source), member, set, fun later laterMember greater other laterSet => ?_⟩
    exact final later.1 greater other ((sets_iff same).mpr ⟨later.2, laterMember, laterSet⟩)

/-- The options of the settings of a document follow its entries. -/
theorem options_follows (ascending : Ascending settings.templates)
    (same : ∀ entry, settings.Holds entry ↔ entry.Within table) :
    settings.options.Follows table := by
  obtain ⟨mode, layout, convention⟩ := foldl_withEntry settings.templates {
    mode := settings.chosenMode.1
    layout := { indent := settings.chosenIndent, commaFirst := settings.commaFirst.getD false }
    convention := .ofFlag (settings.eu.getD false) }
  refine ⟨?_, ?_, ?_, ?_, fun case template => templates_options ascending same⟩
  · simp only [← same, Holds, options, mode]
    exact chosenMode_chosen
  · simp only [← same, Holds, options, layout]
    exact chosenIndent_chosen
  · simp only [← same, Holds, options, layout]
    exact chosen_getD _ _
  · simp only [← same, Holds, options, convention]
    exact chosen_convention

/-! ### Without a defective entry -/

/-- The other settings give the same options, and the same warnings but for one. -/
def LacksWarning (settings other : Settings) (warning : SettingsWarning) : Prop :=
  other.options = settings.options ∧
    ∃ before behind, settings.warnings = before ++ warning :: behind ∧
      other.warnings = before ++ behind

private theorem lacksWarning_mode {text : List Char} {error : UnknownMode}
    (held : settings.mode = some text) (unknown : Mode.parse text = .error error) :
    settings.LacksWarning (settings.without (.mode text)) (.unknownMode error) := by
  have gone : (settings.without (.mode text)).mode = none := by
    simp [without, held, Option.filter]
  have first : settings.chosenMode = (.beautify, [.unknownMode error]) := by
    rw [chosenMode, held]
    simp [unknown]
  have second : (settings.without (.mode text)).chosenMode = (.beautify, []) := by
    rw [chosenMode, gone]
  refine ⟨?_, [], settings.indentWarnings ++ settings.templateWarnings, ?_, ?_⟩
  · rw [options, options, first, second]
    rfl
  · rw [warnings, first]
    rfl
  · rw [warnings, second]
    rfl

private theorem lacksWarning_template {source : List Char}
    (held : (name, source) ∈ settings.templates)
    (warns : (SettingsEntry.template name source).Warns warning) :
    settings.LacksWarning (settings.without (.template name source)) warning := by
  obtain ⟨before, behind, _, whole, erased⟩ := List.exists_erase_eq held
  have gone : (settings.without (.template name source)).templates = before ++ behind := erased
  refine ⟨?_, settings.chosenMode.2 ++ settings.indentWarnings ++ before.filterMap templateWarning?,
    behind.filterMap templateWarning?, ?_, ?_⟩
  · have idle (options : FormatOptions) : withEntry options (name, source) = options := by
      simp [withEntry, readTemplate_eq_error.mpr warns]
    rw [options, options, gone, whole, List.foldl_append, List.foldl_append, List.foldl_cons, idle]
    rfl
  · have own : templateWarning? (name, source) = some warning := warning?_eq_some.mpr warns
    rw [warnings, templateWarnings_eq, whole, List.filterMap_append, List.filterMap_cons_some own,
      ← List.append_assoc]
  · rw [warnings, templateWarnings_eq, gone, List.filterMap_append, ← List.append_assoc]
    rfl

/-- Two documents of which one lacks an entry that names no mode or sets no template. -/
theorem lacksWarning_of_within {other : Settings} {less : Table}
    (ascending : Ascending settings.templates)
    (same : ∀ entry, settings.Holds entry ↔ entry.Within table)
    (otherAscending : Ascending other.templates)
    (otherSame : ∀ entry, other.Holds entry ↔ entry.Within less)
    (lacks : ∀ held, held.Within less ↔ held.Within table ∧ held ≠ entry)
    (within : entry.Within table) (warns : entry.Warns warning) (narrow : entry.key ≠ .indent) :
    settings.LacksWarning other warning := by
  -- The entries determine the settings, so the other ones are what is left of these.
  have erased : settings.without entry = other := by
    refine eq_of_holds ascending.without otherAscending fun held => ?_
    rw [holds_without_iff ascending, same, otherSame, lacks]
  rw [← erased]
  have held := (same entry).mpr within
  cases warns with
  | unknownMode unknown => exact lacksWarning_mode held unknown
  | wideIndent _ => exact (narrow rfl).elim
  | unknownTemplate unknown => exact lacksWarning_template held (.unknownTemplate unknown)
  | invalidTemplate known invalid =>
      exact lacksWarning_template held (.invalidTemplate known invalid)

end Settings

/-- The file has one MiB at most, can be read, and holds a document with the keys of settings. -/
structure FileEntry.HoldsSettings (file : FileEntry) (table : Table) : Prop where
  small : file.size ≤ 1048576
  read : ∃ text, file.read = .ok text ∧ Toml.parse? text = some table
  known : table.IsSettings

/-- A text in a file is read as it is. -/
theorem FileEntry.read_toUTF8 (text : String) :
    (FileEntry.contents text.toUTF8).read = .ok text.toList := by
  have valid : text.toUTF8.IsValidUTF8 := text.isValidUTF8
  rw [FileEntry.read, String.fromUTF8?, dif_pos valid]
  rfl

/-- A text has at least as many bytes in a file as it has characters. -/
theorem FileEntry.length_le_size (text : List Char) :
    text.length ≤ (FileEntry.contents (String.ofList text).toUTF8).size := by
  change text.length ≤ (String.ofList text).toByteArray.size
  rw [String.toByteArray_ofList, List.utf8Encode, List.size_toByteArray]
  induction text with
  | nil => exact Nat.le_refl 0
  | cons c rest ih =>
      have positive := c.utf8Size_pos
      rw [List.flatMap_cons, List.length_append, List.length_cons, String.length_utf8EncodeChar]
      omega

namespace Settings

variable {file : FileEntry} {table : Table}

private theorem load_of_parse? {text : List Char} {settings : Settings} (path : List Char)
    (named : Bool) (small : file.size ≤ 1048576) (read : file.read = .ok text)
    (parsed : parse? text = some settings) :
    load path named file = (settings.options, settings.warnings) := by
  cases file with
  | absent fault => cases read
  | directory => cases read
  | contents bytes =>
      have below : ¬ sizeLimit < (FileEntry.contents bytes).size := Nat.not_lt.mpr small
      unfold load
      dsimp only
      rw [if_neg below, read]
      dsimp only
      rw [parsed]

/-- The settings of the file. -/
theorem load_of_holdsSettings (path : List Char) (named : Bool) (holds : file.HoldsSettings table) :
    ∃ settings : Settings, load path named file = (settings.options, settings.warnings) ∧
      Ascending settings.templates ∧
      ∀ entry : SettingsEntry, settings.Holds entry ↔ entry.Within table := by
  obtain ⟨small, ⟨text, read, parsed⟩, known⟩ := holds
  obtain ⟨settings, taken⟩ := ofTable?_isSettings.mpr known
  have distinct := Toml.parse?_distinct parsed
  have whole : parse? text = some settings := Option.bind_eq_some_iff.mpr ⟨table, parsed, taken⟩
  exact ⟨settings, load_of_parse? path named small read whole,
    ascending_of_ofTable? distinct taken, fun entry => holds_of_ofTable? distinct taken⟩

/-- Each item with a result, and its result. -/
theorem forall₂_filterMap {α β : Type} (result : α → Option β) (items : List α) :
    List.Forall₂ (fun item found => result item = some found)
      (items.filter fun item => (result item).isSome) (items.filterMap result) := by
  induction items with
  | nil => exact .nil
  | cons item rest ih =>
      cases own : result item with
      | none => simpa [own] using ih
      | some found => simpa [own] using ih

/-- A file that holds settings gives the options that its entries set, with the defaults for all
that is defective or missing, and one warning for each defective entry.  Without an entry that names
no mode or sets no template, a file gives the same options and all of the warnings but that of the
entry. -/
theorem load_defects (path : List Char) (named : Bool) (holds : file.HoldsSettings table) :
    ∃ options warnings, ∃ defects : List SettingsEntry,
      load path named file = (options, warnings) ∧ options.Follows table ∧ defects.Nodup ∧
      (∀ entry, entry ∈ defects ↔ entry.Within table ∧ entry.Defective) ∧
      warnings.length = defects.length ∧ List.Forall₂ SettingsEntry.Warns defects warnings ∧
      ∀ entry ∈ defects, entry.key ≠ .indent →
        ∀ (other : FileEntry) (less : Table), other.HoldsSettings less →
          (∀ held : SettingsEntry, held.Within less ↔ held.Within table ∧ held ≠ entry) →
          ∃ before warning behind, warnings = before ++ warning :: behind ∧
            entry.Warns warning ∧ load path named other = (options, before ++ behind) := by
  obtain ⟨settings, loaded, ascending, same⟩ := load_of_holdsSettings path named holds
  have warned : List.Forall₂ SettingsEntry.Warns
      (settings.entries.filter fun entry => entry.warning?.isSome) settings.warnings := by
    rw [warnings_eq]
    exact (forall₂_filterMap SettingsEntry.warning? settings.entries).imp
      fun _ _ => warning?_eq_some.mp
  have defective (entry : SettingsEntry) :
      entry ∈ settings.entries.filter (fun entry => entry.warning?.isSome) ↔
        entry.Within table ∧ entry.Defective := by
    rw [List.mem_filter, mem_entries, same, Option.isSome_iff_exists]
    simp only [warning?_eq_some]
    rfl
  refine ⟨settings.options, settings.warnings, _, loaded, options_follows ascending same,
    (nodup_entries ascending).filter _, defective, warned.length_eq.symm, warned, ?_⟩
  intro entry member narrow other less otherHolds lacks
  obtain ⟨within, warning, warns⟩ := (defective entry).mp member
  obtain ⟨left, otherLoaded, otherAscending, otherSame⟩ :=
    load_of_holdsSettings path named otherHolds
  obtain ⟨options, before, behind, given, lacking⟩ :=
    lacksWarning_of_within ascending same otherAscending otherSame lacks within warns narrow
  refine ⟨before, warning, behind, given, warns, ?_⟩
  rw [otherLoaded, options, lacking]

/-- A file with the settings holds a document with their entries. -/
theorem exists_holdsSettings {text : List Char} {settings : Settings}
    (small : file.size ≤ 1048576) (read : file.read = .ok text)
    (parsed : parse? text = some settings) :
    ∃ table, file.HoldsSettings table ∧ Ascending settings.templates ∧
      ∀ entry : SettingsEntry, settings.Holds entry ↔ entry.Within table := by
  obtain ⟨table, document, taken⟩ := Option.bind_eq_some_iff.mp parsed
  have distinct := Toml.parse?_distinct document
  exact ⟨table, ⟨small, ⟨text, read, document⟩, ofTable?_isSettings.mp ⟨settings, taken⟩⟩,
    ascending_of_ofTable? distinct taken, fun entry => holds_of_ofTable? distinct taken⟩

/-- The lines of a document with a defect of each kind but the mode, and with two names that stand
for one case. -/
def mixedLines : String :=
  "indent = 40\n[templates]\n\" argument\" = \"\"\n" ++
    "argument = \"\x7b\x7btoken\x7d\x7d\"\nbrackets = \"\"\n" ++
    "unknown = \"\x7b\x7btoken\x7d\x7d\x7b\x7btoken\x7d\x7d\"\n"

/-- The settings of these lines behind the line of a mode that there is not. -/
def mixedSettings : Settings where
  mode := some "shiny".toList
  indent := some 40
  templates := [
    (" argument".toList, []),
    ("argument".toList, "\x7b\x7btoken\x7d\x7d".toList),
    ("brackets".toList, []),
    ("unknown".toList, "\x7b\x7btoken\x7d\x7d\x7b\x7btoken\x7d\x7d".toList)]

/-- One defect of each kind, and two names that stand for one case.  Without the line of the mode
its warning is gone, and everything else stays. -/
theorem load_defects_mixed :
    ∃ table less,
      (FileEntry.contents ("mode = \"shiny\"\n" ++ mixedLines).toUTF8).HoldsSettings table ∧
      (FileEntry.contents mixedLines.toUTF8).HoldsSettings less ∧
      (∀ held : SettingsEntry,
        held.Within less ↔ held.Within table ∧ held ≠ .mode "shiny".toList) ∧
      ∃ options before warning behind,
        load [] true (.contents ("mode = \"shiny\"\n" ++ mixedLines).toUTF8) =
          (options, before ++ warning :: behind) ∧
        (SettingsEntry.mode "shiny".toList).Warns warning ∧
        load [] true (.contents mixedLines.toUTF8) = (options, before ++ behind) ∧
        (before ++ behind).length = 3 ∧ options.Follows table ∧
        options.layout.indent = .spaces 16 ∧ options.templates .argument = some Template.bare := by
  have small :
      (FileEntry.contents ("mode = \"shiny\"\n" ++ mixedLines).toUTF8).size ≤ 1048576 := by
    decide +kernel
  have otherSmall : (FileEntry.contents mixedLines.toUTF8).size ≤ 1048576 := by decide +kernel
  have parsed : parse? ("mode = \"shiny\"\n" ++ mixedLines).toList = some mixedSettings := by
    decide +kernel
  have otherParsed :
      parse? mixedLines.toList = some (mixedSettings.without (.mode "shiny".toList)) := by
    decide +kernel
  obtain ⟨table, holds, ascending, same⟩ :=
    exists_holdsSettings small (FileEntry.read_toUTF8 _) parsed
  obtain ⟨less, otherHolds, _, otherSame⟩ :=
    exists_holdsSettings otherSmall (FileEntry.read_toUTF8 _) otherParsed
  have lacks (held : SettingsEntry) :
      held.Within less ↔ held.Within table ∧ held ≠ .mode "shiny".toList := by
    rw [← otherSame, holds_without_iff ascending, same]
  obtain ⟨options, warnings, defects, loaded, follows, _, defective, _, _, without⟩ :=
    load_defects [] true holds
  have member : .mode "shiny".toList ∈ defects :=
    (defective _).mpr ⟨(same _).mp rfl, _, .unknownMode rfl⟩
  obtain ⟨before, warning, behind, rfl, warns, otherLoaded⟩ :=
    without _ member (by decide) _ less otherHolds lacks
  have parsedLoad :=
    load_of_parse? [] true otherSmall (FileEntry.read_toUTF8 mixedLines) otherParsed
  obtain ⟨rfl, given⟩ := Prod.mk.inj (otherLoaded.symm.trans parsedLoad)
  refine ⟨table, less, holds, otherHolds, lacks, _, before, warning, behind, loaded, warns,
    otherLoaded, ?_, follows, rfl, ?_⟩
  · rw [given]
    decide +kernel
  · decide +kernel

end Settings

/-! ### Files above the limit -/

namespace Toml

variable {fuel : Nat} {document next : Document} {text rest after : List Char}

/-- A line that can be read takes the document to the next one. -/
theorem readLines_of_readLine (start : skipLines false text = some text) (present : text ≠ [])
    (line : document.readLine (fuel + 1) text = some (next, rest))
    (ended : endLine? rest = some after) :
    Document.readLines (fuel + 1) document text = Document.readLines fuel next after := by
  rw [Document.readLines, start]
  cases text with
  | nil => exact (present rfl).elim
  | cons c others => simp only [Option.bind_eq_bind, Option.bind_some, line, ended]

/-- Number signs to the end of the document are a comment, or nothing at all. -/
theorem skipLines_replicate (length : Nat) :
    skipLines false (List.replicate length '#') = some [] := by
  have inside (length : Nat) : skipLines true (List.replicate length '#') = some [] := by
    induction length with
    | zero => rfl
    | succ length ih => exact ih
  cases length with
  | zero => rfl
  | succ length => exact inside length

end Toml

namespace Settings

/-- A line with a mode. -/
def modeLine : List Char :=
  "mode = \"minify\"\n".toList

/-- The document of that line. -/
def modeTable : Table :=
  [(SettingsKey.mode.name, .scalar (.string "minify".toList))]

private theorem readLine_modeLine (fuel : Nat) (rest : List Char) :
    Toml.Document.readLine {} (fuel + 1) (modeLine ++ rest) =
      some (⟨modeTable, []⟩, '\n' :: rest) := by
  have key : Toml.readKey (fuel + 1) (modeLine ++ rest) =
      some (["mode".toList], '=' :: (" \"minify\"\n".toList ++ rest)) := rfl
  have node :
      Toml.readNode (2 * (fuel + 1)) (Toml.skipSpace (" \"minify\"\n".toList ++ rest)) =
        some (.scalar (.string "minify".toList), '\n' :: rest) := rfl
  change Toml.Document.readEntry {} (fuel + 1) (modeLine ++ rest) = _
  simp only [Toml.Document.readEntry, key, Option.bind_eq_bind, Option.bind_some, node]
  rfl

/-- A comment behind the line changes nothing. -/
theorem parse?_modeLine (length : Nat) :
    Toml.parse? (modeLine ++ List.replicate length '#') = some modeTable := by
  generalize signs : List.replicate length '#' = comment
  have start : Toml.skipLines false (modeLine ++ comment) = some (modeLine ++ comment) := rfl
  have ended : Toml.endLine? ('\n' :: comment) = some comment := rfl
  have unmarked : Text.dropMark (modeLine ++ comment) = modeLine ++ comment := rfl
  have size : (modeLine ++ comment).length + 1 = (comment.length + 15) + 1 + 1 := rfl
  have skipped : Toml.skipLines false comment = some [] := by
    rw [← signs]
    exact Toml.skipLines_replicate length
  have first (fuel : Nat) : Toml.Document.readLines (fuel + 1) {} (modeLine ++ comment) =
      Toml.Document.readLines fuel ⟨modeTable, []⟩ comment :=
    Toml.readLines_of_readLine start (List.cons_ne_nil _ _) (readLine_modeLine fuel comment) ended
  rw [Toml.parse?, unmarked, size, first, Toml.Document.readLines, skipped]
  rfl

/-- The line is the only entry of its document. -/
theorem within_modeTable {entry : SettingsEntry} :
    entry.Within modeTable ↔ entry = .mode "minify".toList := by
  rw [modeTable, SettingsEntry.within_cons]
  cases entry with
  | mode text => simp [SettingsEntry.key, SettingsEntry.InNode, SettingsEntry.Within, eq_comm]
  | _ => simp [SettingsEntry.key, SettingsEntry.Within]

/-- The file of the line and of a comment of the given length. -/
def commentedFile (length : Nat) : FileEntry :=
  .contents (String.ofList (modeLine ++ List.replicate length '#')).toUTF8

private theorem read_commentedFile (length : Nat) :
    (commentedFile length).read = .ok (modeLine ++ List.replicate length '#') := by
  rw [commentedFile, FileEntry.read_toUTF8, String.toList_ofList]

private theorem size_commentedFile (length : Nat) : length < (commentedFile length).size := by
  have bytes := FileEntry.length_le_size (modeLine ++ List.replicate length '#')
  have line : 0 < modeLine.length := by decide
  rw [List.length_append, List.length_replicate] at bytes
  exact Nat.lt_of_lt_of_le (by omega) bytes

/-- A file above the limit is refused with one warning. -/
theorem load_commentedFile {length : Nat} (large : sizeLimit ≤ length) (path : List Char)
    (named : Bool) :
    load path named (commentedFile length) =
      ({}, [.tooLarge path (commentedFile length).size]) :=
  if_pos (Nat.lt_of_le_of_lt large (size_commentedFile length))

/-- The defaults do not follow the line. -/
theorem not_follows_modeTable : ¬ ({} : FormatOptions).Follows modeTable := by
  intro follows
  have parsed : Mode.parse "minify".toList = .ok .minify := by decide
  rcases follows.mode with ⟨text, within, named⟩ | ⟨unnamed, _⟩
  · obtain rfl := SettingsEntry.mode.inj (within_modeTable.mp within)
    rw [parsed] at named
    cases named
  · exact unnamed .minify ⟨_, within_modeTable.mpr rfl, parsed⟩

/-- A file of more than one MiB with a mode as its only entry.  Nothing is wrong with the entry, but
the options do not follow it, and there is a warning. -/
theorem load_oversized :
    ∃ text table, (commentedFile 1048576).read = .ok text ∧ Toml.parse? text = some table ∧
      table.IsSettings ∧ (SettingsEntry.mode "minify".toList).Within table ∧
      (∀ entry : SettingsEntry, entry.Within table → ¬ entry.Defective) ∧
      ∀ path named, ∃ options warning,
        load path named (commentedFile 1048576) = (options, [warning]) ∧
          ¬ options.Follows table := by
  refine ⟨_, modeTable, read_commentedFile _, parse?_modeLine _, ?_, within_modeTable.mpr rfl, ?_,
    fun path named => ⟨_, _, load_commentedFile (Nat.le_refl _) path named, not_follows_modeTable⟩⟩
  · exact List.forall_mem_singleton.mpr ⟨.mode, rfl, _, rfl⟩
  · rintro entry within ⟨warning, warns⟩
    obtain rfl := within_modeTable.mp within
    cases warns with
    | unknownMode unknown => cases unknown

end Settings

end SheetFormula
