import SheetFormula.Proofs.Toml.Keys
import SheetFormula.Settings
import Mathlib.Data.Char
import Mathlib.Data.Int.CharZero
import Mathlib.Data.List.Lex

/-!
# The entries of settings

A document is taken for settings if its keys are known and have values of their kinds
(`Settings.ofTable?_isSettings`).  It is then a set of entries (`SettingsEntry.Within`), and the
settings hold just these (`Settings.holds_of_ofTable?`): no key stands twice in the document, so
none takes the place of another.  The templates come in ascending order of their names, and so the
entries determine the settings (`Settings.eq_of_holds`).
-/

namespace SheetFormula

open Toml (Node Table)

/-- The keys of a settings file. -/
inductive SettingsKey where
  | mode
  | indent
  | tabs
  | commaFirst
  | eu
  | templates
  deriving DecidableEq, Repr

/-- Every key, in the order of declaration. -/
def SettingsKey.all : List SettingsKey :=
  [mode, indent, tabs, commaFirst, eu, templates]

/-- The spelling of the key. -/
def SettingsKey.name : SettingsKey → List Char
  | mode => "mode".toList
  | indent => "indent".toList
  | tabs => "tabs".toList
  | commaFirst => "comma_first".toList
  | eu => "eu".toList
  | templates => "templates".toList

private theorem SettingsKey.name_injective : Function.Injective SettingsKey.name := by
  intro first second same
  revert same
  cases first <;> cases second <;> decide

/-- A value is of the kind that the key asks for. -/
def SettingsKey.Fits : SettingsKey → Node → Prop
  | mode, node => ∃ text, node = .scalar (.string text)
  | indent, node => ∃ width : Nat, node = .scalar (.integer width)
  | tabs, node | commaFirst, node | eu, node => ∃ flag, node = .scalar (.boolean flag)
  | templates, node =>
      (∃ origin, ∃ texts : List (List Char × List Char),
        node = .table origin (texts.map fun entry => (entry.1, .scalar (.string entry.2)))) ∨
      ∃ written, node = .scalar (.dateTime written)

/-- Every key of the document is one of settings and has a value of its kind. -/
def Toml.Table.IsSettings (table : Table) : Prop :=
  ∀ item ∈ table, ∃ key : SettingsKey, item.1 = key.name ∧ key.Fits item.2

/-- One entry of a settings file. -/
inductive SettingsEntry where
  | mode (text : List Char)
  | indent (width : Nat)
  | tabs (flag : Bool)
  | commaFirst (flag : Bool)
  | eu (flag : Bool)
  | template (name source : List Char)
  deriving DecidableEq, Repr

namespace SettingsEntry

/-- The key under which the entry stands. -/
def key : SettingsEntry → SettingsKey
  | mode _ => .mode
  | indent _ => .indent
  | tabs _ => .tabs
  | commaFirst _ => .commaFirst
  | eu _ => .eu
  | template _ _ => .templates

/-- What the key of the entry stands for holds the entry.  A date or a time stands for a table with
one text. -/
def InNode : SettingsEntry → Node → Prop
  | mode text, node => node = .scalar (.string text)
  | indent width, node => node = .scalar (.integer width)
  | tabs flag, node => node = .scalar (.boolean flag)
  | commaFirst flag, node => node = .scalar (.boolean flag)
  | eu flag, node => node = .scalar (.boolean flag)
  | template name source, node =>
      (∃ origin entries, node = .table origin entries ∧
        (name, .scalar (.string source)) ∈ entries) ∨
      name = Settings.dateTimeName ∧ node = .scalar (.dateTime source)

/-- The document holds the entry. -/
def Within (entry : SettingsEntry) (table : Table) : Prop :=
  ∃ node, (entry.key.name, node) ∈ table ∧ entry.InNode node

/-- A document holds an entry under its first key or under a later one. -/
theorem within_cons {entry : SettingsEntry} {key : SettingsKey} {node : Node} {rest : Table} :
    entry.Within ((key.name, node) :: rest) ↔
      entry.key = key ∧ entry.InNode node ∨ entry.Within rest := by
  constructor
  · rintro ⟨found, member, inside⟩
    rcases List.mem_cons.mp member with same | later
    · obtain ⟨name, rfl⟩ := Prod.mk.inj same
      exact .inl ⟨SettingsKey.name_injective name, inside⟩
    · exact .inr ⟨found, later, inside⟩
  · rintro (⟨rfl, inside⟩ | ⟨found, member, inside⟩)
    · exact ⟨node, List.mem_cons_self, inside⟩
    · exact ⟨found, List.mem_cons_of_mem _ member, inside⟩

end SettingsEntry

namespace Settings

variable {settings other before after : Settings} {entry : SettingsEntry} {table : Table}
  {key : SettingsKey} {name : List Char} {node : Node} {texts : List (List Char × List Char)}

/-! ### The order of the templates -/

private theorem insertByName_perm (entry : List Char × List Char)
    (entries : List (List Char × List Char)) :
    (insertByName entry entries).Perm (entry :: entries) := by
  induction entries with
  | nil => exact .refl _
  | cons first rest ih =>
      unfold insertByName
      split
      · exact .refl _
      · exact (ih.cons first).trans (.swap entry first rest)

private theorem sortByName_perm (entries : List (List Char × List Char)) :
    (sortByName entries).Perm entries := by
  induction entries with
  | nil => exact .refl _
  | cons entry rest ih => exact (insertByName_perm entry _).trans (ih.cons entry)

/-- The names are in strictly ascending order. -/
def Ascending (entries : List (List Char × List Char)) : Prop :=
  entries.Pairwise fun left right => left.1 < right.1

private theorem Ascending.insertByName {entry : List Char × List Char}
    {entries : List (List Char × List Char)} (ascending : Ascending entries)
    (fresh : ∀ other ∈ entries, other.1 ≠ entry.1) : Ascending (insertByName entry entries) := by
  induction entries with
  | nil => exact List.pairwise_singleton _ _
  | cons first rest ih =>
      obtain ⟨least, restAscending⟩ := List.pairwise_cons.mp ascending
      obtain ⟨differs, restFresh⟩ := List.forall_mem_cons.mp fresh
      unfold Settings.insertByName
      split
      · rename_i less
        refine List.pairwise_cons.mpr ⟨List.forall_mem_cons.mpr ⟨less, ?_⟩, ascending⟩
        exact fun later member => less.trans (least later member)
      · rename_i notLess
        refine List.pairwise_cons.mpr ⟨fun later member => ?_, ih restAscending restFresh⟩
        rcases List.mem_cons.mp ((insertByName_perm entry rest).mem_iff.mp member) with rfl | old
        · exact lt_of_le_of_ne (not_lt.mp notLess) differs
        · exact least later old

private theorem ascending_sortByName {entries : List (List Char × List Char)}
    (distinct : (entries.map Prod.fst).Nodup) : Ascending (sortByName entries) := by
  induction entries with
  | nil => exact .nil
  | cons entry rest ih =>
      obtain ⟨fresh, restDistinct⟩ := List.nodup_cons.mp distinct
      refine (ih restDistinct).insertByName fun other member same => fresh ?_
      exact same ▸ List.mem_map_of_mem ((sortByName_perm rest).mem_iff.mp member)

/-! ### Taking up a document -/

/-- The settings hold the entry. -/
def Holds (settings : Settings) : SettingsEntry → Prop
  | .mode text => settings.mode = some text
  | .indent width => settings.indent = some width
  | .tabs flag => settings.tabs = some flag
  | .commaFirst flag => settings.commaFirst = some flag
  | .eu flag => settings.eu = some flag
  | .template name source => (name, source) ∈ settings.templates

private theorem textOf_eq_some {text : List Char} (read : textOf node = some text) :
    node = .scalar (.string text) := by
  unfold textOf at read
  split at read
  · obtain rfl := Option.some.inj read
    rfl
  · cases read

private theorem widthOf_eq_some {width : Nat} (read : widthOf node = some width) :
    node = .scalar (.integer width) := by
  unfold widthOf at read
  split at read
  · split at read
    · rename_i whole
      obtain rfl := Option.some.inj read
      rw [Int.toNat_of_nonneg whole]
    · cases read
  · cases read

private theorem flagOf_eq_some {flag : Bool} (read : flagOf node = some flag) :
    node = .scalar (.boolean flag) := by
  unfold flagOf at read
  split at read
  · obtain rfl := Option.some.inj read
    rfl
  · cases read

/-- The texts of a table are its strings, under their names. -/
theorem mapM_textOf {entries : Table}
    (read : (entries.mapM fun entry => (textOf entry.2).map fun text => (entry.1, text)) =
      some texts) :
    entries = texts.map fun entry => (entry.1, .scalar (.string entry.2)) := by
  induction entries generalizing texts with
  | nil =>
      obtain rfl := Option.some.inj read
      rfl
  | cons entry rest ih =>
      rw [List.mapM_cons] at read
      obtain ⟨first, own, read⟩ := Option.bind_eq_some_iff.mp read
      obtain ⟨others, inside, same⟩ := Option.bind_eq_some_iff.mp read
      obtain rfl := Option.some.inj same
      obtain ⟨text, found, rfl⟩ := Option.map_eq_some_iff.mp own
      rw [List.map_cons, ← ih inside, ← textOf_eq_some found]

private theorem inNode_template_iff {source : List Char} (read : textsOf node = some texts) :
    (SettingsEntry.template name source).InNode node ↔ (name, source) ∈ texts := by
  unfold textsOf at read
  split at read
  · obtain rfl := Option.some.inj read
    simp [SettingsEntry.InNode, eq_comm]
  · obtain rfl := mapM_textOf read
    simp [SettingsEntry.InNode]
  · cases read

private theorem names_distinct (read : textsOf node = some texts) (distinct : node.Distinct) :
    (texts.map Prod.fst).Nodup := by
  unfold textsOf at read
  split at read
  · obtain rfl := Option.some.inj read
    exact List.nodup_singleton _
  · obtain rfl := mapM_textOf read
    cases distinct with
    | table keys _ =>
        rw [List.map_map] at keys
        exact keys
  · cases read

/-- What a key and the value it stands for do to the settings. -/
inductive Takes (settings : Settings) : SettingsKey → Node → Settings → Prop where
  | mode (text : List Char) :
      Takes settings .mode (.scalar (.string text)) { settings with mode := some text }
  | indent (width : Nat) :
      Takes settings .indent (.scalar (.integer width)) { settings with indent := some width }
  | tabs (flag : Bool) :
      Takes settings .tabs (.scalar (.boolean flag)) { settings with tabs := some flag }
  | commaFirst (flag : Bool) :
      Takes settings .commaFirst (.scalar (.boolean flag)) { settings with commaFirst := some flag }
  | eu (flag : Bool) :
      Takes settings .eu (.scalar (.boolean flag)) { settings with eu := some flag }
  | templates {node : Node} {texts : List (List Char × List Char)}
      (read : textsOf node = some texts) :
      Takes settings .templates node { settings with templates := sortByName texts }

private theorem takeEntry_of_unknown (unknown : ∀ key : SettingsKey, name ≠ key.name) :
    settings.takeEntry (name, node) = none := by
  refine (if_neg (unknown .mode)).trans ?_
  refine (if_neg (unknown .indent)).trans ?_
  refine (if_neg (unknown .tabs)).trans ?_
  refine (if_neg (unknown .commaFirst)).trans ?_
  refine (if_neg (unknown .eu)).trans ?_
  exact if_neg (unknown .templates)

/-- Only an entry with a known key and a value of its kind is taken. -/
private theorem takes_of_takeEntry (taken : settings.takeEntry (name, node) = some after) :
    ∃ key : SettingsKey, name = key.name ∧ settings.Takes key node after := by
  by_cases known : ∃ key : SettingsKey, name = key.name
  · obtain ⟨key, rfl⟩ := known
    refine ⟨key, rfl, ?_⟩
    cases key with
    | mode =>
        obtain ⟨text, read, rfl⟩ := Option.map_eq_some_iff.mp taken
        obtain rfl : node = _ := textOf_eq_some read
        exact .mode text
    | indent =>
        obtain ⟨width, read, rfl⟩ := Option.map_eq_some_iff.mp taken
        obtain rfl : node = _ := widthOf_eq_some read
        exact .indent width
    | tabs =>
        obtain ⟨flag, read, rfl⟩ := Option.map_eq_some_iff.mp taken
        obtain rfl : node = _ := flagOf_eq_some read
        exact .tabs flag
    | commaFirst =>
        obtain ⟨flag, read, rfl⟩ := Option.map_eq_some_iff.mp taken
        obtain rfl : node = _ := flagOf_eq_some read
        exact .commaFirst flag
    | eu =>
        obtain ⟨flag, read, rfl⟩ := Option.map_eq_some_iff.mp taken
        obtain rfl : node = _ := flagOf_eq_some read
        exact .eu flag
    | templates =>
        obtain ⟨texts, read, rfl⟩ := Option.map_eq_some_iff.mp taken
        exact .templates read
  · rw [takeEntry_of_unknown (not_exists.mp known)] at taken
    cases taken

private theorem textsOf_table {origin : Toml.Origin} :
    textsOf (.table origin (texts.map fun entry => (entry.1, .scalar (.string entry.2)))) =
      some texts := by
  rw [textsOf]
  induction texts with
  | nil => rfl
  | cons entry rest ih =>
      rw [List.map_cons, List.mapM_cons, ih]
      rfl

/-- A key with a value of its kind is taken up. -/
theorem takeEntry_of_fits (fits : key.Fits node) :
    ∃ after, settings.takeEntry (key.name, node) = some after := by
  cases key with
  | mode =>
      obtain ⟨text, rfl⟩ := fits
      exact ⟨_, rfl⟩
  | indent =>
      obtain ⟨width, rfl⟩ := fits
      exact ⟨_, rfl⟩
  | tabs | commaFirst | eu =>
      obtain ⟨flag, rfl⟩ := fits
      exact ⟨_, rfl⟩
  | templates =>
      rcases fits with ⟨origin, texts, rfl⟩ | ⟨written, rfl⟩
      · exact ⟨_, Option.map_eq_some_iff.mpr ⟨texts, textsOf_table, rfl⟩⟩
      · exact ⟨_, rfl⟩

private theorem Takes.fits (takes : settings.Takes key node after) : key.Fits node := by
  cases takes with
  | mode text => exact ⟨text, rfl⟩
  | indent width => exact ⟨width, rfl⟩
  | tabs flag | commaFirst flag | eu flag => exact ⟨flag, rfl⟩
  | @templates node texts read =>
      unfold textsOf at read
      split at read
      · exact .inr ⟨_, rfl⟩
      · obtain rfl := mapM_textOf read
        exact .inl ⟨_, texts, rfl⟩
      · cases read

/-- A key gives the settings its entries, and leaves those of the other keys alone. -/
theorem Takes.holds_iff (takes : settings.Takes key node after) :
    after.Holds entry ↔
      entry.key = key ∧ entry.InNode node ∨ entry.key ≠ key ∧ settings.Holds entry := by
  cases takes with
  | mode text => cases entry <;> simp [Holds, SettingsEntry.key, SettingsEntry.InNode]
  | indent width => cases entry <;> simp [Holds, SettingsEntry.key, SettingsEntry.InNode]
  | tabs flag => cases entry <;> simp [Holds, SettingsEntry.key, SettingsEntry.InNode]
  | commaFirst flag => cases entry <;> simp [Holds, SettingsEntry.key, SettingsEntry.InNode]
  | eu flag => cases entry <;> simp [Holds, SettingsEntry.key, SettingsEntry.InNode]
  | templates read =>
      cases entry with
      | template name source =>
          simp [Holds, SettingsEntry.key, inNode_template_iff read, (sortByName_perm _).mem_iff]
      | _ => simp [Holds, SettingsEntry.key]

private theorem Takes.ascending (takes : settings.Takes key node after) (distinct : node.Distinct)
    (ascending : Ascending settings.templates) : Ascending after.templates := by
  cases takes with
  | templates read => exact ascending_sortByName (names_distinct read distinct)
  | _ => exact ascending

/-- Taking up the keys of a document one after the other.  None of them stands twice, so the entries
of one are not replaced by those of another. -/
theorem holds_of_foldlM (keys : (table.map Prod.fst).Nodup)
    (read : table.foldlM takeEntry before = some after) :
    after.Holds entry ↔
      entry.Within table ∨ entry.key.name ∉ table.map Prod.fst ∧ before.Holds entry := by
  induction table generalizing before with
  | nil =>
      obtain rfl := Option.some.inj read
      simp [SettingsEntry.Within]
  | cons item rest ih =>
      obtain ⟨name, node⟩ := item
      obtain ⟨fresh, restKeys⟩ := List.nodup_cons.mp keys
      obtain ⟨one, taken, others⟩ := Option.bind_eq_some_iff.mp read
      obtain ⟨key, rfl, takes⟩ := takes_of_takeEntry taken
      rw [ih restKeys others, takes.holds_iff, SettingsEntry.within_cons, List.map_cons,
        List.mem_cons, SettingsKey.name_injective.eq_iff]
      -- An entry of this key has no place in the rest, where the key does not stand again.
      by_cases own : entry.key = key
      · have absent : entry.key.name ∉ rest.map Prod.fst := own ▸ fresh
        tauto
      · tauto

private theorem ascending_of_foldlM (distinct : ∀ item ∈ table, item.2.Distinct)
    (ascending : Ascending before.templates)
    (read : table.foldlM takeEntry before = some after) : Ascending after.templates := by
  induction table generalizing before with
  | nil =>
      obtain rfl := Option.some.inj read
      exact ascending
  | cons item rest ih =>
      obtain ⟨own, restDistinct⟩ := List.forall_mem_cons.mp distinct
      obtain ⟨one, taken, others⟩ := Option.bind_eq_some_iff.mp read
      obtain ⟨_, _, takes⟩ := takes_of_takeEntry taken
      exact ih restDistinct (takes.ascending own ascending) others

private theorem foldlM_takeEntry_iff :
    (∃ after, table.foldlM takeEntry before = some after) ↔ table.IsSettings := by
  induction table generalizing before with
  | nil => exact ⟨fun _ => nofun, fun _ => ⟨before, rfl⟩⟩
  | cons item rest ih =>
      obtain ⟨name, node⟩ := item
      rw [Toml.Table.IsSettings, List.forall_mem_cons]
      constructor
      · rintro ⟨after, read⟩
        obtain ⟨one, taken, others⟩ := Option.bind_eq_some_iff.mp read
        obtain ⟨key, same, takes⟩ := takes_of_takeEntry taken
        exact ⟨⟨key, same, takes.fits⟩, ih.mp ⟨after, others⟩⟩
      · rintro ⟨⟨key, rfl, fits⟩, known⟩
        obtain ⟨one, taken⟩ := @takeEntry_of_fits before key node fits
        obtain ⟨after, others⟩ := (@ih one).mpr known
        exact ⟨after, Option.bind_eq_some_iff.mpr ⟨one, taken, others⟩⟩

/-- A document is taken for settings exactly if its keys are known and have values of their
kinds. -/
theorem ofTable?_isSettings : (∃ settings, ofTable? table = some settings) ↔ table.IsSettings :=
  foldlM_takeEntry_iff

/-- The settings of a document hold just its entries. -/
theorem holds_of_ofTable? (distinct : table.Distinct) (read : ofTable? table = some settings) :
    settings.Holds entry ↔ entry.Within table := by
  rw [holds_of_foldlM distinct.keys read]
  have empty : ¬(({} : Settings).Holds entry) := by
    cases entry <;> simp [Holds]
  tauto

/-- Settings that are read from a document without repeated keys have their templates in order. -/
theorem ascending_of_ofTable? (distinct : table.Distinct)
    (read : ofTable? table = some settings) : Ascending settings.templates :=
  have empty : Ascending ({} : Settings).templates := .nil
  ascending_of_foldlM distinct.each empty read

/-! ### Settings and their entries -/

private theorem Ascending.nodup {entries : List (List Char × List Char)}
    (ascending : Ascending entries) : entries.Nodup := by
  refine List.Pairwise.imp ?_ ascending
  rintro left right less rfl
  exact lt_irrefl _ less

/-- Settings with the same entries are the same. -/
theorem eq_of_holds (ascending : Ascending settings.templates)
    (otherAscending : Ascending other.templates)
    (same : ∀ entry, settings.Holds entry ↔ other.Holds entry) : settings = other := by
  have templates : settings.templates = other.templates := by
    have perm : settings.templates.Perm other.templates :=
      (List.perm_ext_iff_of_nodup ascending.nodup otherAscending.nodup).mpr fun entry =>
        same (.template entry.1 entry.2)
    refine perm.eq_of_pairwise (fun _ _ _ _ less greater => ?_) ascending otherAscending
    exact (lt_asymm less greater).elim
  obtain ⟨mode, indent, tabs, commaFirst, eu, _⟩ := settings
  obtain ⟨otherMode, otherIndent, otherTabs, otherCommaFirst, otherEu, _⟩ := other
  obtain rfl : mode = otherMode := Option.ext fun text => same (.mode text)
  obtain rfl : indent = otherIndent := Option.ext fun width => same (.indent width)
  obtain rfl : tabs = otherTabs := Option.ext fun flag => same (.tabs flag)
  obtain rfl : commaFirst = otherCommaFirst := Option.ext fun flag => same (.commaFirst flag)
  obtain rfl : eu = otherEu := Option.ext fun flag => same (.eu flag)
  obtain rfl := templates
  rfl

/-- The settings without an entry. -/
def without (settings : Settings) : SettingsEntry → Settings
  | .mode text => { settings with mode := settings.mode.filter (· ≠ text) }
  | .indent width => { settings with indent := settings.indent.filter (· ≠ width) }
  | .tabs flag => { settings with tabs := settings.tabs.filter (· ≠ flag) }
  | .commaFirst flag => { settings with commaFirst := settings.commaFirst.filter (· ≠ flag) }
  | .eu flag => { settings with eu := settings.eu.filter (· ≠ flag) }
  | .template name source =>
      { settings with templates := settings.templates.erase (name, source) }

/-- Settings without an entry hold all their other entries. -/
theorem holds_without_iff {omitted : SettingsEntry} (ascending : Ascending settings.templates) :
    (settings.without omitted).Holds entry ↔ settings.Holds entry ∧ entry ≠ omitted := by
  cases omitted with
  | template name source =>
      cases entry <;> simp [Holds, without, ascending.nodup.mem_erase_iff, and_comm]
  | _ => cases entry <;> simp [Holds, without, Option.filter_eq_some_iff]

/-- The templates stay in order when an entry is left out. -/
theorem Ascending.without {omitted : SettingsEntry} (ascending : Ascending settings.templates) :
    Ascending (settings.without omitted).templates := by
  cases omitted with
  | template name source => exact ascending.sublist List.erase_sublist
  | _ => exact ascending

/-- The entries of the settings under a key. -/
def under (settings : Settings) : SettingsKey → List SettingsEntry
  | .mode => settings.mode.toList.map .mode
  | .indent => settings.indent.toList.map .indent
  | .tabs => settings.tabs.toList.map .tabs
  | .commaFirst => settings.commaFirst.toList.map .commaFirst
  | .eu => settings.eu.toList.map .eu
  | .templates => settings.templates.map fun entry => .template entry.1 entry.2

/-- The entries of the settings, in the order of their keys and of the names of the templates. -/
def entries (settings : Settings) : List SettingsEntry :=
  SettingsKey.all.flatMap settings.under

private theorem mem_under :
    entry ∈ settings.under key ↔ entry.key = key ∧ settings.Holds entry := by
  cases key <;> cases entry <;> simp [under, SettingsEntry.key, Holds]

/-- The entries of settings are those that the settings hold. -/
theorem mem_entries : entry ∈ settings.entries ↔ settings.Holds entry := by
  have known : entry.key ∈ SettingsKey.all := by
    cases entry.key <;> decide
  simp [entries, List.mem_flatMap, mem_under, known]

/-- No entry of settings with their templates in order is listed twice. -/
theorem nodup_entries (ascending : Ascending settings.templates) : settings.entries.Nodup := by
  have single {α : Type} (field : Option α) (entry : α → SettingsEntry) :
      (field.toList.map entry).Nodup := by
    cases field <;> simp
  have own (key : SettingsKey) : (settings.under key).Nodup := by
    cases key with
    | templates =>
        refine ascending.nodup.map fun first second same => ?_
        injection same with name source
        exact Prod.ext name source
    | _ => exact single _ _
  refine List.nodup_flatMap.mpr ⟨fun key _ => own key, ?_⟩
  have keys : SettingsKey.all.Nodup := by decide
  refine keys.imp fun {first second} differ entry inFirst inSecond => differ ?_
  exact (mem_under.mp inFirst).1.symm.trans (mem_under.mp inSecond).1

end Settings

end SheetFormula
