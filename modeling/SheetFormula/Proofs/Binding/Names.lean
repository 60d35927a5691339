import SheetFormula.Proofs.Binding.Pieces
import Mathlib.Data.List.Nodup

/-!
# The names that a bound formula gives to fields

The `LET` of a bound formula has one binding for each field that the formula refers to, but the rule
that makes an identifier of a name can make the same one of two fields (`bind_names_clash`).  The
identifiers are pairwise distinct exactly if references to different fields are replaced
differently, and then every reference names the location of its own field and no other.  For that
alone it is enough that references which are replaced alike have the same location (`bind_names`).
-/

namespace SheetFormula

namespace Mapping

variable {table : List Mapping} {field other : List Char} {mapping otherMapping : Mapping}

private theorem key_of_find? (found : find? table field = some mapping) :
    key mapping.field = key field := by
  simpa using List.find?_some found

/-- Two fields of a table have the same mapping exactly if they are one field. -/
theorem eq_of_find?_iff (found : find? table field = some mapping)
    (foundOther : find? table other = some otherMapping) :
    mapping = otherMapping ↔ key field = key other := by
  constructor
  · rintro rfl
    rw [← key_of_find? found, key_of_find? foundOther]
  · intro same
    rw [find?, same] at found
    exact Option.some.inj (found.symm.trans foundOther)

end Mapping

/-- No member stands twice in a list whose repetitions were dropped. -/
theorem nodup_eraseDups {α : Type} [BEq α] [LawfulBEq α] (members : List α) :
    members.eraseDups.Nodup := by
  induction length : members.length using Nat.strong_induction_on generalizing members with
  | _ _ ih =>
    subst length
    cases members with
    | nil => exact List.nodup_nil
    | cons first rest =>
        have shorter := rest.length_filter_le fun other => !other == first
        rw [List.eraseDups_cons, List.nodup_cons, List.mem_eraseDups]
        exact ⟨by simp, ih _ (Nat.lt_succ_of_le shorter) _ rfl⟩

namespace LetBinding

variable {convention : Convention} {table : List Mapping} {formula bound : List Char}
  {reference : RowReference} {mapping : Mapping}

/-- The bindings of the `LET`, each an identifier and a location, in order. -/
def header (table : List Mapping) (formula : List Char) : List (List Char × List Char) :=
  (used table formula).map fun mapping => (mapping.identifier, mapping.location)

/-- The identifiers that the `LET` binds, in order. -/
def names (table : List Mapping) (formula : List Char) : List (List Char) :=
  (header table formula).map Prod.fst

/-- A binding as it is written. -/
def writtenBinding (convention : Convention) (binding : List Char × List Char) : List Char :=
  binding.1 ++ separator convention ++ binding.2 ++ separator convention

/-- The location of the field that a reference is to. -/
def location? (table : List Mapping) (reference : RowReference) : Option (List Char) :=
  (Mapping.find? table reference.field).map Mapping.location

/-- The text that replaces the reference is bound to the location of its field and to no other
location. -/
def NamesOwnField (table : List Mapping) (formula : List Char) (reference : RowReference) : Prop :=
  ∀ location, (substitute table (.reference reference), location) ∈ header table formula ↔
    location? table reference = some location

private theorem names_eq (table : List Mapping) (formula : List Char) :
    names table formula = (used table formula).map Mapping.identifier := by
  simp [names, header]

private theorem mem_used_iff :
    mapping ∈ used table formula ↔
      ∃ reference ∈ references formula, Mapping.find? table reference.field = some mapping := by
  rw [used, List.mem_eraseDups, List.mem_filterMap]

private theorem mem_header_iff {identifier location : List Char} :
    (identifier, location) ∈ header table formula ↔
      ∃ mapping ∈ used table formula, mapping.identifier = identifier ∧
        mapping.location = location := by
  simp [header]

private theorem location?_of_find? (found : Mapping.find? table reference.field = some mapping) :
    location? table reference = some mapping.location := by
  rw [location?, found, Option.map_some]

/-- The identifiers are distinct exactly if different fields are replaced differently. -/
theorem nodup_names_iff (result : bind convention table formula = .ok bound) :
    (names table formula).Nodup ↔
      ∀ first ∈ references formula, ∀ second ∈ references formula,
        substitute table (.reference first) = substitute table (.reference second) →
          Mapping.key first.field = Mapping.key second.field := by
  rw [names_eq]
  constructor
  · intro distinct first listed second listedSecond alike
    obtain ⟨mapping, found⟩ := find?_of_bind result listed
    obtain ⟨other, foundOther⟩ := find?_of_bind result listedSecond
    rw [substitute_of_find? found, substitute_of_find? foundOther] at alike
    exact (Mapping.eq_of_find?_iff found foundOther).mp <|
      List.inj_on_of_nodup_map distinct (mem_used_iff.mpr ⟨first, listed, found⟩)
        (mem_used_iff.mpr ⟨second, listedSecond, foundOther⟩) alike
  · intro apart
    refine List.Nodup.map_on ?_ (nodup_eraseDups _)
    intro mapping isUsed other isUsedToo alike
    obtain ⟨first, listed, found⟩ := mem_used_iff.mp isUsed
    obtain ⟨second, listedSecond, foundOther⟩ := mem_used_iff.mp isUsedToo
    rw [← substitute_of_find? found, ← substitute_of_find? foundOther] at alike
    exact (Mapping.eq_of_find?_iff found foundOther).mpr
      (apart first listed second listedSecond alike)

/-- References name the locations of their own fields exactly if those that are replaced alike have
the same location. -/
theorem forall_namesOwnField_iff (result : bind convention table formula = .ok bound) :
    (∀ reference ∈ references formula, NamesOwnField table formula reference) ↔
      ∀ first ∈ references formula, ∀ second ∈ references formula,
        substitute table (.reference first) = substitute table (.reference second) →
          location? table first = location? table second := by
  constructor
  · intro own first listed second listedSecond alike
    obtain ⟨other, foundOther⟩ := find?_of_bind result listedSecond
    rw [location?_of_find? foundOther]
    refine (own first listed other.location).mp (mem_header_iff.mpr ⟨other, ?_, ?_, rfl⟩)
    · exact mem_used_iff.mpr ⟨second, listedSecond, foundOther⟩
    · rw [alike, substitute_of_find? foundOther]
  · intro apart reference listed location
    obtain ⟨mapping, found⟩ := find?_of_bind result listed
    rw [mem_header_iff]
    constructor
    · rintro ⟨other, isUsed, alike, rfl⟩
      obtain ⟨second, listedSecond, foundOther⟩ := mem_used_iff.mp isUsed
      rw [← substitute_of_find? foundOther] at alike
      rw [apart reference listed second listedSecond alike.symm, location?_of_find? foundOther]
    · intro own
      rw [location?_of_find? found, Option.some.injEq] at own
      exact ⟨mapping, mem_used_iff.mpr ⟨reference, listed, found⟩,
        (substitute_of_find? found).symm, own⟩

/-- The text of a bound formula, by its bindings and its pieces. -/
theorem bound_eq_header (result : bind convention table formula = .ok bound) :
    references formula = [] ∧ bound = formula ∨
      references formula ≠ [] ∧ bound = "=LET(".toList ++
        (header table formula).flatMap (writtenBinding convention) ++
        Text.trim ((Piece.ofFormula (body formula)).flatMap (substitute table)) ++ ")".toList := by
  obtain ⟨_, ⟨unused, rfl⟩ | ⟨present, rfl⟩⟩ := bind_cases result
  · refine .inl ⟨List.eq_nil_iff_forall_not_mem.mpr fun reference listed => ?_, rfl⟩
    obtain ⟨mapping, found⟩ := find?_of_bind result listed
    have isUsed := mem_used_iff.mpr ⟨reference, listed, found⟩
    rw [unused] at isUsed
    cases isUsed
  · refine .inr ⟨fun none => present ?_, ?_⟩
    · rw [used, none]
      rfl
    · rw [header, List.flatMap_map, substituted_eq]
      rfl

/-- The `LET` of a bound formula is written from its bindings, and every reference is replaced by
the identifier of its field.  The identifiers are pairwise distinct exactly if references to
different fields are replaced differently.  References name the locations of their own fields
exactly if those that are replaced alike have the same location, and so they do if the identifiers
are distinct. -/
theorem bind_names (result : bind convention table formula = .ok bound) :
    (references formula = [] ∧ bound = formula ∨
      references formula ≠ [] ∧ bound = "=LET(".toList ++
        (header table formula).flatMap (writtenBinding convention) ++
        Text.trim ((Piece.ofFormula (body formula)).flatMap (substitute table)) ++ ")".toList) ∧
    ((names table formula).Nodup ↔
      ∀ first ∈ references formula, ∀ second ∈ references formula,
        substitute table (.reference first) = substitute table (.reference second) →
          Mapping.key first.field = Mapping.key second.field) ∧
    ((∀ reference ∈ references formula, NamesOwnField table formula reference) ↔
      ∀ first ∈ references formula, ∀ second ∈ references formula,
        substitute table (.reference first) = substitute table (.reference second) →
          location? table first = location? table second) ∧
    ((names table formula).Nodup →
      ∀ reference ∈ references formula, NamesOwnField table formula reference) := by
  refine ⟨bound_eq_header result, nodup_names_iff result, forall_namesOwnField_iff result, ?_⟩
  intro distinct
  refine (forall_namesOwnField_iff result).mpr ?_
  intro first listed second listedSecond alike
  have sameField := (nodup_names_iff result).mp distinct first listed second listedSecond alike
  rw [location?, location?, Mapping.find?, Mapping.find?, sameField]

/-- Three references to two fields, one of them under two spellings. -/
theorem bind_names_distinct :
    bind .us [⟨"Due Date".toList, "C:C".toList, none, none⟩,
        ⟨"Status".toList, "B:B".toList, none, some "due_date".toList⟩]
      "=[due date]@row-Status@row*[Due Date]@row".toList =
        .ok "=LET(_Due_Date, C:C, due_date, B:B, _Due_Date-due_date*_Due_Date)".toList ∧
    (names [⟨"Due Date".toList, "C:C".toList, none, none⟩,
        ⟨"Status".toList, "B:B".toList, none, some "due_date".toList⟩]
      "=[due date]@row-Status@row*[Due Date]@row".toList).Nodup ∧
    ∀ reference ∈ references "=[due date]@row-Status@row*[Due Date]@row".toList,
      NamesOwnField [⟨"Due Date".toList, "C:C".toList, none, none⟩,
          ⟨"Status".toList, "B:B".toList, none, some "due_date".toList⟩]
        "=[due date]@row-Status@row*[Due Date]@row".toList reference := by
  have result : bind .us [⟨"Due Date".toList, "C:C".toList, none, none⟩,
        ⟨"Status".toList, "B:B".toList, none, some "due_date".toList⟩]
      "=[due date]@row-Status@row*[Due Date]@row".toList =
        .ok "=LET(_Due_Date, C:C, due_date, B:B, _Due_Date-due_date*_Due_Date)".toList := by
    rfl
  have distinct : (names [⟨"Due Date".toList, "C:C".toList, none, none⟩,
        ⟨"Status".toList, "B:B".toList, none, some "due_date".toList⟩]
      "=[due date]@row-Status@row*[Due Date]@row".toList).Nodup := by
    decide +kernel
  exact ⟨result, distinct, (bind_names result).2.2.2 distinct⟩

/-- Two fields whose names differ in a blank and a hyphen get one identifier, and the reference to
the second field is bound to the location of the first one as well. -/
theorem bind_names_clash :
    bind .us [⟨"Due Date".toList, "C:C".toList, none, none⟩,
        ⟨"Due-Date".toList, "D:D".toList, none, none⟩] "=[Due Date]@row-[Due-Date]@row".toList =
      .ok "=LET(_Due_Date, C:C, _Due_Date, D:D, _Due_Date-_Due_Date)".toList ∧
    ¬(names [⟨"Due Date".toList, "C:C".toList, none, none⟩,
        ⟨"Due-Date".toList, "D:D".toList, none, none⟩]
      "=[Due Date]@row-[Due-Date]@row".toList).Nodup ∧
    ¬NamesOwnField [⟨"Due Date".toList, "C:C".toList, none, none⟩,
        ⟨"Due-Date".toList, "D:D".toList, none, none⟩] "=[Due Date]@row-[Due-Date]@row".toList
      ⟨"[Due-Date]@row".toList, "Due-Date".toList⟩ := by
  refine ⟨rfl, by decide +kernel, fun own => ?_⟩
  have other := (own "C:C".toList).mp (by decide +kernel)
  revert other
  decide +kernel

end LetBinding

end SheetFormula
