import SheetFormula.Proofs.Binding.Names
import SheetFormula.Proofs.Binding.Places
import Mathlib.Data.List.Forall2

/-!
# What binding a formula gives

The references of a formula are looked up in the table while the formula is read, and what is found
decides the outcome: a reference without a row is reported, a formula without references stays as it
is, and any other formula becomes a `LET` with one binding for each row that is used.  `IsBody` says
which part of the formula is read, `Outcome` states the rest from the rows of the table and the
pieces of that part, and `bind_outcome` says that it determines what binding gives.
-/

namespace SheetFormula

section FirstUses

variable {α β : Type} [BEq α] [LawfulBEq α] [BEq β] [LawfulBEq β]

private theorem eraseDups_concat_of_mem {members : List α} {last : α} (known : last ∈ members) :
    (members ++ [last]).eraseDups = members.eraseDups := by
  simp [List.eraseDups_append, List.removeAll, known]

private theorem eraseDups_concat_of_not_mem {members : List α} {last : α} (fresh : last ∉ members) :
    (members ++ [last]).eraseDups = members.eraseDups ++ [last] := by
  simp [List.eraseDups_append, List.removeAll, fresh, List.eraseDups_cons]

private theorem map_eraseDups {image : α → β} {members : List α}
    (apart : ∀ first ∈ members, ∀ second ∈ members, image first = image second → first = second) :
    (members.map image).eraseDups = members.eraseDups.map image := by
  induction members using List.reverseRecOn with
  | nil => rfl
  | append_singleton members last ih =>
      have shorter := ih fun first listed second listedSecond =>
        apart first (List.mem_append_left _ listed) second (List.mem_append_left _ listedSecond)
      rw [List.map_append, List.map_singleton]
      by_cases known : last ∈ members
      · rw [eraseDups_concat_of_mem (List.mem_map_of_mem known), eraseDups_concat_of_mem known,
          shorter]
      · have fresh : image last ∉ members.map image := by
          intro listed
          obtain ⟨other, member, same⟩ := List.mem_map.mp listed
          have equal := apart other (List.mem_append_left _ member) last (by simp) same
          exact known (equal ▸ member)
        rw [eraseDups_concat_of_not_mem fresh, eraseDups_concat_of_not_mem known, shorter,
          List.map_append, List.map_singleton]

/-- What is left of a list without repetitions stands in the order of first occurrence. -/
theorem pairwise_eraseDups (members : List α) :
    members.eraseDups.Pairwise fun first second => members.idxOf first < members.idxOf second := by
  induction members using List.reverseRecOn with
  | nil => exact .nil
  | append_singleton members last ih =>
      have kept : members.eraseDups.Pairwise fun first second =>
          (members ++ [last]).idxOf first < (members ++ [last]).idxOf second := by
        refine ih.imp_of_mem fun {first second} listed listedSecond before => ?_
        rwa [List.idxOf_append_of_mem (List.mem_eraseDups.mp listed),
          List.idxOf_append_of_mem (List.mem_eraseDups.mp listedSecond)]
      by_cases known : last ∈ members
      · rwa [eraseDups_concat_of_mem known]
      · rw [eraseDups_concat_of_not_mem known]
        refine List.pairwise_append.mpr ⟨kept, List.pairwise_singleton _ _, ?_⟩
        intro first listed second isLast
        have member := List.mem_eraseDups.mp listed
        have inside := List.idxOf_lt_length_of_mem member
        rw [List.mem_singleton.mp isLast, List.idxOf_append_of_mem member,
          List.idxOf_append_of_notMem known]
        omega

/-- The members of a list in the order of first occurrence are determined. -/
theorem eq_eraseDups {members rows : List α} (all : ∀ row, row ∈ rows ↔ row ∈ members)
    (order : rows.Pairwise fun first second => members.idxOf first < members.idxOf second) :
    rows = members.eraseDups := by
  have distinct : rows.Nodup := order.imp fun before same => by
    rw [same] at before
    omega
  have same : rows.Perm members.eraseDups :=
    (List.perm_ext_iff_of_nodup distinct (nodup_eraseDups members)).mpr fun row => by
      rw [all, List.mem_eraseDups]
  refine same.eq_of_pairwise ?_ order (pairwise_eraseDups members)
  intro first second _ _ before after
  omega

end FirstUses

namespace Mapping

variable {table : List Mapping} {field other : List Char} {row otherRow : Nat}
  {mapping otherMapping : Mapping}

/-- The row of the table is the first one for the field, and the mapping stands in it. -/
structure IsFirstRow (table : List Mapping) (field : List Char) (row : Nat) (mapping : Mapping) :
    Prop where
  listed : table[row]? = some mapping
  same : key mapping.field = key field
  first : ∀ earlier < row, ∀ other ∈ table[earlier]?, key other.field ≠ key field

private theorem find?_eq_some_iff_row :
    find? table field = some mapping ↔ ∃ row, IsFirstRow table field row mapping := by
  rw [find?, List.find?_eq_some_iff_getElem]
  constructor
  · rintro ⟨same, row, inside, listed, earlier⟩
    refine ⟨row, by rw [List.getElem?_eq_getElem inside, listed], by simpa using same, ?_⟩
    intro before above other found
    have absent := earlier before above
    rw [Option.mem_def, List.getElem?_eq_getElem (by omega)] at found
    obtain rfl := Option.some.inj found
    simpa using absent
  · rintro ⟨row, listed, same, first⟩
    obtain ⟨inside, found⟩ := List.getElem?_eq_some_iff.mp listed
    refine ⟨by simpa using same, row, inside, found, fun before above => ?_⟩
    have apart := first before above _ (List.getElem?_eq_getElem (by omega))
    simpa using apart

private theorem find?_eq_none_iff_row :
    find? table field = none ↔ ∀ row mapping, ¬IsFirstRow table field row mapping := by
  constructor
  · intro missing row mapping isRow
    rw [find?_eq_some_iff_row.mpr ⟨row, isRow⟩] at missing
    cases missing
  · intro missing
    cases found : find? table field with
    | none => rfl
    | some mapping =>
        obtain ⟨row, isRow⟩ := find?_eq_some_iff_row.mp found
        exact (missing row mapping isRow).elim

/-- A mapping stands in one row only, whatever field it has been found for. -/
theorem IsFirstRow.row_eq (isRow : IsFirstRow table field row mapping)
    (isOther : IsFirstRow table other otherRow mapping) : row = otherRow := by
  rcases Nat.lt_trichotomy row otherRow with before | equal | behind
  · exact (isOther.first row before mapping isRow.listed isOther.same).elim
  · exact equal
  · exact (isRow.first otherRow behind mapping isOther.listed isRow.same).elim

end Mapping

namespace LetBinding

open Mapping

variable {convention : Convention} {table : List Mapping} {formula : List Char}
  {found : List RowReference} {pieces : List Piece} {uses : List (Nat × Mapping)}

/-- The formula is the text with blanks around it, and with one equals sign before it if it has
one. -/
inductive IsBody (formula : List Char) : List Char → Prop where
  | marked {text : List Char} (trims : Text.Trims formula ('=' :: text)) : IsBody formula text
  | plain {text : List Char} (trims : Text.Trims formula text) (unmarked : text.head? ≠ some '=') :
      IsBody formula text

/-- The rows of the table that references use, one for each. -/
abbrev Uses (table : List Mapping) : List RowReference → List (Nat × Mapping) → Prop :=
  List.Forall₂ fun reference use => IsFirstRow table reference.field use.1 use.2

/-- What stands for a piece once the references are replaced. -/
inductive Replaces (table : List Mapping) : Piece → List Char → Prop where
  | char (c : Char) : Replaces table (.char c) [c]
  | reference {found : RowReference} {row : Nat} {mapping : Mapping}
      (first : IsFirstRow table found.field row mapping) :
      Replaces table (.reference found) mapping.identifier

/-- What binding gives for a formula of the given pieces: an error for the first reference without a
row, the formula itself if there are no references, and else a `LET` of the rows in the order of
their first use and of the pieces with the references replaced. -/
inductive Outcome (convention : Convention) (table : List Mapping) (formula : List Char)
    (pieces : List Piece) : Except LetError (List Char) → Prop where
  | unmapped {before after : List RowReference} {reference : RowReference}
      (split : pieces.filterMap Piece.reference? = before ++ reference :: after)
      (mapped : ∀ earlier ∈ before, ∃ row mapping, IsFirstRow table earlier.field row mapping)
      (missing : ∀ row mapping, ¬IsFirstRow table reference.field row mapping) :
      Outcome convention table formula pieces (.error (.unmapped reference.written))
  | unchanged (absent : pieces.filterMap Piece.reference? = []) :
      Outcome convention table formula pieces (.ok formula)
  | bound {uses rows : List (Nat × Mapping)} {texts : List (List Char)} {inner : List Char}
      (present : pieces.filterMap Piece.reference? ≠ [])
      (used : Uses table (pieces.filterMap Piece.reference?) uses)
      (all : ∀ row, row ∈ rows ↔ row ∈ uses)
      (order : rows.Pairwise fun first second => uses.idxOf first < uses.idxOf second)
      (replaced : List.Forall₂ (Replaces table) pieces texts)
      (trims : Text.Trims texts.flatten inner) :
      Outcome convention table formula pieces (.ok ("=LET(".toList ++
        rows.flatMap (fun row => row.2.identifier ++ [convention.separator, ' '] ++
          row.2.location ++ [convention.separator, ' ']) ++
        inner ++ ")".toList))

/-- The text that is read is determined. -/
theorem isBody_iff {text : List Char} : IsBody formula text ↔ text = body formula := by
  unfold body
  constructor
  · rintro (trims | ⟨trims, unmarked⟩)
    · rw [← Text.trims_iff.mp trims]
      rfl
    · rw [← Text.trims_iff.mp trims]
      split
      · exact (unmarked rfl).elim
      · rfl
  · rintro rfl
    split
    · rename_i rest marked
      exact .marked (Text.trims_iff.mpr marked.symm)
    · rename_i inner unmarked
      refine .plain (Text.trims_iff.mpr rfl) fun first => ?_
      obtain ⟨rest, split⟩ := List.head?_eq_some_iff.mp first
      exact unmarked rest split

private theorem exists_uses
    (mapped : ∀ reference ∈ found, ∃ mapping, find? table reference.field = some mapping) :
    ∃ uses, Uses table found uses := by
  induction found with
  | nil => exact ⟨[], .nil⟩
  | cons reference rest ih =>
      obtain ⟨⟨mapping, own⟩, others⟩ := List.forall_mem_cons.mp mapped
      obtain ⟨row, isRow⟩ := find?_eq_some_iff_row.mp own
      obtain ⟨uses, restUses⟩ := ih others
      exact ⟨(row, mapping) :: uses, .cons isRow restUses⟩

private theorem Uses.filterMap_find? (used : Uses table found uses) :
    (found.filterMap fun reference => find? table reference.field) = uses.map Prod.snd := by
  induction used with
  | nil => rfl
  | cons isRow _ ih =>
      rw [List.filterMap_cons, find?_eq_some_iff_row.mpr ⟨_, isRow⟩, ih, List.map_cons]

private theorem Uses.mapped (used : Uses table found uses) :
    ∀ reference ∈ found, ∃ mapping, find? table reference.field = some mapping := by
  induction used with
  | nil => nofun
  | cons isRow _ ih =>
      exact List.forall_mem_cons.mpr ⟨⟨_, find?_eq_some_iff_row.mpr ⟨_, isRow⟩⟩, ih⟩

private theorem Uses.exists_of_mem (used : Uses table found uses) :
    ∀ use ∈ uses, ∃ field, IsFirstRow table field use.1 use.2 := by
  induction used with
  | nil => nofun
  | cons isRow _ ih => exact List.forall_mem_cons.mpr ⟨⟨_, isRow⟩, ih⟩

/-- The mappings that the references use are those of the rows that they use. -/
theorem Uses.eraseDups_eq (used : Uses table found uses) :
    (found.filterMap fun reference => find? table reference.field).eraseDups =
      uses.eraseDups.map Prod.snd := by
  rw [used.filterMap_find?]
  refine map_eraseDups fun first listed second listedSecond same => ?_
  obtain ⟨field, isRow⟩ := used.exists_of_mem first listed
  obtain ⟨other, isOther⟩ := used.exists_of_mem second listedSecond
  rw [same] at isRow
  exact Prod.ext (isRow.row_eq isOther) same

private theorem Replaces.substitute_eq {piece : Piece} {text : List Char}
    (replaced : Replaces table piece text) : substitute table piece = text := by
  cases replaced with
  | char c => rfl
  | reference first => exact substitute_of_find? (find?_eq_some_iff_row.mpr ⟨_, first⟩)

private theorem flatten_replaced {texts : List (List Char)}
    (replaced : List.Forall₂ (Replaces table) pieces texts) :
    texts.flatten = pieces.flatMap (substitute table) := by
  induction replaced with
  | nil => rfl
  | cons own _ ih => rw [List.flatten_cons, List.flatMap_cons, own.substitute_eq, ih]

private theorem exists_replaced (mapped : ∀ reference ∈ pieces.filterMap Piece.reference?,
    ∃ mapping, find? table reference.field = some mapping) :
    ∃ texts, List.Forall₂ (Replaces table) pieces texts := by
  induction pieces with
  | nil => exact ⟨[], .nil⟩
  | cons piece rest ih =>
      cases piece with
      | char c =>
          obtain ⟨texts, replaced⟩ := ih mapped
          exact ⟨[c] :: texts, .cons (.char c) replaced⟩
      | reference found =>
          obtain ⟨⟨mapping, own⟩, others⟩ := List.forall_mem_cons.mp mapped
          obtain ⟨row, isRow⟩ := find?_eq_some_iff_row.mp own
          obtain ⟨texts, replaced⟩ := ih others
          exact ⟨mapping.identifier :: texts, .cons (.reference isRow) replaced⟩

private theorem unmapped?_eq_none_iff :
    unmapped? table formula = none ↔
      ∀ reference ∈ references formula, ∃ mapping, find? table reference.field = some mapping := by
  rw [unmapped?, List.find?_eq_none]
  refine forall₂_congr fun reference _ => ?_
  rw [Bool.not_eq_true, Option.isNone_eq_false_iff, Option.isSome_iff_exists]

private theorem bind_of_used (mapped : unmapped? table formula = none)
    (present : used table formula ≠ []) :
    bind convention table formula = .ok ("=LET(".toList ++
      (used table formula).flatMap (binding convention) ++
      Text.trim (substituted table formula) ++ ")".toList) := by
  rw [bind, mapped]
  cases mappings : used table formula with
  | nil => exact (present mappings).elim
  | cons first others => rfl

/-- Every outcome is what binding gives. -/
theorem Outcome.bind_eq {result : Except LetError (List Char)}
    (outcome : Outcome convention table formula (Piece.ofFormula (body formula)) result) :
    bind convention table formula = result := by
  cases outcome with
  | @unmapped before after reference split mapped missing =>
      have first : unmapped? table formula = some reference := by
        refine List.find?_eq_some_iff_append.mpr ⟨?_, before, after, split, ?_⟩
        · rw [find?_eq_none_iff_row.mpr missing]
          rfl
        · intro earlier listed
          obtain ⟨row, mapping, isRow⟩ := mapped earlier listed
          rw [find?_eq_some_iff_row.mpr ⟨row, isRow⟩]
          rfl
      rw [bind, first]
  | unchanged absent =>
      have none : references formula = [] := absent
      rw [bind, unmapped?, used, none]
      rfl
  | @bound uses rows texts inner present used all order replaced trims =>
      have mapped : unmapped? table formula = none := unmapped?_eq_none_iff.mpr used.mapped
      have bindings : LetBinding.used table formula = rows.map Prod.snd := by
        rw [eq_eraseDups all order]
        exact used.eraseDups_eq
      have nonempty : LetBinding.used table formula ≠ [] := by
        intro empty
        rw [bindings, List.map_eq_nil_iff] at empty
        subst empty
        have unused : uses = [] :=
          List.eq_nil_iff_forall_not_mem.mpr fun use listed =>
            List.not_mem_nil ((all use).mpr listed)
        subst unused
        exact present (List.forall₂_nil_right_iff.mp used)
      rw [bind_of_used mapped nonempty, bindings, substituted_eq, ← flatten_replaced replaced,
        ← Text.trims_iff.mp trims, List.flatMap_map]
      rfl

/-- Binding a formula has an outcome. -/
theorem exists_outcome (convention : Convention) (table : List Mapping) (formula : List Char) :
    ∃ result,
      Outcome convention table formula (Piece.ofFormula (body formula)) result := by
  cases missing : unmapped? table formula with
  | some reference =>
      obtain ⟨absent, before, after, split, mapped⟩ := List.find?_eq_some_iff_append.mp missing
      refine ⟨_, .unmapped split (fun earlier listed => ?_) ?_⟩
      · have known := mapped earlier listed
        rw [Bool.not_eq_true', Option.isNone_eq_false_iff, Option.isSome_iff_exists] at known
        obtain ⟨mapping, found⟩ := known
        obtain ⟨row, isRow⟩ := find?_eq_some_iff_row.mp found
        exact ⟨row, mapping, isRow⟩
      · exact find?_eq_none_iff_row.mp (Option.isNone_iff_eq_none.mp absent)
  | none =>
      have mapped := unmapped?_eq_none_iff.mp missing
      by_cases absent : references formula = []
      · exact ⟨_, .unchanged absent⟩
      · obtain ⟨uses, used⟩ := exists_uses mapped
        obtain ⟨texts, replaced⟩ := exists_replaced mapped
        exact ⟨_, .bound absent used (fun _ => List.mem_eraseDups) (pairwise_eraseDups uses)
          replaced (Text.trims_iff.mpr rfl)⟩

/-- The text between the blanks around a formula, without one leading equals sign, is determined.
So are the pieces to be read from its start, and so is what binding gives: exactly the outcome for
these pieces. -/
theorem bind_outcome (convention : Convention) (table : List Mapping) (formula : List Char) :
    ∃ (text : List Char) (pieces : List Piece),
      (∀ other, IsBody formula other ↔ other = text) ∧
      (∀ others : List Piece,
        others.flatMap Piece.written = text ∧ Piece.Reads [] others [] ↔ others = pieces) ∧
      ∀ result, bind convention table formula = result ↔
        Outcome convention table formula pieces result := by
  have whole := Piece.written_ofFormula (body formula)
  have reads := Piece.reads_ofFormula (body formula)
  refine ⟨body formula, Piece.ofFormula (body formula), fun other => isBody_iff,
    fun others => ⟨?_, ?_⟩, fun result => ⟨?_, ?_⟩⟩
  · rintro ⟨written, otherReads⟩
    exact otherReads.unique reads (written.trans whole.symm)
  · rintro rfl
    exact ⟨whole, reads⟩
  · rintro rfl
    obtain ⟨result, outcome⟩ := exists_outcome convention table formula
    rwa [outcome.bind_eq]
  · exact Outcome.bind_eq

/-- A table with two rows for one field, of which the first is spelled with a blank. -/
def repeatedTable : List Mapping :=
  [⟨"Due Date".toList, "C:C".toList, none, none⟩, ⟨" Status".toList, "B:B".toList, none, none⟩,
    ⟨"status".toList, "D:D".toList, none, none⟩]

/-- Two rows that are used in another order than that of the table, one of them twice, and a text
that looks like a reference. -/
theorem bind_outcome_twice :
    ∃ text pieces,
      IsBody "\t= STATUS@row-[Due Date]@row+Status@row&\"Status@row\" ".toList text ∧
      text = " STATUS@row-[Due Date]@row+Status@row&\"Status@row\"".toList ∧
      pieces.flatMap Piece.written = text ∧ Piece.Reads [] pieces [] ∧
      Outcome .eu repeatedTable
        "\t= STATUS@row-[Due Date]@row+Status@row&\"Status@row\" ".toList pieces
        (.ok ("=LET(_Status; B:B; _Due_Date; C:C; ".toList ++
          "_Status-_Due_Date+_Status&\"Status@row\")".toList)) := by
  obtain ⟨text, pieces, body, reads, outcome⟩ := bind_outcome .eu repeatedTable
    "\t= STATUS@row-[Due Date]@row+Status@row&\"Status@row\" ".toList
  obtain ⟨written, begins⟩ := (reads pieces).mpr rfl
  have own : IsBody "\t= STATUS@row-[Due Date]@row+Status@row&\"Status@row\" ".toList
      " STATUS@row-[Due Date]@row+Status@row&\"Status@row\"".toList :=
    .marked (Text.trims_iff.mpr (by decide +kernel))
  refine ⟨text, pieces, (body text).mpr rfl, ((body _).mp own).symm, written, begins, ?_⟩
  exact (outcome _).mp (by decide +kernel)

end LetBinding

end SheetFormula
