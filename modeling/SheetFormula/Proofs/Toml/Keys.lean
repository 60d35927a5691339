import SheetFormula.Toml.Document
import Mathlib.Data.List.Basic
import Mathlib.Data.List.Nodup

/-!
# The keys of a document

No table of a document has a key twice (`parse?_distinct`): a key is only added to a table in which
it is not found, and everything else replaces what a key stands for.  The readers of values keep the
property for inline tables, and each line keeps it for the tables that headers open.
-/

namespace SheetFormula.Toml

/-- No table inside the node has a key twice. -/
inductive Node.Distinct : Node → Prop where
  | scalar (value : Scalar) : Distinct (.scalar value)
  | array {items : List Node} (each : ∀ item ∈ items, item.Distinct) : Distinct (.array items)
  | table {origin : Origin} {entries : Table} (keys : (entries.map Prod.fst).Nodup)
      (each : ∀ entry ∈ entries, entry.2.Distinct) : Distinct (.table origin entries)
  | tables {items : List Table} (keys : ∀ entries ∈ items, (entries.map Prod.fst).Nodup)
      (each : ∀ entries ∈ items, ∀ entry ∈ entries, entry.2.Distinct) : Distinct (.tables items)

namespace Table

/-- No key stands twice in the table or in a table inside it. -/
structure Distinct (table : Table) : Prop where
  keys : (table.map Prod.fst).Nodup
  each : ∀ entry ∈ table, entry.2.Distinct

variable {table after inner : Table} {key : List Char} {path : List (List Char)} {node : Node}

private theorem distinct_nil : Distinct [] :=
  ⟨.nil, nofun⟩

private theorem not_mem_keys_of_find? (absent : table.find? key = none) :
    key ∉ table.map Prod.fst := by
  intro member
  obtain ⟨entry, inside, rfl⟩ := List.mem_map.mp member
  have other := List.lookup_eq_none_iff.mp absent entry inside
  rw [bne_self_eq_false] at other
  cases other

namespace Distinct

private theorem add (distinct : table.Distinct) (absent : table.find? key = none)
    (own : node.Distinct) : (table.add key node).Distinct := by
  refine ⟨?_, ?_⟩
  · rw [Table.add, List.map_append, List.map_singleton, ← List.concat_eq_append]
    exact distinct.keys.concat (not_mem_keys_of_find? absent)
  · exact List.forall_mem_append.mpr ⟨distinct.each, List.forall_mem_singleton.mpr own⟩

private theorem replace (distinct : table.Distinct) (own : node.Distinct) :
    (table.replace key node).Distinct := by
  refine ⟨?_, ?_⟩
  · have same : (table.replace key node).map Prod.fst = table.map Prod.fst := by
      rw [Table.replace, List.map_map]
      refine List.map_congr_left fun entry _ => ?_
      by_cases here : entry.1 = key
      · simp [here]
      · simp [here]
    rw [same]
    exact distinct.keys
  · intro entry member
    obtain ⟨old, inside, rfl⟩ := List.mem_map.mp member
    split
    · exact own
    · exact distinct.each old inside

private theorem find? (distinct : table.Distinct) (found : table.find? key = some node) :
    node.Distinct := by
  obtain ⟨before, behind, rfl, _⟩ := List.lookup_eq_some_iff.mp found
  exact distinct.each (key, node) (by simp)

/-- The table that a key stands for. -/
theorem find?_table {origin : Origin} (distinct : table.Distinct)
    (found : table.find? key = some (.table origin inner)) : inner.Distinct := by
  cases distinct.find? found with
  | table keys each => exact ⟨keys, each⟩

private theorem toNode (distinct : table.Distinct) (origin : Origin) :
    Node.Distinct (.table origin table) :=
  .table distinct.keys distinct.each

private theorem find?_latest {latest : Table} {earlier : List Table} (distinct : table.Distinct)
    (found : table.find? key = some (.tables (latest :: earlier))) : latest.Distinct := by
  cases distinct.find? found with
  | tables keys each => exact ⟨keys latest List.mem_cons_self, each latest List.mem_cons_self⟩

/-- A new key may stand for any table in which no key stands twice. -/
theorem of_added {changed : Option Table} {origin : Origin} (distinct : table.Distinct)
    (absent : table.find? key = none) (inside : ∀ inner, changed = some inner → inner.Distinct)
    (added : changed.map (fun inner => table.add key (.table origin inner)) = some after) :
    after.Distinct := by
  obtain ⟨inner, result, rfl⟩ := Option.map_eq_some_iff.mp added
  exact distinct.add absent ((inside inner result).toNode origin)

/-- The table that a key stands for may be changed. -/
theorem of_replaced {changed : Option Table} {origin : Origin} (distinct : table.Distinct)
    (inside : ∀ inner, changed = some inner → inner.Distinct)
    (replaced : changed.map (fun inner => table.replace key (.table origin inner)) = some after) :
    after.Distinct := by
  obtain ⟨inner, result, rfl⟩ := Option.map_eq_some_iff.mp replaced
  exact distinct.replace ((inside inner result).toNode origin)

/-- The latest of the tables that a key stands for may be changed. -/
theorem of_latest {changed : Option Table} {latest : Table} {earlier : List Table}
    (distinct : table.Distinct) (found : table.find? key = some (.tables (latest :: earlier)))
    (inside : ∀ inner, changed = some inner → inner.Distinct)
    (replaced : changed.map (fun inner => table.replace key (.tables (inner :: earlier))) =
      some after) : after.Distinct := by
  obtain ⟨inner, result, rfl⟩ := Option.map_eq_some_iff.mp replaced
  have own := inside inner result
  refine distinct.replace ?_
  cases distinct.find? found with
  | tables keys each =>
      exact .tables
        (List.forall_mem_cons.mpr ⟨own.keys, (List.forall_mem_cons.mp keys).2⟩)
        (List.forall_mem_cons.mpr ⟨own.each, (List.forall_mem_cons.mp each).2⟩)

private theorem define (distinct : table.Distinct) (own : node.Distinct)
    (defined : Table.define path node table = some after) : after.Distinct := by
  fun_induction Table.define path node table generalizing after with
  | case1 => cases defined
  | case2 key node table absent =>
      obtain rfl := Option.some.inj defined
      exact distinct.add (Option.isNone_iff_eq_none.mp absent) own
  | case3 => cases defined
  | case4 key path node table _ absent ih =>
      exact distinct.of_added absent (fun _ => ih distinct_nil own) defined
  | case5 key path node table _ inner found ih | case6 key path node table _ inner found ih =>
      exact distinct.of_replaced (fun _ => ih (distinct.find?_table found) own) defined
  | case7 => cases defined

private theorem openTable (distinct : table.Distinct)
    (opened : Table.openTable path table = some after) : after.Distinct := by
  fun_induction Table.openTable path table generalizing after with
  | case1 | case4 | case6 | case9 => cases opened
  | case2 key table absent =>
      obtain rfl := Option.some.inj opened
      exact distinct.add absent (distinct_nil.toNode .header)
  | case3 key table inner found =>
      obtain rfl := Option.some.inj opened
      exact distinct.replace ((distinct.find?_table found).toNode .header)
  | case5 key path table _ absent ih =>
      exact distinct.of_added absent (fun _ => ih distinct_nil) opened
  | case7 key path table _ origin inner _ found ih =>
      exact distinct.of_replaced (fun _ => ih (distinct.find?_table found)) opened
  | case8 key path table _ latest earlier found ih =>
      exact distinct.of_latest found (fun _ => ih (distinct.find?_latest found)) opened

private theorem openItem (distinct : table.Distinct)
    (opened : Table.openItem path table = some after) : after.Distinct := by
  fun_induction Table.openItem path table generalizing after with
  | case1 | case4 | case6 | case9 => cases opened
  | case2 key table absent =>
      obtain rfl := Option.some.inj opened
      exact distinct.add absent (.tables (List.forall_mem_singleton.mpr .nil)
        (List.forall_mem_singleton.mpr nofun))
  | case3 key table items found =>
      obtain rfl := Option.some.inj opened
      cases distinct.find? found with
      | tables keys each =>
          exact distinct.replace (.tables (List.forall_mem_cons.mpr ⟨.nil, keys⟩)
            (List.forall_mem_cons.mpr ⟨nofun, each⟩))
  | case5 key path table _ absent ih =>
      exact distinct.of_added absent (fun _ => ih distinct_nil) opened
  | case7 key path table _ origin inner _ found ih =>
      exact distinct.of_replaced (fun _ => ih (distinct.find?_table found)) opened
  | case8 key path table _ latest earlier found ih =>
      exact distinct.of_latest found (fun _ => ih (distinct.find?_latest found)) opened

private theorem within {change : Table → Option Table} (distinct : table.Distinct)
    (keeps : ∀ inner changed : Table, inner.Distinct → change inner = some changed →
      changed.Distinct)
    (result : Table.within change path table = some after) : after.Distinct := by
  fun_induction Table.within change path table generalizing after with
  | case1 table => exact keeps table after distinct result
  | case2 key path table origin inner found ih =>
      exact distinct.of_replaced (fun _ => ih (distinct.find?_table found)) result
  | case3 key path table latest earlier found ih =>
      exact distinct.of_latest found (fun _ => ih (distinct.find?_latest found)) result
  | case4 => cases result

end Distinct

end Table

/-- With this fuel, the readers of values make no table with a key twice. -/
structure ReadDistinct (fuel : Nat) : Prop where
  nodes : ∀ text node rest, readNode fuel text = some (node, rest) → node.Distinct
  items : ∀ text items rest, readItems fuel text = some (items, rest) →
    ∀ item ∈ items, item.Distinct
  entries : ∀ (table : Table) text after rest, table.Distinct →
    readEntries fuel table text = some (after, rest) → after.Distinct

namespace ReadDistinct

variable {fuel : Nat} {text rest : List Char} {node : Node} {found : List Node}
  {table after : Table}

private theorem readNode (reads : ReadDistinct fuel)
    (read : Toml.readNode (fuel + 1) text = some (node, rest)) : node.Distinct := by
  unfold Toml.readNode at read
  split at read
  · obtain ⟨⟨found, _⟩, inside, same⟩ := Option.map_eq_some_iff.mp read
    obtain ⟨rfl, rfl⟩ := Prod.mk.inj same
    exact .array (reads.items _ _ _ inside)
  · split at read
    · obtain ⟨rfl, rfl⟩ := Prod.mk.inj (Option.some.inj read)
      exact Table.distinct_nil.toNode .inline
    · obtain ⟨⟨found, _⟩, inside, same⟩ := Option.map_eq_some_iff.mp read
      obtain ⟨rfl, rfl⟩ := Prod.mk.inj same
      exact (reads.entries _ _ _ _ Table.distinct_nil inside).toNode .inline
  · obtain ⟨⟨value, _⟩, _, same⟩ := Option.map_eq_some_iff.mp read
    obtain ⟨rfl, rfl⟩ := Prod.mk.inj same
    exact .scalar value

private theorem readItems (reads : ReadDistinct fuel)
    (read : Toml.readItems (fuel + 1) text = some (found, rest)) :
    ∀ item ∈ found, item.Distinct := by
  unfold Toml.readItems at read
  obtain ⟨started, _, read⟩ := Option.bind_eq_some_iff.mp read
  split at read
  · obtain ⟨rfl, rfl⟩ := Prod.mk.inj (Option.some.inj read)
    exact List.forall_mem_nil _
  · obtain ⟨⟨item, behind⟩, first, read⟩ := Option.bind_eq_some_iff.mp read
    obtain ⟨further, _, read⟩ := Option.bind_eq_some_iff.mp read
    have own := reads.nodes _ _ _ first
    split at read
    · obtain ⟨⟨others, _⟩, inside, same⟩ := Option.bind_eq_some_iff.mp read
      obtain ⟨rfl, rfl⟩ := Prod.mk.inj (Option.some.inj same)
      exact List.forall_mem_cons.mpr ⟨own, reads.items _ _ _ inside⟩
    · obtain ⟨rfl, rfl⟩ := Prod.mk.inj (Option.some.inj read)
      exact List.forall_mem_singleton.mpr own
    · cases read

private theorem readEntries (reads : ReadDistinct fuel) (distinct : table.Distinct)
    (read : Toml.readEntries (fuel + 1) table text = some (after, rest)) : after.Distinct := by
  unfold Toml.readEntries at read
  obtain ⟨⟨path, behind⟩, _, read⟩ := Option.bind_eq_some_iff.mp read
  dsimp only at read
  split at read
  · obtain ⟨⟨node, _⟩, first, read⟩ := Option.bind_eq_some_iff.mp read
    obtain ⟨grown, defined, read⟩ := Option.bind_eq_some_iff.mp read
    have kept := distinct.define (reads.nodes _ _ _ first) defined
    split at read
    · exact reads.entries _ _ _ _ kept read
    · obtain ⟨rfl, rfl⟩ := Prod.mk.inj (Option.some.inj read)
      exact kept
    · cases read
  · cases read

end ReadDistinct

private theorem readers_distinct (fuel : Nat) : ReadDistinct fuel := by
  induction fuel with
  | zero => exact ⟨nofun, nofun, nofun⟩
  | succ fuel ih =>
      exact ⟨fun _ _ _ => ih.readNode, fun _ _ _ => ih.readItems, fun _ _ _ _ => ih.readEntries⟩

namespace Document

variable {document after : Document} {fuel : Nat} {text rest : List Char}

/-- No table of the document has a key twice, however a line changes it. -/
theorem readLine_distinct (distinct : document.root.Distinct)
    (read : document.readLine fuel text = some (after, rest)) : after.root.Distinct := by
  unfold readLine at read
  split at read
  · obtain ⟨⟨path, behind⟩, _, read⟩ := Option.bind_eq_some_iff.mp read
    split at read
    · obtain ⟨root, opened, same⟩ := Option.bind_eq_some_iff.mp read
      obtain ⟨rfl, rfl⟩ := Prod.mk.inj (Option.some.inj same)
      exact distinct.openItem opened
    · cases read
  · obtain ⟨⟨path, behind⟩, _, read⟩ := Option.bind_eq_some_iff.mp read
    split at read
    · obtain ⟨root, opened, same⟩ := Option.bind_eq_some_iff.mp read
      obtain ⟨rfl, rfl⟩ := Prod.mk.inj (Option.some.inj same)
      exact distinct.openTable opened
    · cases read
  · obtain ⟨⟨path, behind⟩, _, read⟩ := Option.bind_eq_some_iff.mp read
    dsimp only at read
    split at read
    · obtain ⟨⟨node, _⟩, value, read⟩ := Option.bind_eq_some_iff.mp read
      obtain ⟨root, defined, same⟩ := Option.bind_eq_some_iff.mp read
      obtain ⟨rfl, rfl⟩ := Prod.mk.inj (Option.some.inj same)
      have own := (readers_distinct (2 * fuel)).nodes _ _ _ value
      exact distinct.within (fun _ _ inner => inner.define own) defined
    · cases read

private theorem readLines_distinct (distinct : document.root.Distinct)
    (read : readLines fuel document text = some after) : after.root.Distinct := by
  induction fuel generalizing document text with
  | zero => cases read
  | succ fuel ih =>
      unfold readLines at read
      obtain ⟨started, _, read⟩ := Option.bind_eq_some_iff.mp read
      split at read
      · obtain rfl := Option.some.inj read
        exact distinct
      · obtain ⟨⟨next, behind⟩, line, read⟩ := Option.bind_eq_some_iff.mp read
        obtain ⟨further, _, read⟩ := Option.bind_eq_some_iff.mp read
        exact ih (readLine_distinct distinct line) read

end Document

/-- No key stands twice in a document that can be read, nor in a table inside it. -/
theorem parse?_distinct {text : List Char} {table : Table} (read : parse? text = some table) :
    table.Distinct := by
  obtain ⟨document, lines, rfl⟩ := Option.map_eq_some_iff.mp read
  exact Document.readLines_distinct Table.distinct_nil lines

end SheetFormula.Toml
