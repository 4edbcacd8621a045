import Mathlib.Logic.Function.Basic
import Schemata.Ddl.Statement
import Schemata.Proofs.Locality

/-!
# The indexes of a database

A database knows each of its indexes by the name that it was created with. A table that gets another
name keeps its indexes, and they keep theirs; the statements, however, speak of an index by the name
that it would have been created with by now.

## Main definitions

* `LiveIndexes`: the names of the indexes, with the tables that own them
* `LiveIndexes.exec?`, `LiveIndexes.run?`: what statements do to them
* `Table.indexNames`, `Schema.indexNames`: the names of the indexes that are declared
* `LiveIndexes.InStep`: the indexes are those that a schema declares

## Main results

* `indexName_inj`: the indexes of a table differ in their names
* `Schema.eq_of_mem_indexNames`: so do those of two tables, if no name is declared twice
-/

namespace Schemata

/-- The indexes of a database: the table that owns each, by its name. -/
abbrev LiveIndexes : Type := String → Option String

namespace LiveIndexes

/-- The indexes after a statement, if it can be executed: an index that is created needs a name that
is free, and one that is dropped has to be there. The indexes of a table go with it. -/
def exec? (live : LiveIndexes) : Statement → Option LiveIndexes
  | .createIndex table column _ =>
    match live (indexName table column) with
    | none => some (Function.update live (indexName table column) (some table))
    | some _ => none
  | .dropIndex table column =>
      (live (indexName table column)).map fun _ =>
        Function.update live (indexName table column) none
  | .dropTable name => some fun n => if live n = some name then none else live n
  | .renameTable source target => some fun n => if live n = some source then some target else live n
  | .createTable _ _ _ | .addColumn _ _ _ | .renameColumn _ _ _ | .dropColumn _ _ => some live

/-- The indexes after several statements, one after the other. -/
def run? (live : LiveIndexes) (statements : List Statement) : Option LiveIndexes :=
  statements.foldlM exec? live

/-- The database without indexes. -/
def none : LiveIndexes := fun _ => .none

end LiveIndexes

/-- The names that the indexes of a table of the given name are declared to have. -/
def Table.indexNames (table : Table) (name : String) : List String :=
  table.indexes.map fun (column, _) => indexName name column

/-- The names that the indexes of a schema are declared to have. -/
def Schema.indexNames (schema : Schema) : List String :=
  schema.tables.entries.flatMap fun (name, table) => table.indexNames name

/-- The indexes of the database are those that the schema declares, each owned by its table. -/
def LiveIndexes.InStep (live : LiveIndexes) (schema : Schema) : Prop :=
  ∀ n owner, live n = some owner ↔
    ∃ table, schema.table? owner = some table ∧ n ∈ table.indexNames owner

/-- Whether a column is an index. -/
def Field.isIndex (field : Field) : Bool := field.kind == .index

/-- Whether a table has an index of the given name of a column. -/
def Table.hasIndex (table : Table) (column : String) : Bool :=
  (table.field? column).any Field.isIndex

section Declared

variable {table : Table} {schema : Schema} {name other column n : String}

/-- An index is known by its column within a table. -/
theorem indexName_inj {column' : String} :
    indexName name column = indexName name column' ↔ column = column' := by
  simp [indexName]

theorem Table.hasIndex_iff : table.hasIndex column = true ↔
    ∃ definition, table.field? column = some (.index definition) := by
  unfold hasIndex
  cases table.field? column with
  | none => simp
  | some field => cases field <;> simp [Field.isIndex, Field.kind]

theorem Table.hasIndex_of_find? {c : Column} (h : table.columns.find? column = some c) :
    table.hasIndex column = c.field.isIndex := by
  simp [hasIndex, field?, h]

theorem Table.hasIndex_of_not_mem (h : column ∉ table.columns.names) :
    table.hasIndex column = false := by
  simp [hasIndex, field?, OrderedMap.find?_eq_none_iff.2 h]

theorem Table.mem_indexNames_iff : n ∈ table.indexNames name ↔
    ∃ column, table.hasIndex column = true ∧ indexName name column = n := by
  simp only [indexNames, List.mem_map, Prod.exists, mem_indexes_iff, hasIndex_iff]
  constructor
  · rintro ⟨column, definition, hfield, rfl⟩
    exact ⟨column, ⟨definition, hfield⟩, rfl⟩
  · rintro ⟨column, ⟨definition, hfield⟩, rfl⟩
    exact ⟨column, definition, hfield, rfl⟩

theorem Table.nodup_indexNames : (table.indexNames name).Nodup := by
  have hnames : table.indexNames name = (Entries.names table.indexes).map (indexName name) := by
    simp [indexNames, Entries.names, Function.comp_def]
  rw [hnames]
  exact table.nodup_names_indexes.map fun _ _ h => indexName_inj.1 h

theorem Schema.indexNames_canonical : schema.canonical.indexNames = schema.indexNames := by
  simp only [indexNames, canonical, OrderedMap.map, Entries.mapValues, List.flatMap_map,
    Table.indexNames, Table.indexes_canonical]

@[simp] theorem Table.indexNames_canonical :
    table.canonical.indexNames name = table.indexNames name := by
  rw [indexNames, indexes_canonical, ← indexNames]

theorem LiveIndexes.inStep_canonical_iff {live : LiveIndexes} :
    live.InStep schema.canonical ↔ live.InStep schema := by
  refine forall₂_congr fun n owner => iff_congr .rfl ?_
  rw [Schema.table?_canonical]
  cases schema.table? owner <;> simp

/-- If no name is declared twice, a name tells whose index it is. -/
theorem Schema.eq_of_mem_indexNames (hnodup : schema.indexNames.Nodup) {before after : Table}
    (hname : schema.table? name = some before) (hother : schema.table? other = some after)
    (hn : n ∈ before.indexNames name) (hn' : n ∈ after.indexNames other) : name = other :=
  congrArg Prod.fst (eq_of_mem_flatMap hnodup (OrderedMap.mem_entries_iff.2 hname)
    (OrderedMap.mem_entries_iff.2 hother) hn hn')

end Declared

end Schemata
