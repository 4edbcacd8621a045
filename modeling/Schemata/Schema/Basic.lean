import Schemata.OrderedMap
import Schemata.Schema.Field

/-!
# Schemas

A schema is a map of tables and a table a map of columns, both in the order of declaration. A
table or column may carry a *marker*: the name it had before, set as long as its renaming is
pending. A schema without markers is *canonical*; it is what is kept between two migrations.

## Main definitions

* `Column`, `Table`, `Schema`: the declarations
* `Schema.canonical`, `Schema.isCanonical`: removal of the markers, and their absence
* `Schema.field?`: the field behind a reference
* `isReserved`: the names that are kept for internal use

## Main results

* `Schema.isCanonical_canonical`, `Schema.canonical_eq_self`: the canonical form has no
  markers, and a schema without markers is its own canonical form
* `Schema.table?_insertTable`, `Table.field?_insertColumn` and their like: what a look-up sees
  after a change
-/

namespace Schemata

/-- The start of the names that are kept for internal use. -/
def reservedStart : String := "__"

/-- Whether a name is kept for internal use. -/
def isReserved (name : String) : Bool := Text.startsWith name reservedStart

/-- A column: its field, and its previous name while it is being renamed. -/
structure Column where
  /-- What the column is. -/
  field : Field
  /-- The previous name, as long as the renaming is pending. -/
  renamedFrom : Option String := none
  deriving DecidableEq

/-- A table: its columns, and its previous name while it is being renamed. -/
structure Table where
  /-- The columns in order of declaration. -/
  columns : OrderedMap Column := ∅
  /-- The previous name, as long as the renaming is pending. -/
  renamedFrom : Option String := none
  deriving DecidableEq

/-- A schema: its tables in order of declaration. -/
structure Schema where
  /-- The tables in order of declaration. -/
  tables : OrderedMap Table := ∅
  deriving DecidableEq

namespace Column

/-- The column without its marker. -/
def canonical (column : Column) : Column := ⟨column.field, none⟩

/-- Whether the column has no marker. -/
def isCanonical (column : Column) : Bool := column.renamedFrom.isNone

theorem canonical_eq_self_iff {column : Column} :
    column.canonical = column ↔ column.isCanonical := by
  cases column with
  | mk field marker => cases marker <;> simp [canonical, isCanonical]

end Column

namespace Table

/-- The table without columns. -/
def empty : Table := {}

/-- The table with a further column; a column of the same name is replaced in its place. -/
def insertColumn (table : Table) (name : String) (column : Column) : Table :=
  { table with columns := table.columns.insert name column }

/-- The table without a column. -/
def eraseColumn (table : Table) (name : String) : Table :=
  { table with columns := table.columns.erase name }

/-- The field of a column. -/
def field? (table : Table) (name : String) : Option Field :=
  (table.columns.find? name).map Column.field

/-- The table without its marker and without those of its columns. -/
def canonical (table : Table) : Table := ⟨table.columns.map Column.canonical, none⟩

/-- Whether neither the table nor a column of it has a marker. -/
def isCanonical (table : Table) : Bool :=
  table.renamedFrom.isNone && table.columns.values.all Column.isCanonical

end Table

namespace Schema

/-- The schema without tables. -/
def empty : Schema := {}

/-- The schema with a further table; a table of the same name is replaced in its place. -/
def insertTable (schema : Schema) (name : String) (table : Table) : Schema :=
  { schema with tables := schema.tables.insert name table }

/-- The schema without a table. -/
def eraseTable (schema : Schema) (name : String) : Schema :=
  { schema with tables := schema.tables.erase name }

/-- The table of a name. -/
def table? (schema : Schema) (name : String) : Option Table := schema.tables.find? name

/-- The schema with one of its tables changed, if it has a table of that name. -/
def updateTable? (schema : Schema) (name : String) (update : Table → Table) : Option Schema :=
  (schema.table? name).map fun table => schema.insertTable name (update table)

/-- The field behind a reference. -/
def field? (schema : Schema) (ref : ColumnRef) : Option Field :=
  (schema.table? ref.table).bind fun table => table.field? ref.column

/-- The fields of a table by their names, if there is the table. -/
def fieldsOf? (schema : Schema) (name : String) : Option (String → Option Field) :=
  (schema.table? name).map Table.field?

/-- The schema without markers. -/
def canonical (schema : Schema) : Schema := ⟨schema.tables.map Table.canonical⟩

/-- Whether the schema has no markers. -/
def isCanonical (schema : Schema) : Bool := schema.tables.values.all Table.isCanonical

end Schema

namespace Table

theorem canonical_eq_self_iff {table : Table} : table.canonical = table ↔ table.isCanonical := by
  obtain ⟨columns, marker⟩ := table
  simp only [canonical, isCanonical, mk.injEq, Bool.and_eq_true, List.all_eq_true,
    OrderedMap.map_eq_self_iff, Column.canonical_eq_self_iff, Option.isNone_iff_eq_none]
  exact ⟨fun h => ⟨h.2.symm, h.1⟩, fun h => ⟨h.2, h.1.symm⟩⟩

theorem field?_eq_none_iff {table : Table} {name : String} :
    table.field? name = none ↔ name ∉ table.columns.names := by
  rw [field?, Option.map_eq_none_iff, OrderedMap.find?_eq_none_iff]

theorem field?_of_find? {table : Table} {name : String} {column : Column}
    (h : table.columns.find? name = some column) : table.field? name = some column.field := by
  rw [field?, h, Option.map_some]

theorem mem_names_of_field? {table : Table} {name : String} {field : Field}
    (h : table.field? name = some field) : name ∈ table.columns.names := by
  rw [← Decidable.not_not (p := name ∈ _), ← field?_eq_none_iff, h]
  simp

theorem mem_names_iff_of_field?_eq {left right : Table} {name : String}
    (h : left.field? name = right.field? name) :
    name ∈ left.columns.names ↔ name ∈ right.columns.names := by
  rw [← Decidable.not_iff_not, ← field?_eq_none_iff, ← field?_eq_none_iff, h]

theorem field?_insertColumn (table : Table) (name other : String) (column : Column) :
    (table.insertColumn name column).field? other =
      if name = other then some column.field else table.field? other := by
  simp only [field?, insertColumn, OrderedMap.find?_insert]
  split <;> rfl

theorem field?_eraseColumn (table : Table) (name other : String) :
    (table.eraseColumn name).field? other =
      if name = other then none else table.field? other := by
  simp only [field?, eraseColumn, OrderedMap.find?_erase]
  split <;> rfl

/-- Markers do not touch the fields. -/
@[simp] theorem field?_canonical (table : Table) (name : String) :
    table.canonical.field? name = table.field? name := by
  simp only [field?, canonical, OrderedMap.find?_map, Option.map_map]
  rfl

end Table

namespace Schema

/-- A schema is canonical exactly if it is its own canonical form. -/
theorem canonical_eq_self_iff {schema : Schema} :
    schema.canonical = schema ↔ schema.isCanonical := by
  obtain ⟨tables⟩ := schema
  simp only [canonical, isCanonical, mk.injEq, List.all_eq_true, OrderedMap.map_eq_self_iff,
    Table.canonical_eq_self_iff]

/-- The canonical form is canonical. -/
theorem isCanonical_canonical (schema : Schema) : schema.canonical.isCanonical := by
  simp only [isCanonical, canonical, OrderedMap.values, OrderedMap.map, Entries.mapValues,
    List.map_map, List.all_map, List.all_eq_true, Function.comp]
  intro e _
  simp [Table.isCanonical, Table.canonical, OrderedMap.values, OrderedMap.map, Entries.mapValues,
    Column.isCanonical, Column.canonical]

theorem mem_names_iff_table? {schema : Schema} {name : String} :
    name ∈ schema.tables.names ↔ ∃ table, schema.table? name = some table :=
  OrderedMap.mem_names_iff

theorem table?_insertTable (schema : Schema) (name other : String) (table : Table) :
    (schema.insertTable name table).table? other =
      if name = other then some table else schema.table? other :=
  OrderedMap.find?_insert ..

theorem field?_insertTable (schema : Schema) (name : String) (table : Table) (ref : ColumnRef) :
    (schema.insertTable name table).field? ref =
      if name = ref.table then table.field? ref.column else schema.field? ref := by
  rw [field?, table?_insertTable]
  split <;> rfl

theorem table?_eraseTable (schema : Schema) (name other : String) :
    (schema.eraseTable name).table? other = if name = other then none else schema.table? other :=
  OrderedMap.find?_erase ..

@[simp] theorem table?_canonical (schema : Schema) (name : String) :
    schema.canonical.table? name = (schema.table? name).map Table.canonical :=
  OrderedMap.find?_map ..

theorem fieldsOf?_of_find? {schema : Schema} {name : String} {table : Table}
    (h : schema.tables.find? name = some table) : schema.fieldsOf? name = some table.field? := by
  rw [fieldsOf?, table?, h, Option.map_some]

theorem field?_of_find? {schema : Schema} {name : String} {table : Table}
    (h : schema.tables.find? name = some table) (column : String) :
    schema.field? ⟨name, column⟩ = table.field? column := by
  rw [field?, table?, h, Option.bind_some]

theorem fieldsOf?_eq_none_iff {schema : Schema} {name : String} :
    schema.fieldsOf? name = none ↔ name ∉ schema.tables.names := by
  rw [fieldsOf?, table?, Option.map_eq_none_iff, OrderedMap.find?_eq_none_iff]

theorem mem_names_iff_of_fieldsOf?_eq {left right : Schema} {name : String}
    (h : left.fieldsOf? name = right.fieldsOf? name) :
    name ∈ left.tables.names ↔ name ∈ right.tables.names := by
  rw [← Decidable.not_iff_not, ← fieldsOf?_eq_none_iff, ← fieldsOf?_eq_none_iff, h]

theorem field?_eq_bind_fieldsOf? (schema : Schema) (ref : ColumnRef) :
    schema.field? ref = (schema.fieldsOf? ref.table).bind fun fields => fields ref.column := by
  rw [field?, fieldsOf?, Option.bind_map]
  rfl

@[simp] theorem fieldsOf?_canonical (schema : Schema) (name : String) :
    schema.canonical.fieldsOf? name = schema.fieldsOf? name := by
  simp only [fieldsOf?, table?_canonical, Option.map_map]
  congr 1
  funext table column
  exact Table.field?_canonical table column

theorem field?_canonical (schema : Schema) (ref : ColumnRef) :
    schema.canonical.field? ref = schema.field? ref := by
  rw [field?_eq_bind_fieldsOf?, fieldsOf?_canonical, ← field?_eq_bind_fieldsOf?]

end Schema

end Schemata
