import Schemata.Schema.Basic
import Schemata.Text.Layout

/-!
# Statements that define data

The statements by which a database is brought from one schema to the next, and their SQL text.

## Main definitions

* `Statement`: the statements
* `Statement.render`: the SQL text of a statement
* `Statement.creating`: the statements that create a table with its indexes
* `indexName`: the name of the index that a column declares
* `Table.selected`: the columns whose fields are selected; the atoms, the constraints and the
  indexes of a table are such lists
-/

namespace Schemata

/-- A statement of a migration. -/
inductive Statement
  /-- Creates a table with stored columns and constraints, in order. -/
  | createTable (name : String) (columns : List (String × Atom))
      (constraints : List (String × String))
  /-- Gives a table another name. -/
  | renameTable (source target : String)
  /-- Removes a table. -/
  | dropTable (name : String)
  /-- Adds a stored column to a table. -/
  | addColumn (table name : String) (atom : Atom)
  /-- Gives a column another name. -/
  | renameColumn (table source target : String)
  /-- Removes a column. -/
  | dropColumn (table name : String)
  /-- Creates the index that a column of a table declares. -/
  | createIndex (table column definition : String)
  /-- Removes the index that a column of a table declares. -/
  | dropIndex (table column : String)
  deriving DecidableEq

/-- The name of the index that a column of a table declares. -/
def indexName (table column : String) : String := table ++ "_" ++ column

namespace Statement

/-- The list of columns of an index: the definition, in parentheses unless it has one. -/
def indexColumns (definition : String) : String :=
  if definition.toList.contains '(' then definition else "(" ++ definition ++ ")"

/-- The definition of a stored column: its name, its type and its constraints, without blanks at
the end. -/
def columnDefinition (name : String) (atom : Atom) : String :=
  Text.endTrimmed (name ++ " " ++ atom.sqlType ++ " " ++ atom.constraints)

/-- The SQL text of the statement. -/
def render : Statement → String
  | createTable name columns constraints =>
      let parts := columns.map (fun (column, atom) => columnDefinition column atom)
        ++ constraints.map fun (column, definition) => "CONSTRAINT " ++ column ++ " " ++ definition
      "CREATE TABLE " ++ name ++ " (\n\t" ++ String.intercalate ",\n\t" parts ++ "\n);"
  | renameTable source target => "ALTER TABLE " ++ source ++ " RENAME TO " ++ target ++ ";"
  | dropTable name => "DROP TABLE " ++ name ++ ";"
  | addColumn table name atom =>
      "ALTER TABLE " ++ table ++ " ADD COLUMN " ++ columnDefinition name atom ++ ";"
  | renameColumn table source target =>
      "ALTER TABLE " ++ table ++ " RENAME COLUMN " ++ source ++ " TO " ++ target ++ ";"
  | dropColumn table name => "ALTER TABLE " ++ table ++ " DROP COLUMN " ++ name ++ ";"
  | createIndex table column definition =>
      "CREATE INDEX " ++ indexName table column ++ " ON " ++ table ++ " "
        ++ indexColumns definition ++ ";"
  | dropIndex table column => "DROP INDEX " ++ indexName table column ++ ";"

end Statement

namespace Table

/-- The stored columns in order. -/
def atoms (table : Table) : List (String × Atom) :=
  table.columns.entries.filterMap fun (name, column) =>
    match column.field with
    | .atom a => some (name, a)
    | _ => none

/-- The constraints in order. -/
def constraints (table : Table) : List (String × String) :=
  table.columns.entries.filterMap fun (name, column) =>
    match column.field with
    | .constraint definition => some (name, definition)
    | _ => none

/-- The indexes in order. -/
def indexes (table : Table) : List (String × String) :=
  table.columns.entries.filterMap fun (name, column) =>
    match column.field with
    | .index definition => some (name, definition)
    | _ => none

/-- The columns whose fields are selected, with what is made of them, in order. -/
def selected {β : Type} (f : Field → Option β) (table : Table) : List (String × β) :=
  table.columns.entries.filterMap fun e => (f e.2.field).map (e.1, ·)

section Selected

variable {β : Type} {f : Field → Option β} {table : Table} {name : String}

theorem mem_selected_iff {b : β} :
    (name, b) ∈ table.selected f ↔ ∃ field, table.field? name = some field ∧ f field = some b := by
  simp only [selected, List.mem_filterMap, Prod.exists, OrderedMap.mem_entries_iff, field?,
    Option.map_eq_some_iff, Prod.mk.injEq]
  constructor
  · rintro ⟨n, column, hcolumn, b, hb, rfl, rfl⟩
    exact ⟨column.field, ⟨column, hcolumn, rfl⟩, hb⟩
  · rintro ⟨_, ⟨column, hcolumn, rfl⟩, hb⟩
    exact ⟨name, column, hcolumn, b, hb, rfl, rfl⟩

theorem nodup_names_selected : (Entries.names (table.selected f)).Nodup :=
  Entries.nodup_names_filterMap table.columns.nodup fun column => f column.field

/-- Markers do not touch what is selected. -/
theorem selected_canonical : table.canonical.selected f = table.selected f := by
  simp only [selected, canonical, OrderedMap.map, Entries.mapValues, List.filterMap_map]
  rfl

theorem atoms_eq_selected :
    table.atoms = table.selected fun | .atom a => some a | _ => none := by
  refine congrFun (congrArg List.filterMap (funext fun ⟨name, column⟩ => ?_)) _
  cases hfield : column.field <;> simp [hfield]

theorem constraints_eq_selected : table.constraints =
    table.selected fun | .constraint definition => some definition | _ => none := by
  refine congrFun (congrArg List.filterMap (funext fun ⟨name, column⟩ => ?_)) _
  cases hfield : column.field <;> simp [hfield]

theorem indexes_eq_selected :
    table.indexes = table.selected fun | .index definition => some definition | _ => none := by
  refine congrFun (congrArg List.filterMap (funext fun ⟨name, column⟩ => ?_)) _
  cases hfield : column.field <;> simp [hfield]

theorem mem_atoms_iff {a : Atom} :
    (name, a) ∈ table.atoms ↔ table.field? name = some (.atom a) := by
  rw [atoms_eq_selected, mem_selected_iff]
  constructor
  · rintro ⟨_ | _, hfield, ⟨⟩⟩
    exact hfield
  · exact fun hfield => ⟨_, hfield, rfl⟩

theorem mem_constraints_iff {definition : String} :
    (name, definition) ∈ table.constraints ↔ table.field? name = some (.constraint definition) := by
  rw [constraints_eq_selected, mem_selected_iff]
  constructor
  · rintro ⟨_ | _, hfield, ⟨⟩⟩
    exact hfield
  · exact fun hfield => ⟨_, hfield, rfl⟩

theorem mem_indexes_iff {definition : String} :
    (name, definition) ∈ table.indexes ↔ table.field? name = some (.index definition) := by
  rw [indexes_eq_selected, mem_selected_iff]
  constructor
  · rintro ⟨_ | _, hfield, ⟨⟩⟩
    exact hfield
  · exact fun hfield => ⟨_, hfield, rfl⟩

/-- Markers do not touch the stored columns. -/
theorem atoms_canonical : table.canonical.atoms = table.atoms := by
  rw [atoms_eq_selected, atoms_eq_selected, selected_canonical]

/-- Markers do not touch constraints. -/
theorem constraints_canonical : table.canonical.constraints = table.constraints := by
  rw [constraints_eq_selected, constraints_eq_selected, selected_canonical]

/-- Markers do not touch indexes. -/
theorem indexes_canonical : table.canonical.indexes = table.indexes := by
  rw [indexes_eq_selected, indexes_eq_selected, selected_canonical]

theorem nodup_names_atoms : (Entries.names table.atoms).Nodup := by
  rw [atoms_eq_selected]
  exact nodup_names_selected

theorem nodup_names_constraints : (Entries.names table.constraints).Nodup := by
  rw [constraints_eq_selected]
  exact nodup_names_selected

theorem nodup_names_indexes : (Entries.names table.indexes).Nodup := by
  rw [indexes_eq_selected]
  exact nodup_names_selected

end Selected

end Table

/-- The statements that create a table: the table itself, then its indexes. -/
def Statement.creating (name : String) (table : Table) : List Statement :=
  .createTable name table.atoms table.constraints
    :: table.indexes.map fun (column, definition) => .createIndex name column definition

/-- A table is created the same way without its markers. -/
theorem Statement.creating_canonical (name : String) (table : Table) :
    creating name table.canonical = creating name table := by
  rw [creating, creating, Table.atoms_canonical, Table.constraints_canonical,
    Table.indexes_canonical]

end Schemata
