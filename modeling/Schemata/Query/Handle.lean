import Schemata.Diagnostic
import Schemata.Query.Node
import Schemata.Schema.Basic

/-!
# Columns of a table instance

A *handle* is a table instance of a query under construction. Its columns and relations are
looked up by name, and aliases are followed to the column they lead to.

## Main definitions

* `QueryError`: why a query cannot be built
* `Handle`: a table instance
* `Handle.resolve`: the field that a name leads to
* `Handle.column`, `Handle.join`: a name as a stored column, and as a relation with its source
-/

namespace Schemata

/-- Why a query cannot be built. -/
inductive QueryError
  /-- There is no table of this name. -/
  | unknownTable (table : String)
  /-- There is no such column. -/
  | unknownColumn (column : ColumnRef)
  /-- The name leads to a field that is not stored. -/
  | notAColumn (column : ColumnRef) (kind : FieldKind)
  /-- The name leads to a field that is no relation. -/
  | notARelation (column : ColumnRef) (kind : FieldKind)
  /-- The aliases lead back to themselves. -/
  | aliasCycle (column : ColumnRef)
  deriving DecidableEq

/-- The report of the failure. -/
def QueryError.diagnostic : QueryError → Diagnostic
  | unknownTable table => {
      message := "table " ++ table ++ " not found in schema"
      code := "schemaweave::query::unknown_table" }
  | unknownColumn column => {
      message := "column " ++ column.text ++ " not found"
      code := "schemaweave::query::unknown_column" }
  | notAColumn column kind => {
      message := column.text ++ " is a " ++ kind.text ++ ", not a column"
      code := "schemaweave::query::not_a_column"
      help := "relations are traversed with `Handle::relation`" }
  | notARelation column kind => {
      message := column.text ++ " is a " ++ kind.text ++ ", not a relation"
      code := "schemaweave::query::not_a_relation" }
  | aliasCycle column => {
      message := "alias " ++ column.text ++ " never resolves to a column"
      code := "schemaweave::query::alias_cycle" }

/-- A table instance of a query under construction. -/
structure Handle where
  /-- The name of the table. -/
  tableName : String
  /-- The table. -/
  table : Table
  /-- The alias of the instance. -/
  instanceAlias : String
  deriving DecidableEq

namespace Handle

/-- The names of all columns. -/
def columns (handle : Handle) : List String := handle.table.columns.names

/-- A column of the handle's table, by name. -/
def ref (handle : Handle) (name : String) : ColumnRef := ⟨handle.tableName, name⟩

/-- Follows aliases from `current`, with `fuel` look-ups at most. -/
def follow (handle : Handle) (start current : String) :
    (fuel : Nat) → Except QueryError (String × Field)
  | 0 => .error (.aliasCycle (handle.ref start))
  | fuel + 1 =>
    match handle.table.field? current with
    | none => .error (.unknownColumn (handle.ref current))
    | some (.aliasTo target) => handle.follow start target fuel
    | some field => .ok (current, field)

/-- The field that a name leads to, with its own name. A chain with more aliases than the table
has columns comes to one of them twice, and so never ends. -/
def resolve (handle : Handle) (name : String) : Except QueryError (String × Field) :=
  handle.follow name name (handle.columns.length + 1)

/-- The stored column that a name leads to. -/
def column (handle : Handle) (name : String) : Except QueryError Leaf := do
  match ← handle.resolve name with
  | (resolved, .atom _) => return ⟨handle.instanceAlias, resolved⟩
  | (_, field) => throw (.notAColumn (handle.ref name) field.kind)

/-- The relation that a name leads to, and the column of this instance that it starts from. Its
destination has to exist. -/
def join (handle : Handle) (schema : Schema) (name : String) :
    Except QueryError (Relation × Leaf) := do
  match ← handle.resolve name with
  | (_, .relation relation) =>
    let source ← handle.column relation.source.column
    if (schema.field? relation.destination).isNone then
      throw (.unknownColumn relation.destination)
    return (relation, source)
  | (_, field) => throw (.notARelation (handle.ref name) field.kind)

end Handle

end Schemata
