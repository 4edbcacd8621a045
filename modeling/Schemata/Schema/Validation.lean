import Schemata.Diagnostic
import Schemata.Schema.Basic

/-!
# Validity of schemas

A schema is valid if its names are identifiers, its relations join existing stored columns of one
type, the first of them in the declaring table, and its aliases name existing columns. Index and
constraint definitions are opaque.

The checks stand in the order of declaration: a table's name, then for each of its columns the
name and the field. The first check that fails gives the report.

## Main definitions

* `Violation`: what can be wrong
* `Schema.checks`: the outcomes of all checks in order
* `Schema.violation?`: the first violation
* `Schema.validate`: success, or the first violation as an error

## Main results

* `validate_eq_ok_iff`: a schema passes exactly if every check does
-/

namespace Schemata

/-- A side of a relation. -/
inductive Endpoint
  | source
  | destination
  deriving DecidableEq

/-- The word by which a report names the side. -/
def Endpoint.text : Endpoint → String
  | source => "source"
  | destination => "referenced"

/-- The column of the relation on a side. -/
def Relation.endpoint (relation : Relation) : Endpoint → ColumnRef
  | .source => relation.source
  | .destination => relation.destination

/-- What can be wrong with a schema. -/
inductive Violation
  /-- A table or column is not called by an identifier. -/
  | invalidIdentifier (name : String)
  /-- A relation starts in another table than the one that declares it. -/
  | sourceMismatch (relation : ColumnRef) (sourceTable : String)
  /-- A side of a relation lies in no table of the schema. -/
  | tableNotFound (relation : ColumnRef) (side : Endpoint) (table : String)
  /-- A side of a relation is no column of its table. -/
  | columnNotFound (relation : ColumnRef) (side : Endpoint) (target : ColumnRef)
  /-- A side of a relation is not a stored column. -/
  | notAtom (relation : ColumnRef) (side : Endpoint) (target : ColumnRef) (kind : FieldKind)
  /-- The two sides of a relation have different SQL types. -/
  | typeMismatch (relation : ColumnRef) (source : ColumnRef) (sourceType : String)
      (destination : ColumnRef) (destinationType : String)
  /-- An alias names no column of its table. -/
  | danglingAlias (column : ColumnRef) (target : String)
  deriving DecidableEq

/-- The report of a violation. -/
def Violation.diagnostic : Violation → Diagnostic
  | invalidIdentifier name => {
      message := "invalid name \"" ++ name ++ "\""
      code := "schemaweave::validation::invalid_identifier"
      help := "table and column names may only contain ASCII letters and underscores" }
  | sourceMismatch relation sourceTable => {
      message := "in relation " ++ relation.text ++ ", source table " ++ sourceTable
        ++ " does not match current table " ++ relation.table
      code := "schemaweave::validation::relation_source_mismatch"
      help := "a relation's source must be a column of the table that declares it" }
  | tableNotFound relation side table => {
      message := "in relation " ++ relation.text ++ ", " ++ side.text ++ " table " ++ table
        ++ " was not found"
      code := "schemaweave::validation::relation_table_not_found" }
  | columnNotFound relation side target => {
      message := "in relation " ++ relation.text ++ ", " ++ side.text ++ " column " ++ target.text
        ++ " was not found"
      code := "schemaweave::validation::relation_column_not_found" }
  | notAtom relation side target kind => {
      message := "in relation " ++ relation.text ++ ", " ++ side.text ++ " column " ++ target.text
        ++ " must be an atom, found " ++ kind.text
      code := "schemaweave::validation::relation_endpoint_not_atom"
      help := "point the relation at the concrete column instead of a virtual one" }
  | typeMismatch relation source sourceType destination destinationType => {
      message := "in relation " ++ relation.text ++ ", source column " ++ source.text ++ " ("
        ++ sourceType ++ ") and referenced column " ++ destination.text ++ " (" ++ destinationType
        ++ ") must have the same type"
      code := "schemaweave::validation::relation_type_mismatch" }
  | danglingAlias column target => {
      message := "alias " ++ column.text ++ " refers to non-existent column " ++ target
      code := "schemaweave::validation::dangling_alias" }

/-- Whether a name is an identifier: ASCII letters and underscores, at least one. -/
def isIdentifier (name : String) : Bool :=
  !name.toList.isEmpty && name.toList.all fun c => c.isAlpha || c == '_'

namespace Schema

/-- The check of a name. -/
def nameCheck (name : String) : Option Violation :=
  if isIdentifier name then none else some (.invalidIdentifier name)

/-- The stored column on a side of a relation. -/
def endpointAtom (schema : Schema) (relation : ColumnRef) (side : Endpoint) (target : ColumnRef) :
    Except Violation Atom :=
  match schema.table? target.table with
  | none => .error (.tableNotFound relation side target.table)
  | some table =>
    match table.field? target.column with
    | none => .error (.columnNotFound relation side target)
    | some (.atom a) => .ok a
    | some field => .error (.notAtom relation side target field.kind)

/-- The check of a relation: the table it starts in, its source, its destination, their types. -/
def relationCheck (schema : Schema) (name : ColumnRef) (relation : Relation) : Option Violation :=
  if relation.source.table ≠ name.table then
    some (.sourceMismatch name relation.source.table)
  else
    match schema.endpointAtom name .source relation.source with
    | .error violation => some violation
    | .ok source =>
      match schema.endpointAtom name .destination relation.destination with
      | .error violation => some violation
      | .ok destination =>
        if source.sqlType ≠ destination.sqlType then
          some (.typeMismatch name relation.source source.sqlType relation.destination
            destination.sqlType)
        else none

/-- The check of an alias. -/
def aliasCheck (table : Table) (name : ColumnRef) (target : String) : Option Violation :=
  if table.columns.contains target then none else some (.danglingAlias name target)

/-- The check of a field. -/
def fieldCheck (schema : Schema) (table : Table) (name : ColumnRef) : Field → Option Violation
  | .relation relation => schema.relationCheck name relation
  | .aliasTo target => aliasCheck table name target
  | .atom _ | .index _ | .constraint _ => none

/-- The outcomes of all checks, in the order of declaration. -/
def checks (schema : Schema) : List (Option Violation) :=
  schema.tables.entries.flatMap fun (tableName, table) =>
    nameCheck tableName :: table.columns.entries.flatMap fun (columnName, column) =>
      [nameCheck columnName, schema.fieldCheck table ⟨tableName, columnName⟩ column.field]

/-- The first violation of the schema. -/
def violation? (schema : Schema) : Option Violation := schema.checks.findSome? id

/-- Success for a valid schema, and the first violation of any other. -/
def validate (schema : Schema) : Except Violation Unit :=
  match schema.violation? with
  | none => .ok ()
  | some violation => .error violation

/-- A schema passes exactly if all of its checks do. -/
theorem validate_eq_ok_iff {schema : Schema} :
    schema.validate = .ok () ↔ ∀ outcome ∈ schema.checks, outcome = none := by
  unfold validate
  split <;> rename_i h
  · simpa [violation?] using h
  · simp only [reduceCtorEq, false_iff]
    intro all
    rw [violation?, List.findSome?_eq_none_iff.2 (by simpa using all)] at h
    exact absurd h (by simp)

end Schema

end Schemata
