import Schemata.Config
import Schemata.Ddl.Statement
import Schemata.Migration.Change
import Schemata.Schema.Divergence
import Schemata.Schema.Validation

/-!
# Migrations

A migration is the list of statements that brings a database from one schema to the next. It is
planned by going through the changes between the two schemas while keeping account of what each
statement does to the database. At the end the account has to have the structure of the next
schema; what has no statement of its own leaves a note and so makes the plan fail.

Nothing is dropped unless its name says that it is deprecated.

## Main definitions

* `Note`: an edit for which there is no statement
* `MigrationError`: why there is no plan
* `Plan`: the account kept while planning
* `Migration`, `migrate`: the result, and its computation
-/

namespace Schemata

/-- An edit for which there is no statement. -/
inductive Note
  /-- A constraint is added to a table that exists. -/
  | constraintAdded (column : ColumnRef)
  /-- A constraint gets another name. -/
  | constraintRenamed (column : ColumnRef)
  /-- A constraint is removed. -/
  | constraintDropped (column : ColumnRef)
  /-- A stored field gets other contents. -/
  | changedInPlace (column : ColumnRef) (prev next : Field)
  /-- A column becomes one of another kind. -/
  | kindChanged (column : ColumnRef) (prev next : FieldKind)
  deriving DecidableEq

/-- The sentence that tells of the edit. -/
def Note.text : Note → String
  | constraintAdded column =>
      "adding constraint " ++ column.text ++ " to an existing table is not supported"
  | constraintRenamed column => "renaming constraint " ++ column.text ++ " is not supported"
  | constraintDropped column => "dropping constraint " ++ column.text ++ " is not supported"
  | changedInPlace column prev next =>
      prev.kind.text ++ " " ++ column.text ++ " changed in place: " ++ prev.inspect ++ " -> "
        ++ next.inspect
  | kindChanged column prev next =>
      column.text ++ " changed kind from " ++ prev.text ++ " to " ++ next.text

/-- How a finished or unfinished account departs from what it has to be. -/
inductive Departure
  /-- At the end it has not the structure of the next schema. -/
  | differs (divergence : Divergence)
  /-- On the way it has lost the table whose columns change. -/
  | lostTable (table : String)
  deriving DecidableEq

/-- The sentence that names the departure. -/
def Departure.text : Departure → String
  | differs divergence => divergence.text
  | lostTable table => "table " ++ table ++ " is missing from the mirror"

/-- Why there is no plan. -/
inductive MigrationError
  /-- One of the schemas is not valid. -/
  | invalid (violation : Violation)
  /-- A marker cannot be honoured. -/
  | invalidRename (name source : String) (problem : MarkerProblem)
  /-- Something would be dropped whose name does not say that it is deprecated. -/
  | unsafeDrop (name : String)
  /-- The plan does not lead to the next schema. -/
  | divergent (departure : Departure) (notes : List Note)
  deriving DecidableEq

/-- The report of the failure. -/
def MigrationError.diagnostic : MigrationError → Diagnostic
  | invalid violation => violation.diagnostic
  | invalidRename name source problem => {
      message := name ++ " is renamed from " ++ source ++ ", but " ++ problem.text
      code := "schemaweave::migration::invalid_rename"
      help := "if the rename has already been applied, remove the rename marker from the schema "
        ++ "definition" }
  | unsafeDrop name => {
      message := name ++ " must be renamed to \"deprecated_" ++ name
        ++ "\" before it can be dropped"
      code := "schemaweave::migration::unsafe_drop"
      help := "rename the entity to a deprecated name in one migration, then remove it in the "
        ++ "next" }
  | divergent departure _ => {
      message := "unable to create migration: migrated schema diverges from target ("
        ++ departure.text ++ ")"
      code := "schemaweave::migration::divergent_result"
      help := "discard the generated DDL; the edit is unsupported or the engine is wrong" }

/-- The account kept while planning. -/
structure Plan where
  /-- The schema of the database after the statements so far. -/
  reached : Schema
  /-- The statements so far. -/
  statements : List Statement := []
  /-- The edits so far for which there was no statement. -/
  notes : List Note := []
  deriving DecidableEq

namespace Plan

/-- The plan with further statements. -/
def emit (plan : Plan) (statements : List Statement) : Plan :=
  { plan with statements := plan.statements ++ statements }

/-- The plan with a further note. -/
def remark (plan : Plan) (note : Note) : Plan := { plan with notes := plan.notes ++ [note] }

/-- The plan after a change of the columns of a table, which has to be there. -/
def updateTable (plan : Plan) (table : String) (update : Table → Table) :
    Except MigrationError Plan :=
  match plan.reached.updateTable? table update with
  | none => .error (.divergent (.lostTable table) plan.notes)
  | some reached => .ok { plan with reached }

/-- Success if a name says that its bearer may be dropped. -/
def gate (config : MigrationConfig) (name qualified : String) : Except MigrationError Unit :=
  if config.isDeprecated name then .ok () else .error (.unsafeDrop qualified)

/-- Follows the steps of a map with a function on plans, and fails with the fault after them. -/
def follow {α : Type} (step : Plan → Change α → Except MigrationError Plan)
    (qualify : String → String) (plan : Plan) (changes : Changes α) :
    Except MigrationError Plan := do
  let plan ← changes.steps.foldlM step plan
  match changes.fault with
  | none => return plan
  | some fault =>
    throw (.invalidRename (qualify fault.name) (qualify fault.source) fault.problem)

/-- The statements that add a column to a table that exists; none for a constraint. -/
def addition? (table name : String) : Field → Option (List Statement)
  | .atom a => some [.addColumn table name a]
  | .index definition => some [.createIndex table name definition]
  | .relation _ | .aliasTo _ => some []
  | .constraint _ => none

/-- The statements that give a column another name; none for a constraint. -/
def renaming? (table source target : String) : Field → Option (List Statement)
  | .atom _ => some [.renameColumn table source target]
  | .index definition => some [.dropIndex table source, .createIndex table target definition]
  | .relation _ | .aliasTo _ => some []
  | .constraint _ => none

/-- The statements that remove a column; none for a constraint. -/
def removal? (table name : String) : Field → Option (List Statement)
  | .atom _ => some [.dropColumn table name]
  | .index _ => some [.dropIndex table name]
  | .relation _ | .aliasTo _ => some []
  | .constraint _ => none

/-- The table with a column under another name, at the end. -/
def moveColumn (source target : String) (table : Table) : Table :=
  match table.columns.find? source with
  | none => table
  | some column => (table.eraseColumn source).insertColumn target column

/-- Plans a step of the columns of a table. -/
def columnStep (config : MigrationConfig) (table : String) (plan : Plan) :
    Change Column → Except MigrationError Plan
  | .create name next =>
    match addition? table name next.field with
    | none => .ok (plan.remark (.constraintAdded ⟨table, name⟩))
    | some statements =>
      (plan.emit statements).updateTable table (·.insertColumn name next.canonical)
  | .rename source target prev =>
    match renaming? table source target prev.field with
    | none => .ok (plan.remark (.constraintRenamed ⟨table, source⟩))
    | some statements => (plan.emit statements).updateTable table (moveColumn source target)
  | .remove name prev => do
    -- The gate comes first, so a constraint that must not go is a fault and not a note.
    if !prev.field.isVirtual then
      gate config name (ColumnRef.text ⟨table, name⟩)
    match removal? table name prev.field with
    | none => return plan.remark (.constraintDropped ⟨table, name⟩)
    | some statements => (plan.emit statements).updateTable table (·.eraseColumn name)
  | .change name prev next =>
    if prev.field = next.field then .ok plan
    else if prev.field.isVirtual && next.field.isVirtual then
      plan.updateTable table (·.insertColumn name next.canonical)
    else if prev.field.kind = next.field.kind then
      .ok (plan.remark (.changedInPlace ⟨table, name⟩ prev.field next.field))
    else
      .ok (plan.remark (.kindChanged ⟨table, name⟩ prev.field.kind next.field.kind))

/-- Plans the changes of the columns of a table. -/
def columnSteps (config : MigrationConfig) (table : String) (plan : Plan)
    (prev next : OrderedMap Column) : Except MigrationError Plan :=
  follow (columnStep config table) (fun name => ColumnRef.text ⟨table, name⟩) plan
    (.between Column.renamedFrom prev next)

/-- The schema with a table under another name, at the end. -/
def moveTable (source target : String) (schema : Schema) : Schema :=
  match schema.table? source with
  | none => schema
  | some table => (schema.eraseTable source).insertTable target table

/-- Plans a step of the tables. -/
def tableStep (config : MigrationConfig) (plan : Plan) :
    Change Table → Except MigrationError Plan
  | .create name next =>
    .ok { plan.emit (Statement.creating name next) with
      reached := plan.reached.insertTable name next.canonical }
  | .rename source target _ =>
    .ok { plan.emit [.renameTable source target] with
      reached := moveTable source target plan.reached }
  | .remove name _ => do
    gate config name name
    return { plan.emit [.dropTable name] with reached := plan.reached.eraseTable name }
  | .change name prev next => columnSteps config name plan prev.columns next.columns

/-- Plans the changes of the tables. -/
def tableSteps (config : MigrationConfig) (plan : Plan) (prev next : OrderedMap Table) :
    Except MigrationError Plan :=
  follow (tableStep config) id plan (.between Table.renamedFrom prev next)

end Plan

/-- The result of planning. -/
structure Migration where
  /-- The statements in order. -/
  statements : List Statement
  /-- The schema that is reached, without markers. -/
  schema : Schema
  deriving DecidableEq

namespace Migration

/-- The SQL text of the migration, a statement after the other, each on lines of its own. -/
def sql (migration : Migration) : String :=
  let text := String.intercalate "\n" (migration.statements.map Statement.render)
  if text = "" then "" else text ++ "\n"

/-- Whether there is nothing to do. -/
def isEmpty (migration : Migration) : Bool := migration.statements.isEmpty

end Migration

/-- Success for a valid schema. -/
def requireValid (schema : Schema) : Except MigrationError Unit :=
  match schema.validate with
  | .ok () => .ok ()
  | .error violation => .error (.invalid violation)

/-- The migration from one schema to the next. -/
def migrate (config : MigrationConfig) (prev next : Schema) : Except MigrationError Migration := do
  requireValid prev
  requireValid next
  let plan ← Plan.tableSteps config ⟨prev.canonical, [], []⟩ prev.tables next.tables
  match Schema.divergence? plan.reached next.canonical with
  | some divergence => throw (.divergent (.differs divergence) plan.notes)
  | none => return ⟨plan.statements, next.canonical⟩

end Schemata
