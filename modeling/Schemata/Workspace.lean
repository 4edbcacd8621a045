import Schemata.Config.OfToml
import Schemata.Migration.Plan
import Schemata.Query.Program
import Schemata.Schema.OfSql
import Schemata.Schema.Persisted

/-!
# Workspaces

Work on a schema goes on between two states: the *baseline*, which is what the database has, and
the *working* schema, which is being edited. A migration leads from one to the other, and once it
is committed both are its result.

## Main definitions

* `Workspace`: the two schemas and the configuration
* `Workspace.plan`, `Workspace.commit`: the migration, and the workspace after it
-/

namespace Schemata

/-- The state of the work on a schema. -/
structure Workspace where
  /-- The schema of the database. -/
  baseline : Schema := {}
  /-- The schema that is being edited. -/
  working : Schema := {}
  /-- The settings. -/
  config : Config := {}
  deriving DecidableEq

namespace Workspace

/-- The workspace after an edit. -/
def edit (workspace : Workspace) (update : Schema → Schema) : Workspace :=
  { workspace with working := update workspace.working }

/-- The workspace after an edit of a table, if there is the table. -/
def editTable? (workspace : Workspace) (table : String) (update : Table → Table) :
    Option Workspace :=
  (workspace.working.updateTable? table update).map fun working => { workspace with working }

/-- The migration from the baseline to the working schema. -/
def plan (workspace : Workspace) : Except MigrationError Migration :=
  migrate workspace.config.migration workspace.baseline workspace.working

/-- The schema as it comes back from its persisted text. -/
def persist (schema : Schema) : Schema := (Schema.ofText? schema.toText).getD schema

/-- The migration from the baseline to the working schema, and the workspace in which both are
the persisted result. -/
def commit (workspace : Workspace) : Except MigrationError (Migration × Workspace) := do
  let migration ← workspace.plan
  let schema := persist migration.schema
  return (migration, { workspace with baseline := schema, working := schema })

/-- Builds queries on the working schema. -/
def buildAll (workspace : Workspace) (programs : List Program) : List BuildOutcome :=
  workspace.working.buildAll { start := workspace.config.query.aliasPrefix } programs

end Workspace

end Schemata
