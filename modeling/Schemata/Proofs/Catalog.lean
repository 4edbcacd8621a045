import Schemata.Proofs.Migration.Course
import Schemata.Proofs.Migration.Execution

/-!
# The catalog of a database

The catalog tells how the columns and constraints of each table are declared. The statements of a
migration lead from the catalog of the one schema to that of the other; so do those of any number of
migrations in a row, whichever attempts in between have failed.

## Main definitions

* `Schema.catalog`: the tables with the declarations of their columns and constraints

## Main results

* `run?_migrate`: one migration
* `run?_through`: a whole course of migrations
-/

namespace Schemata

open Database (run? ofSchema)

/-- What a catalog tells about a stored column: its type and what follows it. -/
def Atom.declared (a : Atom) : String × String := (a.sqlType, a.constraints)

/-- The catalog of a schema. -/
def Schema.catalog (schema : Schema) : Database (String × String) :=
  ofSchema (fun _ _ => Atom.declared) schema

@[simp] theorem Schema.catalog_canonical (schema : Schema) :
    schema.canonical.catalog = schema.catalog :=
  Database.ofSchema_canonical

variable {config : MigrationConfig}

/-- What is told by the declaration alone stays so when columns are carried over. -/
theorem Schema.carried_const {κ : Type} (make : Atom → κ) (prev next : Schema) :
    carried make (fun _ _ => make) prev next = fun _ _ => make := by
  funext table
  unfold carried
  split
  · split
    · funext column
      unfold Table.carried
      split <;> rfl
    · rfl
  · rfl

/-- A migration leads from the catalog of the one schema to that of the other. -/
theorem run?_migrate {prev next : Schema} {migration : Migration}
    (h : migrate config prev next = .ok migration) :
    run? Atom.declared prev.catalog migration.statements = some migration.schema.catalog := by
  obtain ⟨hacceptable, rfl⟩ := migrate_eq_ok_iff.1 h
  rw [Schema.catalog_canonical, Schema.catalog, run?_statements hacceptable, Schema.carried_const]
  rfl

/-- However many schemas a database is brought to, and whichever attempts fail, every statement can
be executed when it is reached, and the last one leads to the catalog of the schema that was
returned last. -/
theorem run?_through (config : MigrationConfig) (start : Schema) (targets : List Schema) :
    run? Atom.declared start.catalog (Course.through config start targets).executed =
      some (Course.through config start targets).reached.catalog := by
  refine Course.through_induction
    (P := fun course => run? Atom.declared start.catalog course.executed =
      some course.reached.catalog) rfl (fun course target migration hmigrate ih => ?_) targets
  rw [Course.follow, Database.run?_append, ih, Option.bind_some]
  exact run?_migrate hmigrate

end Schemata
