import Mathlib.Data.List.Induction
import Schemata.Migration.Plan

/-!
# Migrations in a row

A database is brought to one schema after another. Each attempt starts from the schema that the last
successful one has returned, and an attempt that fails changes nothing.

## Main definitions

* `Course`: the schema that is reached, and the statements executed on the way
* `Course.attempt`, `Course.through`: one more attempt, and an attempt at each of several schemas
* `Consecutive`: a relation between each of several targets and the schema reached before it

## Main results

* `Course.through_induction`: what every successful migration keeps holds of the whole course
-/

namespace Schemata

/-- The relation holds between the start and the first of the targets, and between the form without
markers of each target and the next one. -/
def Consecutive (R : Schema → Schema → Prop) : Schema → List Schema → Prop
  | _, [] => True
  | prev, next :: rest => R prev next ∧ Consecutive R next.canonical rest

/-- How far a database has been brought. -/
structure Course where
  /-- The schema that was returned last. -/
  reached : Schema
  /-- All statements so far. -/
  executed : List Statement := []

namespace Course

variable {config : MigrationConfig}

/-- The course after a migration. -/
def follow (course : Course) (migration : Migration) : Course :=
  ⟨migration.schema, course.executed ++ migration.statements⟩

/-- The course after an attempt to reach a schema. -/
def attempt (config : MigrationConfig) (course : Course) (target : Schema) : Course :=
  match migrate config course.reached target with
  | .ok migration => course.follow migration
  | .error _ => course

/-- The course from a schema after an attempt at each of the targets. -/
def through (config : MigrationConfig) (start : Schema) (targets : List Schema) : Course :=
  targets.foldl (attempt config) ⟨start, []⟩

/-- What holds at the start and is kept by each successful migration holds in the end. -/
theorem through_induction {P : Course → Prop} {start : Schema} (hstart : P ⟨start, []⟩)
    (hfollow : ∀ course target migration, migrate config course.reached target = .ok migration →
      P course → P (course.follow migration)) (targets : List Schema) :
    P (through config start targets) := by
  induction targets using List.reverseRecOn with
  | nil => exact hstart
  | append_singleton targets target ih =>
    rw [through, List.foldl_append, List.foldl_cons, List.foldl_nil, ← through, attempt]
    split
    · rename_i migration hmigrate
      exact hfollow _ target migration hmigrate ih
    · exact ih

end Course

end Schemata
