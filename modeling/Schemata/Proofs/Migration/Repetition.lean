import Schemata.Proofs.Migration.Acceptance
import Schemata.Proofs.Schema.Persistence

/-!
# Migrating again

A schema that has been reached can be migrated to once more without harm. The markers that were
honoured on the way speak of entities that are there by now, so they ask for nothing; what is left
are turns that keep an entity as it is. Neither the order of declaration nor the trip through the
text that is kept between two migrations changes this.

## Main results

* `exists_keep_of_mem_turns`: between maps with the same names every turn keeps
* `tableStatements_eq_nil`: there are no statements between schemas of the same structure
* `migrate_again`: a migration to what is there already does nothing, in particular a second one
-/

namespace Schemata

open Changes (Turn turns MarkersHonoured)

universe u

namespace Changes

variable {α : Type u} {marker : α → Option String} {prev next : OrderedMap α}

/-- Between two maps with the same names nothing is new and nothing is gone. -/
theorem exists_keep_of_mem_turns (hnames : ∀ n, n ∈ prev.names ↔ n ∈ next.names) {t : Turn α}
    (ht : t ∈ turns marker prev next) :
    ∃ name before after, prev.find? name = some before ∧ next.find? name = some after ∧
      t = .keep name before after := by
  rcases create_or_keep_of_mem_turns (.of_mem_iff hnames) (hnames _).1 ht with
    ⟨name, entity, ⟨-, hnext, hprev⟩, -⟩ | hkeep
  · exact absurd ((hnames name).2 hnext) hprev
  · exact hkeep

end Changes

section Structure

variable {config : MigrationConfig}

/-! ### The columns of a table -/

theorem columnStatements_eq_nil {table : String} {prev next : OrderedMap Column}
    (hnames : ∀ n, n ∈ prev.names ↔ n ∈ next.names) : columnStatements table prev next = [] := by
  apply List.flatMap_eq_nil_iff.2
  intro t ht
  obtain ⟨name, before, after, -, -, rfl⟩ := Changes.exists_keep_of_mem_turns hnames ht
  rfl

/-- Columns with the same fields are acceptable, whatever their markers. -/
theorem ColumnsAcceptable.of_field?_eq {prev next : Table}
    (hfields : ∀ c, prev.field? c = next.field? c) : ColumnsAcceptable config prev next := by
  have hnames (c : String) := Table.mem_names_iff_of_field?_eq (hfields c)
  have honoured : MarkersHonoured Column.renamedFrom prev.columns next.columns :=
    .of_mem_iff hnames
  apply ColumnsAcceptable.of_turns honoured
  · intro t ht
    obtain ⟨name, before, after, hprev, hnext, rfl⟩ :=
      Changes.exists_keep_of_mem_turns hnames ht
    -- The turn compares the fields under the name, and they are the same.
    have hfield : before.field = after.field := by
      simpa [Table.field?, hprev, hnext] using hfields name
    exact ⟨trivial, .inl hfield⟩
  · intro c _ _
    exact hfields c

/-! ### The tables of a schema -/

variable {prev next : Schema} (hsame : prev.sameStructure next = true)

include hsame

theorem mem_names_iff_of_sameStructure (name : String) :
    name ∈ prev.tables.names ↔ name ∈ next.tables.names :=
  Schema.mem_names_iff_of_fieldsOf?_eq (Schema.sameStructure_iff.1 hsame name)

/-- What is found under one name in schemas of the same structure has the same fields. -/
theorem field?_eq_of_sameStructure {name : String} {before after : Table}
    (hbefore : prev.tables.find? name = some before)
    (hafter : next.tables.find? name = some after) (column : String) :
    before.field? column = after.field? column := by
  have hfields := Schema.sameStructure_iff.1 hsame name
  rw [Schema.fieldsOf?_of_find? hbefore, Schema.fieldsOf?_of_find? hafter] at hfields
  exact congrFun (Option.some.inj hfields) column

/-- Nothing is done between schemas of the same structure. -/
theorem tableStatements_eq_nil : tableStatements prev.tables next.tables = [] := by
  apply List.flatMap_eq_nil_iff.2
  intro t ht
  obtain ⟨name, before, after, hbefore, hafter, rfl⟩ :=
    Changes.exists_keep_of_mem_turns (mem_names_iff_of_sameStructure hsame) ht
  apply columnStatements_eq_nil
  intro c
  exact Table.mem_names_iff_of_field?_eq (field?_eq_of_sameStructure hsame hbefore hafter c)

/-- Valid schemas of the same structure are acceptable. -/
theorem Acceptable.of_sameStructure (hprev : prev.validate = .ok ())
    (hnext : next.validate = .ok ()) : Acceptable config prev next := by
  have hnames := mem_names_iff_of_sameStructure hsame
  apply acceptable_iff.2
  refine ⟨hprev, hnext, .of_mem_iff hnames, ?_, ?_⟩
  · intro t ht
    obtain ⟨name, before, after, hbefore, hafter, rfl⟩ :=
      Changes.exists_keep_of_mem_turns hnames ht
    exact ColumnsAcceptable.of_field?_eq (field?_eq_of_sameStructure hsame hbefore hafter)
  · intro name _ _
    exact Schema.sameStructure_iff.1 hsame name

/-- The migration between valid schemas of the same structure is the empty one. -/
theorem migrate_of_sameStructure (hprev : prev.validate = .ok ())
    (hnext : next.validate = .ok ()) : migrate config prev next = .ok ⟨[], next.canonical⟩ := by
  apply migrate_eq_ok_iff.2
  refine ⟨.of_sameStructure hsame hprev hnext, ?_⟩
  rw [tableStatements_eq_nil hsame]

end Structure

/-! ### The schema that is kept -/

namespace Schema

variable {schema : Schema}

/-- A schema has the structure of its canonical form. -/
theorem sameStructure_canonical (schema : Schema) :
    schema.canonical.sameStructure schema = true :=
  sameStructure_iff.2 schema.fieldsOf?_canonical

/-- The canonical form of a valid schema is valid. -/
theorem validate_canonical (h : schema.validate = .ok ()) : schema.canonical.validate = .ok () := by
  rw [validate_eq_ok_iff_isValid] at h ⊢
  apply h.of_fieldsOf?_eq
  intro name
  exact (fieldsOf?_canonical schema name).symm

/-- A valid schema is read back as it was written. -/
theorem ofText?_toText_of_validate (h : schema.validate = .ok ()) :
    ofText? schema.toText = some schema := by
  rw [ofText?_toText, reread_eq_self_iff.2 (validate_eq_ok_iff_isValid.1 h).hasPlainReferences]

end Schema

section Again

variable {config : MigrationConfig} {prev next : Schema}

/-- Migrating again does nothing. Between valid schemas of the same structure the migration is
empty, in whatever order they are declared and whatever markers they carry; and a schema that a
migration has reached is canonical and valid, it is what is read back from its text, and the
migration from there to the same next schema is empty under every configuration. -/
theorem migrate_again :
    (prev.validate = .ok () → next.validate = .ok () → prev.sameStructure next = true →
      migrate config prev next = .ok ⟨[], next.canonical⟩) ∧
    ∀ migration, migrate config prev next = .ok migration →
      migration.schema.isCanonical = true ∧ migration.schema.validate = .ok () ∧
        ∃ reloaded, Schema.ofText? migration.schema.toText = some reloaded ∧
          reloaded = migration.schema ∧
            ∀ config', migrate config' reloaded next = .ok ⟨[], migration.schema⟩ := by
  constructor
  · intro hprev hnext hsame
    exact migrate_of_sameStructure hsame hprev hnext
  · intro migration h
    obtain ⟨hacceptable, rfl⟩ := migrate_eq_ok_iff.1 h
    have hnext := hacceptable.valid_next
    have hvalid := Schema.validate_canonical hnext
    refine ⟨next.isCanonical_canonical, hvalid, next.canonical,
      Schema.ofText?_toText_of_validate hvalid, rfl, ?_⟩
    intro config'
    -- The next schema still has its markers, but not so the one that is kept.
    exact migrate_of_sameStructure next.sameStructure_canonical hvalid hnext

/-- Two tables, of which one and a column of it are to be renamed. -/
def Schema.beforeRenaming : Schema :=
  ⟨.ofList
    [("a", ⟨.ofList [("x", ⟨.integer "", none⟩), ("__rev", ⟨.integer "", none⟩)], none⟩),
      ("__meta", ⟨.ofList [("v", ⟨.integer "", none⟩)], none⟩)]⟩

/-- The same two tables with the markers of the renaming, in another order. -/
def Schema.renaming : Schema :=
  ⟨.ofList
    [("__meta", ⟨.ofList [("v", ⟨.integer "", none⟩)], none⟩),
      ("b", ⟨.ofList [("__rev", ⟨.integer "", none⟩), ("y", ⟨.integer "", some "x"⟩)],
        some "a"⟩)]⟩

/-- What has been renamed is declared in a third order, with a marker that was never honoured. -/
def Schema.afterRenaming : Schema :=
  ⟨.ofList
    [("b", ⟨.ofList [("y", ⟨.integer "", none⟩), ("__rev", ⟨.integer "", some "z"⟩)], none⟩),
      ("__meta", ⟨.ofList [("v", ⟨.integer "", none⟩)], some "c"⟩)]⟩

/-- A table and a column of it are renamed once, and the markers that are left do no harm. -/
theorem migrate_again_renaming :
    migrate {} .beforeRenaming .renaming =
        .ok ⟨[.renameTable "a" "b", .renameColumn "b" "x" "y"], Schema.renaming.canonical⟩ ∧
      (∃ reloaded, Schema.ofText? Schema.renaming.canonical.toText = some reloaded ∧
        ∀ config, migrate config reloaded .renaming = .ok ⟨[], Schema.renaming.canonical⟩) ∧
      migrate {} .afterRenaming .renaming = .ok ⟨[], Schema.renaming.canonical⟩ := by
  have hmigrate : migrate {} .beforeRenaming .renaming =
      .ok ⟨[.renameTable "a" "b", .renameColumn "b" "x" "y"], Schema.renaming.canonical⟩ := by
    decide
  obtain ⟨-, -, reloaded, hreloaded, -, hempty⟩ := migrate_again.2 _ hmigrate
  refine ⟨hmigrate, ⟨reloaded, hreloaded, hempty⟩, ?_⟩
  exact migrate_again.1 (by decide) (by decide) (by decide)

end Again

end Schemata
