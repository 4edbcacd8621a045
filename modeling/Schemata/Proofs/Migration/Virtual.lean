import Schemata.Proofs.Migration.Parts
import Schemata.Proofs.Migration.Repetition
import Schemata.Proofs.Schema.Edits

/-!
# Virtual columns

Relations and aliases live in the declaration only. They are created, moved, changed and removed
like all other columns, and the account that is kept while planning has them, but no statement
speaks of them. So they can be left out on both sides: what is left of acceptable schemas is
acceptable, and the statements are the same.

What carries this is that no column becomes virtual or stops being so, neither by staying nor by
moving. The turns that are left without the virtual columns are then those of the stored ones.

## Main definitions

* `Table.withoutVirtual`, `Schema.withoutVirtual`: only the columns that leave a trace

## Main results

* `ColumnsAcceptable.uniform`: no column becomes virtual or stops being so
* `ColumnsAcceptable.columnStatements_withoutVirtual`: the statements of the stored columns
* `Acceptable.withoutVirtual`: acceptable schemas without their virtual columns
* `migrate_withoutVirtual`: virtual columns make no difference to the statements
-/

namespace Schemata

open Changes (Moves Turn turns)

/-! ### Tables without their virtual columns -/

/-- The columns that leave a trace in the database. -/
def Table.withoutVirtual (table : Table) : Table :=
  { table with columns := table.columns.filter fun column => !column.field.isVirtual }

/-- The tables with those of their columns that leave a trace in the database. -/
def Schema.withoutVirtual (schema : Schema) : Schema := ⟨schema.tables.map Table.withoutVirtual⟩

section Columns

variable {config : MigrationConfig} {table before after : Table}

theorem Table.field?_withoutVirtual (table : Table) (name : String) :
    table.withoutVirtual.field? name = (table.field? name).filter fun field => !field.isVirtual :=
  table.field?_filterFields (fun field => !field.isVirtual) name

theorem Field.exists_of_isVirtual {field : Field} (h : field.isVirtual = true) :
    (∃ relation, field = .relation relation) ∨ ∃ target, field = .aliasTo target := by
  cases field with
  | relation relation => exact .inl ⟨relation, rfl⟩
  | aliasTo target => exact .inr ⟨target, rfl⟩
  | atom _ | index _ | constraint _ => cases h

/-- A selection that leaves virtual columns out does not see whether they are there. -/
theorem Table.selected_withoutVirtual {β : Type} {f : Field → Option β}
    (hrelation : ∀ relation, f (.relation relation) = none)
    (halias : ∀ target, f (.aliasTo target) = none) :
    table.withoutVirtual.selected f = table.selected f := by
  rw [selected, withoutVirtual, OrderedMap.filter, List.filterMap_filter]
  apply List.filterMap_congr
  intro e _
  cases hvirtual : e.2.field.isVirtual with
  | false => rfl
  | true =>
    obtain ⟨relation, hfield⟩ | ⟨target, hfield⟩ := Field.exists_of_isVirtual hvirtual
    · simp [hfield, hrelation]
    · simp [hfield, halias]

/-- No statement that creates a table speaks of its virtual columns. -/
theorem creating_withoutVirtual (name : String) (table : Table) :
    Statement.creating name table.withoutVirtual = Statement.creating name table := by
  have hatoms : table.withoutVirtual.atoms = table.atoms := by
    rw [Table.atoms_eq_selected, Table.atoms_eq_selected]
    exact Table.selected_withoutVirtual (fun _ => rfl) fun _ => rfl
  have hconstraints : table.withoutVirtual.constraints = table.constraints := by
    rw [Table.constraints_eq_selected, Table.constraints_eq_selected]
    exact Table.selected_withoutVirtual (fun _ => rfl) fun _ => rfl
  have hindexes : table.withoutVirtual.indexes = table.indexes := by
    rw [Table.indexes_eq_selected, Table.indexes_eq_selected]
    exact Table.selected_withoutVirtual (fun _ => rfl) fun _ => rfl
  rw [Statement.creating, Statement.creating, hatoms, hconstraints, hindexes]

theorem Field.CanBecome.isVirtual_eq {before after : Field} (h : before.CanBecome after) :
    before.isVirtual = after.isVirtual := by
  rcases h with rfl | ⟨hbefore, hafter⟩
  · rfl
  · rw [hbefore, hafter]

namespace ColumnsAcceptable

variable (h : ColumnsAcceptable config before after)

include h

/-- No column becomes virtual, or stops being so. -/
theorem uniform : Changes.Uniform (fun column : Column => !column.field.isVirtual)
    Column.renamedFrom before.columns after.columns where
  moved hmoves hbefore hafter := by
    have hbecome := (h.moved hmoves (Table.field?_of_find? hbefore)
      (Table.field?_of_find? hafter)).2
    exact congrArg not hbecome.isVirtual_eq
  kept hplain hbefore hafter := by
    have hbecome := h.kept hplain (Table.field?_of_find? hbefore) (Table.field?_of_find? hafter)
    exact congrArg not hbecome.isVirtual_eq

/-- A turn of a virtual column is silent. -/
theorem columnStatements_eq_nil_of_virtual (name : String) {t : Turn Column}
    (ht : t ∈ turns Column.renamedFrom before.columns after.columns)
    (hvirtual : t.satisfies (fun column => !column.field.isVirtual) = false) :
    t.columnStatements name = [] := by
  have hsilent {field : Field} (hfield : (!field.isVirtual) = false) :
      (∃ relation, field = .relation relation) ∨ ∃ target, field = .aliasTo target :=
    Field.exists_of_isVirtual (by simpa using hfield)
  cases t with
  | create column declared =>
    obtain ⟨_, hfield⟩ | ⟨_, hfield⟩ := hsilent hvirtual <;>
      simp [Turn.columnStatements, hfield, Plan.addition?]
  | move source target declared entity =>
    -- What the column was before decides on the statements, and it was virtual then, too.
    have hfits := (Changes.mem_turns_iff h.markers).1 ht
    have hmoves := hfits.moves
    obtain ⟨harrives, hafter, -, hbefore⟩ := hfits
    have hsame := h.uniform.moved hmoves hbefore hafter
    obtain ⟨_, hfield⟩ | ⟨_, hfield⟩ := hsilent (hsame.trans hvirtual) <;>
      simp [Turn.columnStatements, hfield, Plan.renaming?]
  | remove column declared =>
    obtain ⟨_, hfield⟩ | ⟨_, hfield⟩ := hsilent hvirtual <;>
      simp [Turn.columnStatements, hfield, Plan.removal?]
  | keep column declared entity => rfl

/-- The stored columns are changed by the same statements without the virtual ones. -/
theorem columnStatements_withoutVirtual (name : String) :
    columnStatements name before.withoutVirtual.columns after.withoutVirtual.columns =
      columnStatements name before.columns after.columns := by
  have hfilter : ∀ ts ⊆ turns Column.renamedFrom before.columns after.columns,
      (ts.filter (Turn.satisfies fun column => !column.field.isVirtual)).flatMap
        (Turn.columnStatements name) = ts.flatMap (Turn.columnStatements name) := by
    intro ts hts
    induction ts with
    | nil => rfl
    | cons t ts ih =>
      obtain ⟨ht, hts⟩ := List.cons_subset.1 hts
      rw [List.filter_cons, List.flatMap_cons, ← ih hts]
      split
      · rw [List.flatMap_cons]
      · rename_i hvirtual
        rw [h.columnStatements_eq_nil_of_virtual name ht (Bool.not_eq_true _ ▸ hvirtual),
          List.nil_append]
  rw [columnStatements, Table.withoutVirtual, Table.withoutVirtual, Changes.turns_filter h.uniform]
  exact hfilter _ fun _ ht => ht

/-- The stored columns of a table can become those of the table that continues it. -/
theorem withoutVirtual :
    ColumnsAcceptable config before.withoutVirtual after.withoutVirtual := by
  apply ColumnsAcceptable.of_turns (h.markers.filter h.uniform)
  · intro t ht
    rw [Table.withoutVirtual, Table.withoutVirtual, Changes.turns_filter h.uniform] at ht
    exact h.turn (List.mem_of_mem_filter ht)
  · intro column hreserved hleft
    rw [Table.field?_withoutVirtual, Table.field?_withoutVirtual]
    by_cases hmoves : ∃ target, Moves Column.renamedFrom before.columns after.columns column target
    · -- The column has moved, but not as a stored one, so it is stored on neither side.
      obtain ⟨target, hmoves⟩ := hmoves
      obtain ⟨entity, -, hafter, -⟩ := Changes.moves_iff.1 hmoves
      obtain ⟨declared, hbefore⟩ := OrderedMap.mem_names_iff.1 (h.markers.before hmoves)
      have hvirtual : declared.field.isVirtual = true := by
        by_contra hstored
        refine hleft target ((Changes.moves_filter_iff h.uniform).2 ⟨hmoves, entity, hafter, ?_⟩)
        rw [← h.uniform.moved hmoves hbefore hafter]
        simpa using hstored
      rw [Table.field?_of_find? hbefore, Table.field?_eq_none_iff.2 (h.markers.gone hmoves)]
      simp [Option.filter, hvirtual]
    · rw [not_exists] at hmoves
      rw [h.reserved hreserved hmoves]

end ColumnsAcceptable

end Columns

/-! ### Schemas without their virtual columns -/

section Schemas

variable {config : MigrationConfig} {prev next schema : Schema}

theorem Schema.table?_withoutVirtual (schema : Schema) (name : String) :
    schema.withoutVirtual.table? name = (schema.table? name).map Table.withoutVirtual :=
  OrderedMap.find?_map ..

theorem Schema.field?_withoutVirtual (schema : Schema) (ref : ColumnRef) :
    schema.withoutVirtual.field? ref = (schema.field? ref).filter fun field => !field.isVirtual := by
  rw [field?, table?_withoutVirtual, field?]
  cases schema.table? ref.table with
  | none => rfl
  | some table => exact table.field?_withoutVirtual ref.column

/-- The markers can be removed before or after the virtual columns. -/
theorem Schema.withoutVirtual_canonical (schema : Schema) :
    schema.canonical.withoutVirtual = schema.withoutVirtual.canonical := by
  have htable (table : Table) : table.canonical.withoutVirtual = table.withoutVirtual.canonical := by
    simp only [Table.withoutVirtual, Table.canonical, Table.mk.injEq, and_true]
    apply OrderedMap.ext
    exact List.filter_map
  simp only [withoutVirtual, canonical, mk.injEq]
  apply OrderedMap.ext
  simp only [OrderedMap.map, Entries.mapValues, List.map_map]
  exact congrArg (List.map · _) (funext fun e => by simp [htable])

/-- What is valid is valid without its virtual columns, for only these are asked for anything but
a name. -/
theorem Schema.IsValid.withoutVirtual (h : schema.IsValid) : schema.withoutVirtual.IsValid := by
  have hfield {ref : ColumnRef} {field : Field}
      (hfound : schema.withoutVirtual.field? ref = some field) :
      schema.field? ref = some field ∧ field.isVirtual = false := by
    rw [field?_withoutVirtual, Option.filter_eq_some_iff] at hfound
    simpa using hfound
  refine ⟨?_, ?_, ?_, ?_⟩
  · intro name table htable
    rw [table?_withoutVirtual, Option.map_eq_some_iff] at htable
    obtain ⟨declared, hdeclared, -⟩ := htable
    exact h.table_name hdeclared
  · intro ref field hfound
    exact h.column_name (hfield hfound).1
  · intro ref relation hfound
    exact absurd (hfield hfound).2 (by simp [Field.isVirtual, Field.kind, FieldKind.isVirtual])
  · intro ref target hfound
    exact absurd (hfield hfound).2 (by simp [Field.isVirtual, Field.kind, FieldKind.isVirtual])

/-- The turns of the tables are the same, of the tables without their virtual columns. -/
theorem turns_withoutVirtual (prev next : Schema) :
    turns Table.renamedFrom prev.withoutVirtual.tables next.withoutVirtual.tables =
      (turns Table.renamedFrom prev.tables next.tables).map (Turn.map Table.withoutVirtual) :=
  Changes.turns_map fun _ => rfl

namespace Acceptable

variable (h : Acceptable config prev next)

include h

/-- Acceptable schemas are acceptable without their virtual columns. -/
theorem withoutVirtual : Acceptable config prev.withoutVirtual next.withoutVirtual := by
  obtain ⟨hprev, hnext, honoured, hturns, hreserved⟩ := acceptable_iff.1 h
  rw [Schema.validate_eq_ok_iff_isValid] at hprev hnext
  apply acceptable_iff.2
  refine ⟨Schema.validate_eq_ok_iff_isValid.2 hprev.withoutVirtual,
    Schema.validate_eq_ok_iff_isValid.2 hnext.withoutVirtual, honoured.map fun _ => rfl, ?_, ?_⟩
  · intro t' ht'
    rw [turns_withoutVirtual] at ht'
    obtain ⟨t, ht, rfl⟩ := List.mem_map.1 ht'
    have hacceptable := hturns t ht
    cases t with
    | create name after => trivial
    | move source target before after => exact ColumnsAcceptable.withoutVirtual hacceptable
    | remove name before => exact hacceptable
    | keep name before after => exact ColumnsAcceptable.withoutVirtual hacceptable
  · intro name hname hleft
    have hsame := hreserved name hname fun target hmoves =>
      hleft target ((Changes.moves_map_iff (f := Table.withoutVirtual) fun _ => rfl).2 hmoves)
    have hfields (schema : Schema) : schema.withoutVirtual.fieldsOf? name =
        (schema.fieldsOf? name).map fun fields column =>
          (fields column).filter fun field => !field.isVirtual := by
      rw [Schema.fieldsOf?, Schema.table?_withoutVirtual, Schema.fieldsOf?, Option.map_map,
        Option.map_map]
      exact congrArg (Option.map · _) (funext fun table => funext table.field?_withoutVirtual)
    rw [hfields, hfields, hsame]

/-- The statements are those of the stored columns. -/
theorem tableStatements_withoutVirtual :
    tableStatements prev.withoutVirtual.tables next.withoutVirtual.tables =
      tableStatements prev.tables next.tables := by
  rw [tableStatements, turns_withoutVirtual, List.flatMap_map, tableStatements]
  apply List.flatMap_congr
  intro t ht
  have hacceptable := h.turn ht
  cases t with
  | create name after => exact creating_withoutVirtual name after
  | move source target before after =>
    exact congrArg (Statement.renameTable source target :: ·)
      (ColumnsAcceptable.columnStatements_withoutVirtual hacceptable target)
  | remove name before => rfl
  | keep name before after =>
    exact ColumnsAcceptable.columnStatements_withoutVirtual hacceptable name

end Acceptable

/-- Virtual columns make no difference to the statements. Where there is a migration, there is one
without the virtual columns of both schemas, and it has the same statements; so migrations between
schemas that differ in virtual columns only have the same statements, and there are none where the
tables and the stored columns on both sides are the same. -/
theorem migrate_withoutVirtual {migration : Migration}
    (h : migrate config prev next = .ok migration) :
    migrate config prev.withoutVirtual next.withoutVirtual =
        .ok ⟨migration.statements, migration.schema.withoutVirtual⟩ ∧
      (∀ config' prev' next' migration', migrate config' prev' next' = .ok migration' →
        prev.withoutVirtual = prev'.withoutVirtual → next.withoutVirtual = next'.withoutVirtual →
          migration.statements = migration'.statements) ∧
      (prev.withoutVirtual.sameStructure next.withoutVirtual = true →
        migration.statements = []) := by
  obtain ⟨hacceptable, rfl⟩ := migrate_eq_ok_iff.1 h
  refine ⟨?_, ?_, ?_⟩
  · apply migrate_eq_ok_iff.2
    refine ⟨hacceptable.withoutVirtual, ?_⟩
    rw [hacceptable.tableStatements_withoutVirtual, Schema.withoutVirtual_canonical]
  · intro config' prev' next' migration' h' hprev hnext
    obtain ⟨hacceptable', rfl⟩ := migrate_eq_ok_iff.1 h'
    dsimp only
    rw [← hacceptable.tableStatements_withoutVirtual, hprev, hnext,
      hacceptable'.tableStatements_withoutVirtual]
  · intro hsame
    dsimp only
    rw [← hacceptable.tableStatements_withoutVirtual, tableStatements_eq_nil hsame]

/-- Users with an alias and a relation, and posts with an alias. -/
def Schema.withNicks : Schema :=
  ⟨.ofList
    [("User", ⟨.ofList [("id", ⟨.integer "", none⟩), ("nick", ⟨.aliasTo "name", none⟩),
        ("name", ⟨.text "", none⟩), ("posts", ⟨.between .many "User.id" "Post.by", none⟩)], none⟩),
      ("Post", ⟨.ofList [("by", ⟨.integer "", none⟩), ("writer", ⟨.aliasTo "by", none⟩)], none⟩)]⟩

/-- The users and a column of them are renamed, and every virtual column becomes another one. -/
def Schema.withHandles : Schema :=
  ⟨.ofList
    [("Account", ⟨.ofList [("handle", ⟨.aliasTo "title", some "posts"⟩),
        ("title", ⟨.text "", some "name"⟩), ("id", ⟨.integer "", none⟩)], some "User"⟩),
      ("Post", ⟨.ofList [("writer", ⟨.between .one "Post.by" "Account.id", none⟩),
        ("by", ⟨.integer "", none⟩), ("views", ⟨.integer "", none⟩)], none⟩)]⟩

/-- An alias is dropped, a relation becomes an alias of another name and an alias a relation; the
statements are those of the stored columns. -/
theorem migrate_withoutVirtual_handles :
    ∃ migration, migrate {} .withNicks .withHandles = .ok migration ∧
      migration.statements = [.renameTable "User" "Account",
        .renameColumn "Account" "name" "title", .addColumn "Post" "views" ⟨"INTEGER", .number, ""⟩] ∧
      migrate {} Schema.withNicks.withoutVirtual Schema.withHandles.withoutVirtual =
        .ok ⟨migration.statements, migration.schema.withoutVirtual⟩ := by
  have hmigrate : migrate {} .withNicks .withHandles = .ok
      ⟨[.renameTable "User" "Account", .renameColumn "Account" "name" "title",
        .addColumn "Post" "views" ⟨"INTEGER", .number, ""⟩], Schema.withHandles.canonical⟩ := by
    decide
  exact ⟨_, hmigrate, rfl, (migrate_withoutVirtual hmigrate).1⟩

end Schemas

end Schemata
