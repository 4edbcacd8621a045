import Schemata.Proofs.Migration.Tables

/-!
# Which migrations there are

Planning can go wrong in many ways: a marker cannot be honoured, a removal has no leave, an edit has
no statement and the schema that is reached is not the one asked for. Taken together they come down
to conditions on the two schemas alone, one for each table and one for each pair of tables of which
the second continues the first. No edit that has no statement is made good by a later step, and no
two edits that can be made alone get into each other's way.

## Main definitions

* `Continues`: a table of the next schema is what becomes of a table of the previous one
* `ColumnsAcceptable`, `Acceptable`: the conditions on the columns of two such tables, and on two
  schemas

## Main results

* `exists_migrate_iff`: there is a migration exactly if the two schemas are acceptable
* `migrate_eq_ok_iff`: which one it is
-/

namespace Schemata

open Changes (Arrives Departs Moves Turn turns MarkersHonoured)

variable {config : MigrationConfig}

/-! ### The columns of a table -/

/-- The columns of a table can become those of the table that continues it. -/
structure ColumnsAcceptable (config : MigrationConfig) (prev next : Table) : Prop where
  /-- Each marker of a new column takes a column that is gone, and no two take the same one. -/
  markers : MarkersHonoured Column.renamedFrom prev.columns next.columns
  /-- A column without a marker that is new is not a constraint. -/
  created {name : String} {column : Column} : Arrives prev.columns next.columns name →
    next.columns.find? name = some column → column.renamedFrom = none →
      column.field.kind ≠ .constraint
  /-- A column that moves is not a constraint, and is the same under its new name or virtual there
  and here. -/
  moved {source target : String} {before after : Field} :
    Moves Column.renamedFrom prev.columns next.columns source target →
      prev.field? source = some before → next.field? target = some after →
        before.kind ≠ .constraint ∧ before.CanBecome after
  /-- A column that is gone without having moved is virtual, or is an atom or an index whose name
  says that it is deprecated. -/
  removed {name : String} {before : Field} : Departs prev.columns next.columns name →
    (∀ target, ¬Moves Column.renamedFrom prev.columns next.columns name target) →
      prev.field? name = some before →
        before.isVirtual = true ∨
          (before.kind = .atom ∨ before.kind = .index) ∧ config.isDeprecated name = true
  /-- A column that stays is the same, or virtual before and after. -/
  kept {name : String} {before after : Field} : isReserved name = false →
    prev.field? name = some before → next.field? name = some after → before.CanBecome after
  /-- A reserved column that does not move is the same, and is missing where it was. -/
  reserved {name : String} : isReserved name = true →
    (∀ target, ¬Moves Column.renamedFrom prev.columns next.columns name target) →
      prev.field? name = next.field? name

/-- A column that may be removed and leaves nothing behind is virtual, or a deprecated atom or
index. -/
theorem removable_iff {name : String} {field : Field} :
    (field.isVirtual = true ∨ config.isDeprecated name = true) ∧ field.kind ≠ .constraint ↔
      field.isVirtual = true ∨
        (field.kind = .atom ∨ field.kind = .index) ∧ config.isDeprecated name = true := by
  cases field <;> simp [Field.isVirtual, Field.kind, FieldKind.isVirtual]

section Columns

variable {prev next : Table}

/-- Each turn of acceptable columns is permitted and makes of its names what they are to be. -/
theorem ColumnsAcceptable.turn (h : ColumnsAcceptable config prev next) {t : Turn Column}
    (ht : t ∈ turns Column.renamedFrom prev.columns next.columns) :
    t.Permitted config ∧ t.Reproduces := by
  have hfits := (Changes.mem_turns_iff h.markers).1 ht
  cases t with
  | create name column => exact ⟨trivial, h.created hfits.1 hfits.2.1 hfits.2.2⟩
  | move source target before after =>
    have hmoves := hfits.moves
    obtain ⟨harrives, hafter, -, hbefore⟩ := hfits
    exact ⟨trivial, h.moved hmoves (Table.field?_of_find? hbefore) (Table.field?_of_find? hafter)⟩
  | remove name before =>
    obtain ⟨hdeparts, hbefore, hleft⟩ := hfits
    exact removable_iff.2 (h.removed hdeparts hleft (Table.field?_of_find? hbefore))
  | keep name before after =>
    obtain ⟨hplain, hbefore, hafter⟩ := hfits
    have hbecome := h.kept hplain (Table.field?_of_find? hbefore) (Table.field?_of_find? hafter)
    exact ⟨trivial, hbecome⟩

theorem ColumnsAcceptable.of_turns
    (honoured : MarkersHonoured Column.renamedFrom prev.columns next.columns)
    (hturns : ∀ t ∈ turns Column.renamedFrom prev.columns next.columns,
      t.Permitted config ∧ t.Reproduces)
    (hreserved : ∀ c, isReserved c = true →
      (∀ target, ¬Moves Column.renamedFrom prev.columns next.columns c target) →
        prev.field? c = next.field? c) : ColumnsAcceptable config prev next := by
  have hmem {t : Turn Column} := (Changes.mem_turns_iff (t := t) honoured).2
  have hfind {table : Table} {name : String} {field : Field}
      (h : table.field? name = some field) :
      ∃ column, table.columns.find? name = some column ∧ column.field = field :=
    Option.map_eq_some_iff.1 h
  refine ⟨honoured, ?_, ?_, ?_, ?_, fun h => hreserved _ h⟩
  · intro name column harrives hafter hmarker
    exact (hturns (.create _ _) (hmem ⟨harrives, hafter, hmarker⟩)).2
  · intro source target field field' hmoves hbefore hafter
    obtain ⟨before, hsource, rfl⟩ := hfind hbefore
    obtain ⟨after, htarget, rfl⟩ := hfind hafter
    obtain ⟨entity, harrives, hentity, hmarker⟩ := Changes.moves_iff.1 hmoves
    obtain rfl : entity = after := by simpa [htarget] using hentity.symm
    exact (hturns (.move _ _ _ _) (hmem ⟨harrives, hentity, hmarker, hsource⟩)).2
  · intro name field hdeparts hleft hbefore
    obtain ⟨before, hcolumn, rfl⟩ := hfind hbefore
    exact removable_iff.1 (hturns (.remove _ before) (hmem ⟨hdeparts, hcolumn, hleft⟩))
  · intro name field field' hplain hbefore hafter
    obtain ⟨before, hsource, rfl⟩ := hfind hbefore
    obtain ⟨after, htarget, rfl⟩ := hfind hafter
    exact (hturns (.keep _ _ _) (hmem ⟨hplain, hsource, htarget⟩)).2

/-- Columns are acceptable exactly if they can be planned and the plan reaches what it has to. -/
theorem columnsAcceptable_iff : ColumnsAcceptable config prev next ↔
    ColumnsPlanned config prev.columns next.columns ∧
      (alterColumns prev.columns next.columns prev.canonical).field? = next.field? := by
  rw [funext_iff]
  constructor
  · intro h
    rw [field?_alterColumns_eq_iff h.markers (Table.field?_canonical prev)]
    exact ⟨⟨h.markers, fun t ht => (h.turn ht).1⟩, fun t ht => (h.turn ht).2, fun c => h.reserved⟩
  · rintro ⟨⟨honoured, hpermitted⟩, hreached⟩
    rw [field?_alterColumns_eq_iff honoured (Table.field?_canonical prev)] at hreached
    obtain ⟨hreproduces, hreserved⟩ := hreached
    exact .of_turns honoured (fun t ht => ⟨hpermitted t ht, hreproduces t ht⟩) hreserved

/-- A column that no turn speaks of is the same in both tables. -/
theorem ColumnsAcceptable.field?_eq_of_untouched (h : ColumnsAcceptable config prev next)
    {column : String}
    (hcolumn : ∀ t ∈ turns Column.renamedFrom prev.columns next.columns, column ∉ t.names) :
    prev.field? column = next.field? column := by
  refine Changes.eq_of_untouched h.markers (fun c => h.reserved) (fun c hprev hnext => ?_) hcolumn
  rw [Table.field?_eq_none_iff.2 hprev, Table.field?_eq_none_iff.2 hnext]

end Columns

/-! ### The tables of a schema -/

/-- The second name is that of what becomes of the table of the first name: the same name, if it is
not reserved, or a new one that has it as its marker. -/
def Continues (prev next : Schema) (source target : String) : Prop :=
  isReserved source = false ∧ source = target ∨
    Moves Table.renamedFrom prev.tables next.tables source target

instance {prev next : Schema} {source target : String} :
    Decidable (Continues prev next source target) :=
  inferInstanceAs (Decidable (_ ∨ _))

/-- The one schema can become the other. -/
structure Acceptable (config : MigrationConfig) (prev next : Schema) : Prop where
  /-- The previous schema is valid. -/
  valid_prev : prev.validate = .ok ()
  /-- The next schema is valid. -/
  valid_next : next.validate = .ok ()
  /-- Each marker of a new table takes a table that is gone, and no two take the same one. -/
  markers : MarkersHonoured Table.renamedFrom prev.tables next.tables
  /-- A table that is gone has moved, or its name says that it is deprecated. -/
  removed {name : String} : Departs prev.tables next.tables name →
    (∃ target, Moves Table.renamedFrom prev.tables next.tables name target) ∨
      config.isDeprecated name = true
  /-- The columns of a table can become those of the table that continues it. -/
  columns {source target : String} {before after : Table} : Continues prev next source target →
    prev.table? source = some before → next.table? target = some after →
      ColumnsAcceptable config before after
  /-- A reserved table that does not move has the same fields, and is missing where it was. -/
  reserved {name : String} : isReserved name = true →
    (∀ target, ¬Moves Table.renamedFrom prev.tables next.tables name target) →
      prev.fieldsOf? name = next.fieldsOf? name

/-- What the schemas ask of one table. -/
def Changes.Turn.Acceptable (config : MigrationConfig) : Turn Table → Prop
  | create _ _ => True
  | move _ _ prev next | keep _ prev next => ColumnsAcceptable config prev next
  | remove name _ => config.isDeprecated name = true

section Tables

variable {prev next : Schema}

theorem Schema.fieldsOf?_eq_of_missing (name : String) (hprev : name ∉ prev.tables.names)
    (hnext : name ∉ next.tables.names) : prev.fieldsOf? name = next.fieldsOf? name := by
  rw [fieldsOf?_eq_none_iff.2 hprev, fieldsOf?_eq_none_iff.2 hnext]

/-- A turn of a table is acceptable exactly if it succeeds and makes of its names what the next
schema has. -/
theorem Changes.Turn.acceptable_iff
    (honoured : MarkersHonoured Table.renamedFrom prev.tables next.tables) {t : Turn Table}
    (hfits : t.Fits Table.renamedFrom prev.tables next.tables) :
    t.Acceptable config ↔ t.Planned config ∧
      ∀ n ∈ t.names, (t.outcome? n).map Table.field? = next.fieldsOf? n := by
  cases t with
  | create name after =>
    have hcanonical : after.canonical.field? = after.field? := funext after.field?_canonical
    simp [Turn.Acceptable, Turn.Planned, Turn.names, Turn.outcome?,
      Schema.fieldsOf?_of_find? hfits.2.1, hcanonical]
  | move source target before after =>
    have hmoves := hfits.moves
    obtain ⟨harrives, hafter, -, -⟩ := hfits
    have hne : target ≠ source := (honoured.ne hmoves harrives).symm
    have hgone := Schema.fieldsOf?_eq_none_iff.2 (honoured.gone hmoves)
    simp [Turn.Acceptable, Turn.Planned, Turn.names, Turn.outcome?, hne, hgone,
      Schema.fieldsOf?_of_find? hafter, columnsAcceptable_iff]
  | remove name before =>
    have hgone := Schema.fieldsOf?_eq_none_iff.2 hfits.1.2.2
    simp [Turn.Acceptable, Turn.Planned, Turn.names, Turn.outcome?, hgone]
  | keep name before after =>
    simp [Turn.Acceptable, Turn.Planned, Turn.names, Turn.outcome?,
      Schema.fieldsOf?_of_find? hfits.2.2, columnsAcceptable_iff]

/-- A plan that succeeds reaches the next schema exactly if its turns do and the tables that no turn
speaks of are the same in both. -/
theorem Plan.Planned.divergence?_eq_none_iff {plan : Plan} (h : plan.Planned prev next) :
    Schema.divergence? plan.reached next.canonical = none ↔
      (∀ t ∈ turns Table.renamedFrom prev.tables next.tables, ∀ n ∈ t.names,
        (t.outcome? n).map Table.field? = next.fieldsOf? n) ∧
      ∀ n, isReserved n = true →
        (∀ target, ¬Moves Table.renamedFrom prev.tables next.tables n target) →
          prev.fieldsOf? n = next.fieldsOf? n := by
  have hturn {t : Turn Table} (ht : t ∈ turns Table.renamedFrom prev.tables next.tables) :
      (∀ n ∈ t.names, plan.reached.fieldsOf? n = next.fieldsOf? n) ↔
        ∀ n ∈ t.names, (t.outcome? n).map Table.field? = next.fieldsOf? n :=
    forall₂_congr fun n hn => by rw [Schema.fieldsOf?, h.touched ht n hn]
  have huntouched (n : String)
      (hn : ∀ t ∈ turns Table.renamedFrom prev.tables next.tables, n ∉ t.names) :
      plan.reached.fieldsOf? n = prev.fieldsOf? n := by
    rw [Schema.fieldsOf?, h.untouched hn, ← Schema.fieldsOf?, Schema.fieldsOf?_canonical]
  simp only [Schema.divergence?_eq_none_iff, Schema.fieldsOf?_canonical]
  rw [Changes.forall_eq_iff_of_turns h.markers huntouched Schema.fieldsOf?_eq_of_missing]
  exact and_congr_left' (forall₂_congr fun t ht => hturn ht)

/-- Each turn of acceptable schemas is acceptable. -/
theorem Acceptable.turn (h : Acceptable config prev next) {t : Turn Table}
    (ht : t ∈ turns Table.renamedFrom prev.tables next.tables) : t.Acceptable config := by
  have hfits := (Changes.mem_turns_iff h.markers).1 ht
  cases t with
  | create name after => trivial
  | move source target before after =>
    have hmoves := hfits.moves
    obtain ⟨harrives, hafter, -, hbefore⟩ := hfits
    exact h.columns (.inr hmoves) hbefore hafter
  | remove name before =>
    obtain ⟨hdeparts, -, hleft⟩ := hfits
    exact (h.removed hdeparts).resolve_left fun ⟨target, hmoves⟩ => hleft target hmoves
  | keep name before after =>
    obtain ⟨hplain, hbefore, hafter⟩ := hfits
    exact h.columns (.inl ⟨hplain, rfl⟩) hbefore hafter

/-- A table that no turn speaks of has the same fields in both schemas. -/
theorem Acceptable.fieldsOf?_eq_of_untouched (h : Acceptable config prev next) {name : String}
    (hname : ∀ t ∈ turns Table.renamedFrom prev.tables next.tables, name ∉ t.names) :
    prev.fieldsOf? name = next.fieldsOf? name :=
  Changes.eq_of_untouched h.markers (fun _ => h.reserved) Schema.fieldsOf?_eq_of_missing hname

/-- Two schemas are acceptable exactly if they are valid, the markers of the tables are honoured,
every turn is acceptable, and reserved tables stay as they are. -/
theorem acceptable_iff : Acceptable config prev next ↔
    prev.validate = .ok () ∧ next.validate = .ok () ∧
      MarkersHonoured Table.renamedFrom prev.tables next.tables ∧
      (∀ t ∈ turns Table.renamedFrom prev.tables next.tables, t.Acceptable config) ∧
      ∀ n, isReserved n = true →
        (∀ target, ¬Moves Table.renamedFrom prev.tables next.tables n target) →
          prev.fieldsOf? n = next.fieldsOf? n := by
  constructor
  · exact fun h =>
      ⟨h.valid_prev, h.valid_next, h.markers, fun t ht => h.turn ht, fun n => h.reserved⟩
  · -- Each condition is the one of the turn that it is about.
    rintro ⟨hprev, hnext, honoured, hturns, hreserved⟩
    have hmem {t : Turn Table} := (Changes.mem_turns_iff (t := t) honoured).2
    refine ⟨hprev, hnext, honoured, ?_, ?_, fun h => hreserved _ h⟩
    · intro name hdeparts
      by_cases hmoves : ∃ target, Moves Table.renamedFrom prev.tables next.tables name target
      · exact .inl hmoves
      · rw [not_exists] at hmoves
        obtain ⟨before, hbefore⟩ := OrderedMap.mem_names_iff.1 hdeparts.2.1
        exact .inr (hturns (.remove name before) (hmem ⟨hdeparts, hbefore, hmoves⟩))
    · intro source target before after hcontinues hbefore hafter
      rcases hcontinues with ⟨hplain, rfl⟩ | hmoves
      · exact hturns (.keep source before after) (hmem ⟨hplain, hbefore, hafter⟩)
      · obtain ⟨entity, harrives, hentity, hmarker⟩ := Changes.moves_iff.1 hmoves
        obtain rfl : entity = after := Option.some.inj (hentity.symm.trans hafter)
        exact hturns (.move source target before entity)
          (hmem ⟨harrives, hentity, hmarker, hbefore⟩)

theorem requireValid_eq_ok_iff {schema : Schema} {u : Unit} :
    requireValid schema = .ok u ↔ schema.validate = .ok () := by
  unfold requireValid
  split <;> simp_all

/-- The migration is what planning has come to, if it has come to the next schema. -/
theorem migrate_eq_ok_iff_plan {migration : Migration} :
    migrate config prev next = .ok migration ↔
      prev.validate = .ok () ∧ next.validate = .ok () ∧
        ∃ plan, Plan.tableSteps config ⟨prev.canonical, [], []⟩ prev.tables next.tables = .ok plan ∧
          Schema.divergence? plan.reached next.canonical = none ∧
            ⟨plan.statements, next.canonical⟩ = migration := by
  simp only [migrate, bind_eq_ok_iff, requireValid_eq_ok_iff, exists_and_left, exists_const]
  refine and_congr_right fun _ => and_congr_right fun _ => exists_congr fun plan =>
    and_congr_right fun _ => ?_
  cases Schema.divergence? plan.reached next.canonical <;>
    simp [pure, Except.pure, throw, throwThe, MonadExceptOf.throw]

/-- There is a migration exactly if the two schemas are acceptable, and it consists of the
statements of the turns. -/
theorem migrate_eq_ok_iff {migration : Migration} :
    migrate config prev next = .ok migration ↔
      Acceptable config prev next ∧
        migration = ⟨tableStatements prev.tables next.tables, next.canonical⟩ := by
  rw [migrate_eq_ok_iff_plan, acceptable_iff]
  constructor
  · rintro ⟨hprev, hnext, plan, hsteps, hreached, rfl⟩
    have hplanned := Plan.Planned.of_tableSteps hsteps
    obtain ⟨honoured, hturns⟩ := Plan.exists_tableSteps_iff.1 ⟨plan, hsteps⟩
    obtain ⟨hfields, hreserved⟩ := hplanned.divergence?_eq_none_iff.1 hreached
    refine ⟨⟨hprev, hnext, honoured, ?_, hreserved⟩, by rw [hplanned.statements]⟩
    intro t ht
    exact (Turn.acceptable_iff honoured ((Changes.mem_turns_iff honoured).1 ht)).2
      ⟨hturns t ht, hfields t ht⟩
  · rintro ⟨⟨hprev, hnext, honoured, hturns, hreserved⟩, rfl⟩
    have hturn {t : Turn Table} (ht : t ∈ turns Table.renamedFrom prev.tables next.tables) :=
      (Turn.acceptable_iff honoured ((Changes.mem_turns_iff honoured).1 ht)).1 (hturns t ht)
    obtain ⟨plan, hsteps⟩ := Plan.exists_tableSteps_iff.2 ⟨honoured, fun t ht => (hturn ht).1⟩
    have hplanned := Plan.Planned.of_tableSteps hsteps
    exact ⟨hprev, hnext, plan, hsteps,
      hplanned.divergence?_eq_none_iff.2 ⟨fun t ht => (hturn ht).2, hreserved⟩,
      by rw [hplanned.statements]⟩

/-- There is a migration exactly if the two schemas are acceptable. -/
theorem exists_migrate_iff :
    (∃ migration, migrate config prev next = .ok migration) ↔ Acceptable config prev next := by
  simp only [migrate_eq_ok_iff, exists_and_left, exists_eq, and_true]

end Tables

end Schemata
