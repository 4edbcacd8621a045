import Schemata.Proofs.Migration.Repetition

/-!
# Schemas that only grow

If a schema has all that the previous one has and more, without a marker anywhere, then what there
is to do is to add. Tables and columns that are new can be added in every mix and every order, with
one exception: the comparison of names passes over reserved ones, so a reserved name that is new is
not added, and the schema that is reached differs from the one that is asked for. Inside a table
that is created a reserved column does no harm, for the table is created as a whole.

## Main definitions

* `Schema.GrowsTo`: another schema has all tables and fields of the first, and neither has a marker
* `Schema.GainsPlainNames`: what it has beyond that is not reserved
* `Statement.IsAddition`: the statement creates a table or an index, or adds a column

## Main results

* `GrowsTo.acceptable_iff`: growth is acceptable exactly if what is gained is not reserved
* `migrate_growth`: the next schema is then reached by additions alone
-/

namespace Schemata

open Changes (Arrives Departs Moves MarkersHonoured Turn turns)

namespace Schema

/-- The second schema has all tables and fields of the first, neither has a marker, and no table of
the first gets a constraint. -/
structure GrowsTo (prev next : Schema) : Prop where
  canonical_prev : prev.isCanonical = true
  canonical_next : next.isCanonical = true
  table {name : String} : name ∈ prev.tables.names → name ∈ next.tables.names
  field {ref : ColumnRef} {field : Field} :
    prev.field? ref = some field → next.field? ref = some field
  constraint {ref : ColumnRef} {field : Field} : ref.table ∈ prev.tables.names →
    prev.field? ref = none → next.field? ref = some field → field.kind ≠ .constraint

/-- What the second schema has beyond the first is not reserved: the tables that are new, and of the
columns that are new in a table of the first schema both the table and the column. -/
structure GainsPlainNames (prev next : Schema) : Prop where
  table {name : String} : name ∈ next.tables.names → name ∉ prev.tables.names →
    isReserved name = false
  column {ref : ColumnRef} {field : Field} : ref.table ∈ prev.tables.names →
    prev.field? ref = none → next.field? ref = some field →
      isReserved ref.table = false ∧ isReserved ref.column = false

end Schema

/-- The statement creates a table or an index, or adds a column. -/
def Statement.IsAddition : Statement → Prop
  | createTable _ _ _ | addColumn _ _ _ | createIndex _ _ _ => True
  | _ => False

instance : DecidablePred Statement.IsAddition := fun statement => by
  cases statement <;> unfold Statement.IsAddition <;> infer_instance

/-! ### Without markers -/

/-- Without a marker nothing moves. -/
theorem Changes.not_moves_of_unmarked {α : Type*} {marker : α → Option String}
    {prev next : OrderedMap α}
    (hmarker : ∀ {name entity}, next.find? name = some entity → marker entity = none)
    {source target : String} : ¬Moves marker prev next source target := by
  intro hmoves
  obtain ⟨entity, -, hfind, hsource⟩ := moves_iff.1 hmoves
  rw [hmarker hfind] at hsource
  exact absurd hsource (by simp)

section Unmarked

variable {schema : Schema} {table : Table} {name column : String} {declared : Column}

theorem Schema.isCanonical_of_find? (h : schema.isCanonical = true)
    (htable : schema.tables.find? name = some table) : table.isCanonical = true :=
  List.all_eq_true.1 h table (OrderedMap.mem_values_iff.2 ⟨name, htable⟩)

theorem Table.renamedFrom_of_isCanonical (h : table.isCanonical = true) :
    table.renamedFrom = none := by
  simp only [Table.isCanonical, Bool.and_eq_true, Option.isNone_iff_eq_none] at h
  exact h.1

theorem Table.column_renamedFrom_of_isCanonical (h : table.isCanonical = true)
    (hcolumn : table.columns.find? column = some declared) : declared.renamedFrom = none := by
  simp only [Table.isCanonical, Bool.and_eq_true, List.all_eq_true] at h
  have hdeclared := h.2 declared (OrderedMap.mem_values_iff.2 ⟨column, hcolumn⟩)
  simpa [Column.isCanonical] using hdeclared

end Unmarked

namespace Schema.GrowsTo

variable {config : MigrationConfig} {prev next : Schema} {name column : String}
variable {before after : Table}

/-! ### The columns of a table that is kept -/

theorem not_moves_column (h : GrowsTo prev next) (hafter : next.tables.find? name = some after)
    {source target : String} :
    ¬Moves Column.renamedFrom before.columns after.columns source target := by
  apply Changes.not_moves_of_unmarked
  intro column declared hcolumn
  have hcanonical := isCanonical_of_find? h.canonical_next hafter
  exact Table.column_renamedFrom_of_isCanonical hcanonical hcolumn

section Columns

variable (h : GrowsTo prev next) (hbefore : prev.tables.find? name = some before)
variable (hafter : next.tables.find? name = some after)

include h hbefore hafter

theorem field?_of_before {field : Field} (hfield : before.field? column = some field) :
    after.field? column = some field := by
  rw [← field?_of_find? hafter]
  apply h.field
  rw [field?_of_find? hbefore, hfield]

theorem column_mem (hcolumn : column ∈ before.columns.names) : column ∈ after.columns.names := by
  obtain ⟨declared, hdeclared⟩ := OrderedMap.mem_names_iff.1 hcolumn
  exact Table.mem_names_of_field?
    (field?_of_before h hbefore hafter (Table.field?_of_find? hdeclared))

/-- A column that is not new is the same in both tables. -/
theorem field?_eq_of_not_new
    (hold : ∀ field, before.field? column = none → after.field? column ≠ some field) :
    before.field? column = after.field? column := by
  cases hfield : before.field? column with
  | some field => exact (field?_of_before h hbefore hafter hfield).symm
  | none =>
    cases hfield' : after.field? column with
    | none => rfl
    | some field => exact absurd hfield' (hold field hfield)

/-- The columns of a table that is kept are acceptable exactly if none that is new is reserved. -/
theorem columnsAcceptable_iff : ColumnsAcceptable config before after ↔
    ∀ column field, before.field? column = none → after.field? column = some field →
      isReserved column = false := by
  have hleft {s t : String} : ¬Moves Column.renamedFrom before.columns after.columns s t :=
    h.not_moves_column hafter
  constructor
  · intro hacceptable column field hnew hfield
    apply Bool.eq_false_iff.2
    intro hreserved
    -- The comparison passes over the column, so it would have to be there before.
    have hsame := hacceptable.reserved hreserved fun _ => hleft
    rw [hnew, hfield] at hsame
    exact absurd hsame (by simp)
  · intro hplain
    refine ⟨.of_not_moves hleft, ?_, ?_, ?_, ?_, ?_⟩
    · intro column declared harrives hdeclared _
      have hnew : before.field? column = none := Table.field?_eq_none_iff.2 harrives.2.2
      have hname : name ∈ prev.tables.names := OrderedMap.mem_names_of_find? hbefore
      rw [← field?_of_find? hbefore] at hnew
      have hfield : next.field? ⟨name, column⟩ = some declared.field := by
        rw [field?_of_find? hafter, Table.field?_of_find? hdeclared]
      exact h.constraint hname hnew hfield
    · intro source target field field' hm _ _
      exact absurd hm hleft
    · intro column field hdeparts _ _
      exact absurd (column_mem h hbefore hafter hdeparts.2.1) hdeparts.2.2
    · intro column field field' _ hfield hfield'
      have hsame := field?_of_before h hbefore hafter hfield
      exact .inl (Option.some.inj (hsame.symm.trans hfield'))
    · intro column hreserved _
      apply field?_eq_of_not_new h hbefore hafter
      intro field hnew hfield
      exact Bool.eq_false_iff.1 (hplain column field hnew hfield) hreserved

/-- The columns of a table that is kept are changed by additions alone. -/
theorem isAddition_of_mem_columnStatements {statement : Statement}
    (hstatement : statement ∈ columnStatements name before.columns after.columns) :
    statement.IsAddition := by
  obtain ⟨t, ht, hmem⟩ := List.mem_flatMap.1 hstatement
  have honoured : MarkersHonoured Column.renamedFrom before.columns after.columns :=
    .of_not_moves (h.not_moves_column hafter)
  obtain ⟨column, declared, -, rfl⟩ | ⟨column, _, _, -, -, rfl⟩ :=
    Changes.create_or_keep_of_mem_turns honoured (column_mem h hbefore hafter) ht
  · cases hfield : declared.field <;>
      simp_all [Turn.columnStatements, Plan.addition?, Statement.IsAddition]
  · simp [Turn.columnStatements] at hmem

end Columns

/-! ### The tables of a schema -/

variable (h : GrowsTo prev next)

include h

theorem not_moves {source target : String} :
    ¬Moves Table.renamedFrom prev.tables next.tables source target := by
  apply Changes.not_moves_of_unmarked
  intro name table htable
  exact Table.renamedFrom_of_isCanonical (isCanonical_of_find? h.canonical_next htable)

/-- A reserved table is the same in both schemas if what is gained is not reserved. -/
theorem fieldsOf?_eq_of_reserved (hplain : GainsPlainNames prev next)
    (hreserved : isReserved name = true) : prev.fieldsOf? name = next.fieldsOf? name := by
  by_cases hprev : name ∈ prev.tables.names
  · obtain ⟨before, hbefore⟩ := OrderedMap.mem_names_iff.1 hprev
    obtain ⟨after, hafter⟩ := OrderedMap.mem_names_iff.1 (h.table hprev)
    rw [fieldsOf?_of_find? hbefore, fieldsOf?_of_find? hafter]
    congr 1
    ext1 column
    apply field?_eq_of_not_new h hbefore hafter
    intro field hnew hfield
    rw [← field?_of_find? hbefore] at hnew
    rw [← field?_of_find? hafter] at hfield
    exact Bool.eq_false_iff.1 (hplain.column hprev hnew hfield).1 hreserved
  · apply fieldsOf?_eq_of_missing name hprev
    intro hnext
    exact Bool.eq_false_iff.1 (hplain.table hnext hprev) hreserved

/-- If the second schema can be reached, what it gains is not reserved: reserved names are passed
over, and would have to be there before. -/
theorem gainsPlainNames (hacceptable : Acceptable config prev next) :
    GainsPlainNames prev next := by
  have hsame {name : String} (hreserved : isReserved name = true) :
      prev.fieldsOf? name = next.fieldsOf? name :=
    hacceptable.reserved hreserved fun _ => h.not_moves
  refine ⟨?_, ?_⟩
  · intro name hname hnew
    apply Bool.eq_false_iff.2
    intro hreserved
    exact hnew ((mem_names_iff_of_fieldsOf?_eq (hsame hreserved)).2 hname)
  · intro ref field htable hnew hfield
    -- A reserved table is passed over as a whole, with whatever columns it has.
    have hplain : isReserved ref.table = false := by
      apply Bool.eq_false_iff.2
      intro hreserved
      rw [field?_eq_bind_fieldsOf?, hsame hreserved, ← field?_eq_bind_fieldsOf?, hfield] at hnew
      exact absurd hnew (by simp)
    obtain ⟨before, hbefore⟩ := OrderedMap.mem_names_iff.1 htable
    obtain ⟨after, hafter⟩ := OrderedMap.mem_names_iff.1 (h.table htable)
    rw [field?_of_find? hbefore] at hnew
    rw [field?_of_find? hafter] at hfield
    have hcolumns := hacceptable.columns (.inl ⟨hplain, rfl⟩) hbefore hafter
    exact ⟨hplain, (columnsAcceptable_iff h hbefore hafter).1 hcolumns ref.column field hnew hfield⟩

/-- Growth is acceptable exactly if what is gained is not reserved. -/
theorem acceptable_iff (hprev : prev.validate = .ok ()) (hnext : next.validate = .ok ()) :
    Acceptable config prev next ↔ GainsPlainNames prev next := by
  refine ⟨h.gainsPlainNames, ?_⟩
  intro hplain
  refine ⟨hprev, hnext, .of_not_moves h.not_moves, ?_, ?_, ?_⟩
  · intro name hdeparts
    exact absurd (h.table hdeparts.2.1) hdeparts.2.2
  · intro source target before after hcontinues hbefore hafter
    obtain ⟨-, rfl⟩ | hm := hcontinues
    · apply (columnsAcceptable_iff h hbefore hafter).2
      intro column field hnew hfield
      rw [← field?_of_find? hbefore] at hnew
      rw [← field?_of_find? hafter] at hfield
      have hname : source ∈ prev.tables.names := OrderedMap.mem_names_of_find? hbefore
      exact (hplain.column hname hnew hfield).2
    · exact absurd hm h.not_moves
  · intro name hreserved _
    exact h.fieldsOf?_eq_of_reserved hplain hreserved

/-- Growth needs additions alone. -/
theorem isAddition_of_mem {statement : Statement}
    (hstatement : statement ∈ tableStatements prev.tables next.tables) : statement.IsAddition := by
  obtain ⟨t, ht, hmem⟩ := List.mem_flatMap.1 hstatement
  obtain ⟨name, table, -, rfl⟩ | ⟨name, before, after, hbefore, hafter, rfl⟩ :=
    Changes.create_or_keep_of_mem_turns (.of_not_moves h.not_moves) h.table ht
  · -- A table is created by one statement, and then each of its indexes by one.
    obtain rfl | ⟨⟨column, definition⟩, -, rfl⟩ :=
      List.mem_cons.1 hmem |>.imp_right List.mem_map.1
    · trivial
    · trivial
  · exact isAddition_of_mem_columnStatements h hbefore hafter hmem

end Schema.GrowsTo

/-- The empty schema grows to every schema without markers. -/
theorem Schema.GrowsTo.of_empty {next : Schema} (hnext : next.isCanonical = true) :
    Schema.GrowsTo .empty next := by
  refine ⟨rfl, hnext, ?_, ?_, ?_⟩
  · intro name hname
    exact absurd hname (List.not_mem_nil)
  · intro ref field hfield
    have hnone : Schema.empty.field? ref = none := rfl
    rw [hnone] at hfield
    exact absurd hfield (by simp)
  · intro ref field hname
    exact absurd hname (List.not_mem_nil)

section Growth

variable {config : MigrationConfig} {prev next : Schema}

/-- A schema grows by additions alone. Between valid schemas of which the first grows to the second
there is a migration exactly if what is gained is not reserved; it creates tables and indexes and
adds columns and does nothing else, and the schema that it returns has the structure of the second.
So every valid schema without markers and without reserved tables can be created from the empty one,
whatever its columns are called. -/
theorem migrate_growth :
    (prev.validate = .ok () → next.validate = .ok () → prev.GrowsTo next →
      ((∃ migration, migrate config prev next = .ok migration) ↔ prev.GainsPlainNames next) ∧
      ∀ migration, migrate config prev next = .ok migration →
        (∀ statement ∈ migration.statements, statement.IsAddition) ∧
          migration.schema.sameStructure next = true) ∧
    (next.validate = .ok () → next.isCanonical = true →
      (∀ name ∈ next.tables.names, isReserved name = false) →
        ∃ migration, migrate config .empty next = .ok migration ∧
          (∀ statement ∈ migration.statements, statement.IsAddition) ∧
            migration.schema.sameStructure next = true) := by
  constructor
  · intro hprev hnext h
    simp only [migrate_eq_ok_iff, exists_and_left, exists_eq, and_true]
    refine ⟨h.acceptable_iff hprev hnext, ?_⟩
    rintro _ ⟨-, rfl⟩
    exact ⟨fun statement => h.isAddition_of_mem, next.sameStructure_canonical⟩
  · intro hnext hcanonical hplain
    -- Nothing was there, so no column is new in a table that was.
    have h := Schema.GrowsTo.of_empty hcanonical
    have hadds : Schema.empty.GainsPlainNames next :=
      ⟨fun hname _ => hplain _ hname, fun hname _ _ => absurd hname List.not_mem_nil⟩
    have hacceptable : Acceptable config .empty next := (h.acceptable_iff rfl hnext).2 hadds
    exact ⟨_, migrate_eq_ok_iff.2 ⟨hacceptable, rfl⟩, fun statement => h.isAddition_of_mem,
      next.sameStructure_canonical⟩

/-- A schema of one table with one column. -/
def Schema.small : Schema :=
  Schema.empty.insertTable "t" (Table.empty.insertColumn "x" ⟨.integer "", none⟩)

/-- The same with an index on the column, after a further table that has a reserved column. -/
def Schema.grown : Schema :=
  (Schema.empty.insertTable "v" (Table.empty.insertColumn "__rev" ⟨.integer "", none⟩)).insertTable
    "t" ((Table.empty.insertColumn "x" ⟨.integer "", none⟩).insertColumn "by_x" ⟨.index "x", none⟩)

theorem Schema.field?_small (ref : ColumnRef) : Schema.small.field? ref =
    if "t" = ref.table then if "x" = ref.column then some (.integer "") else none else none := by
  simp only [small, field?_insertTable, Table.field?_insertColumn]
  rfl

theorem Schema.field?_grown (ref : ColumnRef) : Schema.grown.field? ref =
    if "t" = ref.table then
      if "by_x" = ref.column then some (.index "x")
      else if "x" = ref.column then some (.integer "") else none
    else if "v" = ref.table then
      if "__rev" = ref.column then some (.integer "") else none
    else none := by
  simp only [grown, field?_insertTable, Table.field?_insertColumn]
  rfl

theorem Schema.small_growsTo_grown : Schema.small.GrowsTo .grown := by
  refine ⟨by decide, by decide, ?_, ?_, ?_⟩
  · intro name hname
    obtain rfl : name = "t" := List.mem_singleton.1 hname
    decide
  · intro ref field hfield
    rw [field?_small] at hfield
    rw [field?_grown]
    grind
  · intro ref field _ _ hfield
    rw [field?_grown] at hfield
    grind [Field.kind, Field.integer]

/-- The small schema becomes the grown one, and so does the empty one. -/
theorem migrate_growth_small :
    (∃ migration, migrate {} .small .grown = .ok migration ∧
      (∀ statement ∈ migration.statements, statement.IsAddition) ∧
        migration.schema.sameStructure .grown = true) ∧
      ∃ migration, migrate {} .empty .grown = .ok migration ∧
        (∀ statement ∈ migration.statements, statement.IsAddition) ∧
          migration.schema.sameStructure .grown = true := by
  obtain ⟨hverdict, hadditions⟩ := (@migrate_growth {} .small .grown).1 (by decide) (by decide)
    Schema.small_growsTo_grown
  have hplain : Schema.small.GainsPlainNames .grown := by
    refine ⟨?_, ?_⟩
    · intro name hname _
      have hlisted : name ∈ ["v", "t"] := hname
      simp only [List.mem_cons, List.not_mem_nil, or_false] at hlisted
      obtain rfl | rfl := hlisted <;> decide
    · intro ref field htable hnew hfield
      obtain htable : ref.table = "t" := List.mem_singleton.1 htable
      rw [Schema.field?_small] at hnew
      rw [Schema.field?_grown] at hfield
      -- Of the two columns of the table only the index is new.
      have hcolumn : ref.column = "by_x" := by grind
      rw [htable, hcolumn]
      decide
  obtain ⟨migration, hmigration⟩ := hverdict.2 hplain
  refine ⟨⟨migration, hmigration, hadditions migration hmigration⟩, ?_⟩
  apply (@migrate_growth {} .empty .grown).2 (by decide) (by decide)
  intro name hname
  have hlisted : name ∈ ["v", "t"] := hname
  simp only [List.mem_cons, List.not_mem_nil, or_false] at hlisted
  obtain rfl | rfl := hlisted <;> decide

end Growth

/-- A schema of one reserved table. -/
def Schema.ofMeta : Schema :=
  ⟨.ofList [("__meta", ⟨.ofList [("id", ⟨.integer "", none⟩)], none⟩)]⟩

/-- A valid schema without markers that cannot be created: its table is reserved. -/
theorem not_created_meta :
    Schema.ofMeta.validate = .ok () ∧ Schema.empty.GrowsTo .ofMeta ∧
      ∀ config, migrate config .empty .ofMeta =
        .error (.divergent (.differs (.tableMissing "__meta")) []) := by
  refine ⟨by decide, .of_empty (by decide), ?_⟩
  intro config
  rfl

end Schemata
