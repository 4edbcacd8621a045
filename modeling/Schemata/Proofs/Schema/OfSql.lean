import Mathlib.Data.List.Forall2
import Schemata.Ddl.Statement
import Schemata.Schema.OfSql

/-!
# What the schema of a text consists of

A text gives a schema exactly if it is well-formed and every column has a type. Its tables and
columns are then those of the definitions, in the order in which their names first occur.

## Main results

* `Table.ofDefinition_eq_ok_iff`, `Schema.ofSql_eq_ok_iff`: the tables of definitions, and the
  schemas of texts
* `Schema.exists_definition`: where a column comes from
* `Schema.exists_atom_ofSql`, `Schema.isCanonical_ofSql`: every column is stored, and none has a marker
-/

namespace Schemata

/-- Values are computed one after the other, and each is put under its name. -/
theorem foldlM_eq_ok_iff {ι σ α ε : Type} {put : σ → String → α → σ} {name : ι → String}
    {value : ι → Except ε α} {items : List ι} {start final : σ} :
    items.foldlM (fun state item => do return put state (name item) (← value item)) start =
        .ok final ↔
      ∃ es : List (String × α),
        List.Forall₂ (fun item e => name item = e.1 ∧ value item = .ok e.2) items es ∧
          es.foldl (fun state e => put state e.1 e.2) start = final := by
  induction items generalizing start with
  | nil =>
    simp only [List.foldlM_nil, List.forall₂_nil_left_iff, exists_eq_left, List.foldl_nil]
    exact ⟨Except.ok.inj, congrArg _⟩
  | cons item items ih =>
    simp only [List.foldlM_cons, List.forall₂_cons_left_iff]
    cases value item with
    | error fault =>
      constructor
      · intro h
        cases h
      · rintro ⟨_, ⟨e, _, ⟨_, h⟩, _, _⟩, _⟩
        cases h
    | ok a =>
      have hfirst : (do return put start (name item) (← Except.ok a) : Except ε σ) =
          .ok (put start (name item) a) := rfl
      rw [hfirst]
      refine Iff.trans ih ?_
      constructor
      · rintro ⟨es, hes, hfinal⟩
        exact ⟨(name item, a) :: es, ⟨_, es, ⟨rfl, rfl⟩, hes, rfl⟩, hfinal⟩
      · rintro ⟨_, ⟨e, es, ⟨hname, he⟩, hes, rfl⟩, hfinal⟩
        cases he
        rw [List.foldl_cons, ← hname] at hfinal
        exact ⟨es, hes, hfinal⟩

/-! ### Tables and schemas -/

theorem Table.foldl_insertColumn (es : List (String × Column)) (table : Table) :
    es.foldl (fun table e => table.insertColumn e.1 e.2) table =
      { table with columns := es.foldl (fun m e => m.insert e.1 e.2) table.columns } := by
  induction es generalizing table with
  | nil => rfl
  | cons e es ih => exact ih _

theorem Schema.foldl_insertTable (es : List (String × Table)) (schema : Schema) :
    es.foldl (fun schema e => schema.insertTable e.1 e.2) schema =
      { schema with tables := es.foldl (fun m e => m.insert e.1 e.2) schema.tables } := by
  induction es generalizing schema with
  | nil => rfl
  | cons e es ih => exact ih _

/-- The columns of a table are those of its definition. -/
theorem Table.ofDefinition_eq_ok_iff {definition : Sql.TableDefinition} {table : Table} :
    Table.ofDefinition definition = .ok table ↔
      ∃ es, List.Forall₂ (fun column e => column.name = e.1 ∧
          Column.ofDefinition definition.name column = .ok e.2) definition.columns es ∧
        ⟨.ofList es, none⟩ = table := by
  rw [Table.ofDefinition, foldlM_eq_ok_iff]
  simp only [Table.foldl_insertColumn]
  rfl

/-- The tables of a schema are those of the text. -/
theorem Schema.ofSql_eq_ok_iff {dialect : Dialect} {text : String} {schema : Schema} :
    Schema.ofSql dialect text = .ok schema ↔
      ∃ definitions, Sql.tableDefinitions? dialect text = some definitions ∧
        ∃ es, List.Forall₂ (fun definition e => definition.name = e.1 ∧
          Table.ofDefinition definition = .ok e.2) definitions es ∧ ⟨.ofList es⟩ = schema := by
  unfold Schema.ofSql
  cases Sql.tableDefinitions? dialect text with
  | none => simp
  | some definitions =>
    simp only [foldlM_eq_ok_iff, Schema.foldl_insertTable, Option.some.injEq, exists_eq_left']
    rfl

/-! ### Columns -/

/-- The stored column of a definition with a type. -/
def Atom.ofDefinition (definition : Sql.ColumnDefinition) (type : Sql.DataType) : Atom :=
  ⟨type.render, .ofSqlType type.render,
    String.intercalate " " (definition.options.map Sql.NamedOption.render)⟩

/-- The column of a definition with a type. -/
def Column.stored (definition : Sql.ColumnDefinition) (type : Sql.DataType) : Column :=
  ⟨.atom (.ofDefinition definition type), none⟩

/-- A column is stored if it has a type. -/
theorem Column.ofDefinition_eq_ok_iff {table : String} {definition : Sql.ColumnDefinition}
    {column : Column} : Column.ofDefinition table definition = .ok column ↔
      ∃ type, definition.type = some type ∧ Column.stored definition type = column := by
  unfold Column.ofDefinition
  cases definition.type with
  | none => simp
  | some type => simp [Column.stored, Atom.ofDefinition]

/-- Elements that are images are the images of some elements. -/
theorem exists_map_eq {ι α : Type} {p : ι → Prop} {f : ι → α} {as : List α}
    (h : ∀ a ∈ as, ∃ i, p i ∧ f i = a) : ∃ items : List ι, (∀ i ∈ items, p i) ∧ items.map f = as := by
  induction as with
  | nil => exact ⟨[], by simp, rfl⟩
  | cons a as ih =>
    obtain ⟨i, hi, rfl⟩ := h a (by simp)
    obtain ⟨items, hitems, rfl⟩ := ih fun b hb => h b (List.mem_cons_of_mem _ hb)
    exact ⟨i :: items, by simp_all, rfl⟩

/-- Of two lists related one by one, every element of the second is related to one of the first. -/
theorem exists_of_mem_forall₂ {α β : Type} {r : α → β → Prop} {as : List α} {bs : List β} {b : β}
    (h : List.Forall₂ r as bs) (hb : b ∈ bs) : ∃ a ∈ as, r a b := by
  induction h with
  | nil => cases hb
  | cons hr hrest ih =>
    rcases List.mem_cons.1 hb with rfl | hb
    · exact ⟨_, by simp, hr⟩
    · obtain ⟨a, ha, hr⟩ := ih hb
      exact ⟨a, List.mem_cons_of_mem _ ha, hr⟩

/-- The columns of a table come from its definition. -/
theorem Table.exists_columns {definition : Sql.TableDefinition} {table : Table}
    (h : Table.ofDefinition definition = .ok table) :
    ∃ columns : List (Sql.ColumnDefinition × Sql.DataType),
      (∀ column ∈ columns, column.1 ∈ definition.columns ∧ column.1.type = some column.2) ∧
        table.columns.entries =
          columns.map fun column => (column.1.name, .stored column.1 column.2) := by
  obtain ⟨es, hes, rfl⟩ := Table.ofDefinition_eq_ok_iff.1 h
  have hall : ∀ e ∈ (OrderedMap.ofList es).entries, ∃ column : Sql.ColumnDefinition × Sql.DataType,
      (column.1 ∈ definition.columns ∧ column.1.type = some column.2) ∧
        (column.1.name, Column.stored column.1 column.2) = e := by
    intro e he
    obtain ⟨column, hcolumn, hname, hvalue⟩ :=
      exists_of_mem_forall₂ hes (OrderedMap.mem_entries_ofList he)
    obtain ⟨type, htype, hstored⟩ := Column.ofDefinition_eq_ok_iff.1 hvalue
    exact ⟨(column, type), ⟨hcolumn, htype⟩, Prod.ext hname hstored⟩
  obtain ⟨columns, hcolumns, heq⟩ := exists_map_eq hall
  exact ⟨columns, hcolumns, heq.symm⟩

/-- The tables of a schema come from the text. -/
theorem Schema.exists_definition {dialect : Dialect} {text : String} {schema : Schema}
    {definitions : List Sql.TableDefinition} (h : Schema.ofSql dialect text = .ok schema)
    (hdefinitions : Sql.tableDefinitions? dialect text = some definitions) :
    ∀ e ∈ schema.tables.entries, ∃ definition ∈ definitions, definition.name = e.1 ∧
      Table.ofDefinition definition = .ok e.2 := by
  obtain ⟨_, hsome, es, hes, rfl⟩ := Schema.ofSql_eq_ok_iff.1 h
  rw [hdefinitions] at hsome
  cases hsome
  exact fun e he => exists_of_mem_forall₂ hes (OrderedMap.mem_entries_ofList he)

/-- Neither the table nor a column of it is being renamed. -/
theorem Table.isCanonical_ofDefinition {definition : Sql.TableDefinition} {table : Table}
    (h : Table.ofDefinition definition = .ok table) : table.isCanonical := by
  obtain ⟨columns, -, hentries⟩ := Table.exists_columns h
  have hmarker : table.renamedFrom = none := by
    obtain ⟨es, -, rfl⟩ := Table.ofDefinition_eq_ok_iff.1 h
    rfl
  simp [isCanonical, hmarker, OrderedMap.values, hentries, Column.isCanonical, Column.stored]

/-- Every column of the schema of a text is stored. -/
theorem Schema.exists_atom_ofSql {dialect : Dialect} {text : String} {schema : Schema}
    (h : Schema.ofSql dialect text = .ok schema) {ref : ColumnRef} {field : Field}
    (hfield : schema.field? ref = some field) : ∃ atom, field = .atom atom := by
  obtain ⟨definitions, hdefinitions, -⟩ := Schema.ofSql_eq_ok_iff.1 h
  obtain ⟨table, htable, hinTable⟩ := Option.bind_eq_some_iff.1 hfield
  obtain ⟨column, hcolumn, rfl⟩ := Option.map_eq_some_iff.1 hinTable
  obtain ⟨definition, -, -, hdefinition⟩ :=
    Schema.exists_definition h hdefinitions _ (OrderedMap.mem_entries_iff.2 htable)
  obtain ⟨columns, -, hentries⟩ := Table.exists_columns hdefinition
  have hmem := OrderedMap.mem_entries_iff.2 hcolumn
  rw [hentries, List.mem_map] at hmem
  obtain ⟨stored, -, hstored⟩ := hmem
  rw [← (Prod.mk.inj hstored).2]
  exact ⟨_, rfl⟩

/-- The schema of a text has no markers. -/
theorem Schema.isCanonical_ofSql {dialect : Dialect} {text : String} {schema : Schema}
    (h : Schema.ofSql dialect text = .ok schema) : schema.isCanonical := by
  obtain ⟨definitions, hdefinitions, -⟩ := Schema.ofSql_eq_ok_iff.1 h
  simp only [isCanonical, OrderedMap.values, List.all_map, List.all_eq_true]
  intro e he
  obtain ⟨definition, -, -, htable⟩ := Schema.exists_definition h hdefinitions e he
  exact Table.isCanonical_ofDefinition htable

end Schemata
