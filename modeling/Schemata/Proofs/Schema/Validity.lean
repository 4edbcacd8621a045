import Schemata.Schema.Validation

/-!
# Valid schemas

Validation goes through a schema check by check and stops at the first failure. What it accepts can
be said without that order: every name is an identifier, every relation joins two stored columns,
and every alias has its target. The references are read through `Schema.field?`, so that whatever
follows a reference in a valid schema knows what it finds.

## Main definitions

* `Schema.Joins`: a relation is as validation wants it
* `Schema.IsValid`: a schema is as validation wants it

## Main results

* `Schema.validate_eq_ok_iff_isValid`: validation accepts the valid schemas and no others
* `Schema.IsValid.of_fieldsOf?_eq`: validity depends on the structure alone
-/

namespace Schemata

/-- An identifier is made of letters and underscores. -/
theorem isIdentifier_chars {name : String} (h : isIdentifier name) :
    ∀ c ∈ name.toList, c.isAlpha ∨ c = '_' := by
  simp only [isIdentifier, Bool.and_eq_true, List.all_eq_true, Bool.or_eq_true, beq_iff_eq] at h
  exact h.2

namespace Schema

/-- The relation of a column starts in the column's own table and joins two stored columns of one
type. -/
def Joins (schema : Schema) (name : ColumnRef) (relation : Relation) : Prop :=
  relation.source.table = name.table ∧
    ∃ source destination, schema.field? relation.source = some (.atom source) ∧
      schema.field? relation.destination = some (.atom destination) ∧
      source.sqlType = destination.sqlType

/-- Names are identifiers, relations join stored columns, and aliases name columns. -/
structure IsValid (schema : Schema) : Prop where
  /-- Tables are called by identifiers. -/
  table_name : ∀ {name table}, schema.table? name = some table → isIdentifier name
  /-- Columns are called by identifiers. -/
  column_name : ∀ {ref field}, schema.field? ref = some field → isIdentifier ref.column
  /-- Relations join stored columns. -/
  joins : ∀ {ref relation}, schema.field? ref = some (.relation relation) →
    schema.Joins ref relation
  /-- Aliases name columns of their table. -/
  target : ∀ {ref target}, schema.field? ref = some (.aliasTo target) →
    (schema.field? ⟨ref.table, target⟩).isSome

/-! ### What the single checks mean -/

theorem nameCheck_eq_none_iff {name : String} : nameCheck name = none ↔ isIdentifier name := by
  simp [nameCheck]

theorem endpointAtom_eq_ok_iff {schema : Schema} (name : ColumnRef) (side : Endpoint)
    (target : ColumnRef) {a : Atom} :
    schema.endpointAtom name side target = .ok a ↔ schema.field? target = some (.atom a) := by
  unfold endpointAtom field?
  cases schema.table? target.table with
  | none => simp
  | some table =>
    simp only [Option.bind_some]
    split <;> simp_all

theorem relationCheck_eq_none_iff {schema : Schema} {name : ColumnRef} {relation : Relation} :
    schema.relationCheck name relation = none ↔ schema.Joins name relation := by
  unfold relationCheck Joins
  simp only [← endpointAtom_eq_ok_iff name .source relation.source,
    ← endpointAtom_eq_ok_iff name .destination relation.destination]
  by_cases htable : relation.source.table = name.table
  · rw [if_neg (by simpa using htable)]
    cases schema.endpointAtom name .source relation.source with
    | error violation => simp
    | ok source =>
      cases schema.endpointAtom name .destination relation.destination with
      | error violation => simp
      | ok destination => simp [htable]
  · simp [htable]

theorem aliasCheck_eq_none_iff {table : Table} {name : ColumnRef} {target : String} :
    aliasCheck table name target = none ↔ (table.field? target).isSome := by
  rw [aliasCheck, OrderedMap.contains, Table.field?, Option.isSome_map]
  split <;> simp_all

/-- The check of a field asks for something only where the field is virtual. -/
theorem fieldCheck_eq_none_iff {schema : Schema} {table : Table} {name : ColumnRef}
    {field : Field} :
    schema.fieldCheck table name field = none ↔
      (∀ relation, field = .relation relation → schema.Joins name relation) ∧
      ∀ target, field = .aliasTo target → (table.field? target).isSome := by
  cases field <;> simp [fieldCheck, relationCheck_eq_none_iff, aliasCheck_eq_none_iff]

/-! ### All checks together -/

theorem field?_eq_some_iff {schema : Schema} {ref : ColumnRef} {field : Field} :
    schema.field? ref = some field ↔
      ∃ table, schema.table? ref.table = some table ∧ table.field? ref.column = some field :=
  Option.bind_eq_some_iff

/-- All checks of a schema succeed exactly if those of every table and every column do. -/
theorem checks_eq_none_iff {schema : Schema} :
    (∀ outcome ∈ schema.checks, outcome = none) ↔
      ∀ name table, schema.table? name = some table → isIdentifier name ∧
        ∀ column field, table.field? column = some field →
          isIdentifier column ∧ schema.fieldCheck table ⟨name, column⟩ field = none := by
  have hcolumns : ∀ (name : String) (table : Table),
      (∀ outcome ∈ table.columns.entries.flatMap fun e =>
        [nameCheck e.1, schema.fieldCheck table ⟨name, e.1⟩ e.2.field], outcome = none) ↔
      ∀ column field, table.field? column = some field →
        isIdentifier column ∧ schema.fieldCheck table ⟨name, column⟩ field = none := by
    intro name table
    simp only [List.mem_flatMap, Table.field?, Option.map_eq_some_iff,
      ← OrderedMap.mem_entries_iff]
    constructor
    · rintro h column _ ⟨declared, hentry, rfl⟩
      exact ⟨nameCheck_eq_none_iff.1 (h _ ⟨_, hentry, by simp⟩), h _ ⟨_, hentry, by simp⟩⟩
    · rintro h outcome ⟨⟨column, declared⟩, hentry, houtcome⟩
      obtain ⟨hname, hfield⟩ := h column declared.field ⟨declared, hentry, rfl⟩
      rcases List.mem_cons.1 houtcome with rfl | houtcome
      · exact nameCheck_eq_none_iff.2 hname
      · exact (List.mem_singleton.1 houtcome).trans hfield
  simp only [checks, List.mem_flatMap, table?, ← OrderedMap.mem_entries_iff]
  constructor
  · intro h name table hentry
    have hname : nameCheck name = none :=
      h _ ⟨(name, table), hentry, List.mem_cons_self⟩
    refine ⟨nameCheck_eq_none_iff.1 hname, (hcolumns name table).1 fun outcome houtcome => ?_⟩
    exact h outcome ⟨(name, table), hentry, List.mem_cons_of_mem _ houtcome⟩
  · rintro h outcome ⟨⟨name, table⟩, hentry, houtcome⟩
    obtain ⟨hname, hall⟩ := h name table hentry
    rcases List.mem_cons.1 houtcome with rfl | houtcome
    · exact nameCheck_eq_none_iff.2 hname
    · exact (hcolumns name table).2 hall _ houtcome

/-- Validation accepts the valid schemas and no others. -/
theorem validate_eq_ok_iff_isValid {schema : Schema} :
    schema.validate = .ok () ↔ schema.IsValid := by
  rw [validate_eq_ok_iff, checks_eq_none_iff]
  constructor
  · intro h
    refine ⟨fun htable => (h _ _ htable).1, ?_, ?_, ?_⟩
    · intro ref field hfield
      obtain ⟨table, htable, hcolumn⟩ := field?_eq_some_iff.1 hfield
      exact ((h _ _ htable).2 _ _ hcolumn).1
    · intro ref relation hfield
      obtain ⟨table, htable, hcolumn⟩ := field?_eq_some_iff.1 hfield
      exact (fieldCheck_eq_none_iff.1 ((h _ _ htable).2 _ _ hcolumn).2).1 relation rfl
    · intro ref target hfield
      obtain ⟨table, htable, hcolumn⟩ := field?_eq_some_iff.1 hfield
      have := (fieldCheck_eq_none_iff.1 ((h _ _ htable).2 _ _ hcolumn).2).2 target rfl
      simpa [field?, htable] using this
  · intro h name table htable
    refine ⟨h.table_name htable, fun column field hcolumn => ?_⟩
    have hfield : schema.field? ⟨name, column⟩ = some field :=
      field?_eq_some_iff.2 ⟨table, htable, hcolumn⟩
    have hname := h.column_name hfield
    refine ⟨hname, fieldCheck_eq_none_iff.2 ⟨?_, ?_⟩⟩
    · rintro relation rfl
      exact h.joins hfield
    · rintro target rfl
      simpa [field?, htable] using h.target hfield

/-- Validity is a matter of structure: neither the order nor a marker counts. -/
theorem IsValid.of_fieldsOf?_eq {left right : Schema} (h : left.IsValid)
    (hfields : ∀ name, left.fieldsOf? name = right.fieldsOf? name) : right.IsValid := by
  have hfield (ref : ColumnRef) : right.field? ref = left.field? ref := by
    rw [field?_eq_bind_fieldsOf?, field?_eq_bind_fieldsOf?, hfields]
  refine ⟨?_, ?_, ?_, ?_⟩
  · intro name table htable
    have hmem := OrderedMap.mem_names_of_find? htable
    obtain ⟨other, hother⟩ :=
      OrderedMap.mem_names_iff.1 ((mem_names_iff_of_fieldsOf?_eq (hfields name)).2 hmem)
    exact h.table_name hother
  · intro ref field hright
    exact h.column_name ((hfield ref).symm.trans hright)
  · intro ref relation hright
    simpa only [Joins, hfield] using h.joins ((hfield ref).symm.trans hright)
  · intro ref target hright
    simpa only [hfield] using h.target ((hfield ref).symm.trans hright)

end Schema

end Schemata
