import Schemata.Proofs.Inspection
import Schemata.Proofs.Migration.Reordering

/-!
# Equality of structure

The comparison of two schemas goes through the tables and columns of one of them and then looks for
what is left over in the other. So it treats its two sides differently, and ends at the first
difference. What it decides is symmetric nevertheless: whether the two are the same maps from names
to fields. The difference that it reports is one that there is, and none comes before it.

## Main definitions

* `Place`, `Schema.places`: a table or column as something to compare, and the order of comparison
* `Place.Agrees`: two schemas have the same in a place
* `Divergence.Holds`: the difference exists
* `Schema.Compares`: what comparing at the places comes to
* `Schema.SameMap`: equality that does not see the order

## Main results

* `Schema.compares_places`: the comparison goes through the places
* `Schema.sameStructure_iff_sameMap`: the structure of a schema is its canonical form as a map
* `Schema.divergence?_spec`: what the comparison decides, and what it reports
-/

namespace Schemata

/-! ### Differences and where they are -/

/-- A place at which schemas are compared. -/
inductive Place
  /-- The name of a table. -/
  | table (name : String)
  /-- A column of a table. -/
  | column (ref : ColumnRef)

/-- Both schemas have the table, or neither; they have the same field, or none. -/
def Place.Agrees (found expected : Schema) : Place → Prop
  | table name => name ∈ found.tables.names ↔ name ∈ expected.tables.names
  | column ref => found.field? ref = expected.field? ref

namespace Divergence

/-- Where the difference is. -/
def place : Divergence → Place
  | tableMissing table | tableUnexpected table => .table table
  | columnMissing ref | columnUnexpected ref | columnDiffers ref _ _ => .column ref

/-- There is the difference. -/
def Holds (found expected : Schema) : Divergence → Prop
  | tableMissing table => table ∉ found.tables.names ∧ table ∈ expected.tables.names
  | tableUnexpected table => table ∈ found.tables.names ∧ table ∉ expected.tables.names
  | columnMissing ref => ref.table ∈ found.tables.names ∧ found.field? ref = none ∧
      ∃ field, expected.field? ref = some field
  | columnUnexpected ref => ref.table ∈ expected.tables.names ∧
      (∃ field, found.field? ref = some field) ∧ expected.field? ref = none
  | columnDiffers ref field field' => found.field? ref = some field ∧
      expected.field? ref = some field' ∧ field ≠ field'

variable {found expected : Schema} {divergence divergence' : Divergence}

/-- Where there is a difference, the schemas do not agree. -/
theorem Holds.not_agrees (h : divergence.Holds found expected) :
    ¬divergence.place.Agrees found expected := by
  intro hagrees
  cases divergence with
  | tableMissing table => exact h.1 (hagrees.2 h.2)
  | tableUnexpected table => exact h.2 (hagrees.1 h.1)
  | columnMissing ref =>
    obtain ⟨-, hnone, field, hsome⟩ := h
    exact absurd (hnone.symm.trans (hagrees.trans hsome)) (by simp)
  | columnUnexpected ref =>
    obtain ⟨-, ⟨field, hsome⟩, hnone⟩ := h
    exact absurd (hnone.symm.trans (hagrees.symm.trans hsome)) (by simp)
  | columnDiffers ref field field' =>
    obtain ⟨hfield, hfield', hne⟩ := h
    exact hne (Option.some.inj (hfield.symm.trans (hagrees.trans hfield')))

/-- There is one difference in a place at most. -/
theorem Holds.unique (h : divergence.Holds found expected)
    (h' : divergence'.Holds found expected) (hplace : divergence.place = divergence'.place) :
    divergence = divergence' := by
  -- Two kinds of difference are either in different places or exclude each other.
  cases divergence <;> cases divergence' <;> simp only [place, Place.table.injEq, reduceCtorEq,
    Place.column.injEq] at hplace <;> subst hplace <;> simp only [Holds] at h h' <;> grind

end Divergence

/-! ### The order of comparison -/

/-- The columns of two tables of a name: the expected ones in their order, then those that are only
found. -/
def Table.places (name : String) (found expected : Table) : List Place :=
  (expected.columns.entries.map fun e => .column ⟨name, e.1⟩) ++
    (found.columns.names.filter fun column => !expected.columns.contains column).map
      fun column => .column ⟨name, column⟩

/-- The tables of two schemas: the expected ones in their order, each with its columns if it is
found, then those that are only found. -/
def Schema.places (found expected : Schema) : List Place :=
  (expected.tables.entries.flatMap fun (name, table) =>
    .table name :: match found.table? name with
      | none => []
      | some other => other.places name table) ++
  (found.tables.names.filter fun name => !expected.tables.contains name).map .table

/-- The comparison comes to the outcome at the places. -/
def Schema.Compares (found expected : Schema) : List Place → Option Divergence → Prop :=
  Inspects (Place.Agrees found expected) fun place divergence =>
    divergence.place = place ∧ divergence.Holds found expected

namespace Schema

variable {found expected : Schema} {name : String} {table table' : Table}

theorem compares_of_holds (divergence : Divergence) (h : divergence.Holds found expected)
    (more : List Place) : found.Compares expected (divergence.place :: more) (some divergence) :=
  .unmet h.not_agrees ⟨rfl, h⟩

theorem compares_column (hfound : found.table? name = some table)
    (hexpected : expected.table? name = some table') {column : String} {declared : Column}
    (hcolumn : table'.columns.find? column = some declared) :
    found.Compares expected [.column ⟨name, column⟩] (match table.columns.find? column with
      | none => some (.columnMissing ⟨name, column⟩)
      | some other =>
        if other.field = declared.field then none
        else some (.columnDiffers ⟨name, column⟩ other.field declared.field)) := by
  have hmem : name ∈ found.tables.names := OrderedMap.mem_names_of_find? hfound
  have hleft := field?_of_find? hfound column
  have hright : expected.field? ⟨name, column⟩ = some declared.field := by
    rw [field?_of_find? hexpected, Table.field?_of_find? hcolumn]
  cases hother : table.columns.find? column with
  | none =>
    rw [Table.field?, hother] at hleft
    exact compares_of_holds (.columnMissing _)
      ⟨hmem, hleft, _, hright⟩ []
  | some other =>
    rw [Table.field?_of_find? hother] at hleft
    by_cases hsame : other.field = declared.field
    · simp only [if_pos hsame]
      exact .met (hleft.trans (hsame ▸ hright.symm)) .nil
    · simp only [if_neg hsame]
      exact compares_of_holds (.columnDiffers ..) ⟨hleft, hright, hsame⟩ []

theorem compares_columns (hfound : found.table? name = some table)
    (hexpected : expected.table? name = some table') :
    found.Compares expected (table.places name table') (table.divergences name table').head? := by
  rw [Table.divergences, List.head?_append, List.head?_filterMap, ← List.filterMap_eq_map,
    List.head?_filterMap]
  refine .append (.map fun e he => ?_) (.map fun column hcolumn => ?_)
  · exact compares_column hfound hexpected (OrderedMap.mem_entries_iff.1 he)
  · obtain ⟨hcolumn, hnew⟩ := List.mem_filter.1 hcolumn
    have hmem : name ∈ expected.tables.names := OrderedMap.mem_names_of_find? hexpected
    obtain ⟨declared, hdeclared⟩ := OrderedMap.mem_names_iff.1 hcolumn
    refine compares_of_holds (.columnUnexpected _) ⟨hmem, ⟨declared.field, ?_⟩, ?_⟩ []
    · rw [field?_of_find? hfound, Table.field?_of_find? hdeclared]
    · rw [field?_of_find? hexpected, Table.field?_eq_none_iff, ← OrderedMap.contains_iff]
      simpa using hnew

/-- The comparison inspects the places in their order. -/
theorem compares_places (found expected : Schema) :
    found.Compares expected (found.places expected) (found.divergence? expected) := by
  -- The first of all differences is the first in the first part that has one.
  rw [divergence?, divergences, List.head?_append, List.head?_flatMap, ← List.filterMap_eq_map,
    List.head?_filterMap]
  refine .append (.flatMap fun e he => ?_) (.map fun name hname => ?_)
  · obtain ⟨name, table'⟩ := e
    have hexpected : expected.table? name = some table' := OrderedMap.mem_entries_iff.1 he
    have hmem : name ∈ expected.tables.names := OrderedMap.mem_names_of_find? hexpected
    cases hfound : found.table? name with
    | none =>
      simp only [hfound]
      exact compares_of_holds (.tableMissing name)
        ⟨OrderedMap.find?_eq_none_iff.1 hfound, hmem⟩ []
    | some table =>
      have hother : name ∈ found.tables.names := OrderedMap.mem_names_of_find? hfound
      simp only [hfound]
      exact .met (iff_of_true hother hmem) (compares_columns hfound hexpected)
  · obtain ⟨hmem, hnew⟩ := List.mem_filter.1 hname
    refine compares_of_holds (.tableUnexpected name) ⟨hmem, ?_⟩ []
    rw [← OrderedMap.contains_iff]
    simpa using hnew

end Schema

/-! ### Equality up to order -/

/-- Maps with the same values under the same names differ in their order only. -/
theorem OrderedMap.perm_of_find?_eq {α : Type*} {m n : OrderedMap α}
    (h : ∀ name, m.find? name = n.find? name) : m.entries.Perm n.entries := by
  rw [List.perm_ext_iff_of_nodup (.of_map _ m.nodup) (.of_map _ n.nodup)]
  rintro ⟨name, a⟩
  rw [mem_entries_iff, mem_entries_iff, h]

/-- The schemas are equal as maps: they have the same tables under the same names, and these have
the same columns under the same names, markers included, in whatever order. -/
def Schema.SameMap (left right : Schema) : Prop :=
  Changes.Alike Table.Reordered left.tables right.tables

namespace Schema

variable {left right : Schema}

/-- The same fields under the same names are the same names with equal fields. -/
theorem fieldsOf?_eq_iff : (∀ name, left.fieldsOf? name = right.fieldsOf? name) ↔
    (∀ name, name ∈ left.tables.names ↔ name ∈ right.tables.names) ∧
      ∀ name table table', left.table? name = some table → right.table? name = some table' →
        (∀ column, column ∈ table.columns.names ↔ column ∈ table'.columns.names) ∧
        ∀ column field field', table.field? column = some field →
          table'.field? column = some field' → field = field' := by
  constructor
  · intro h
    refine ⟨fun name => mem_names_iff_of_fieldsOf?_eq (h name), ?_⟩
    intro name table table' htable htable'
    have hfields : table.field? = table'.field? := by
      have := h name
      rwa [fieldsOf?_of_find? htable, fieldsOf?_of_find? htable', Option.some.injEq] at this
    refine ⟨fun column => Table.mem_names_iff_of_field?_eq (congrFun hfields column), ?_⟩
    intro column field field' hfield hfield'
    rw [hfields, hfield', Option.some.injEq] at hfield
    exact hfield.symm
  · rintro ⟨hnames, htables⟩ name
    cases htable : left.table? name with
    -- A table that one side lacks is lacked by the other, as its names are the same.
    | none =>
      have hleft := fieldsOf?_eq_none_iff.2 (OrderedMap.find?_eq_none_iff.1 htable)
      rw [hleft, eq_comm, fieldsOf?_eq_none_iff, ← hnames, ← fieldsOf?_eq_none_iff, hleft]
    | some table =>
      obtain ⟨table', htable'⟩ := OrderedMap.mem_names_iff.1
        ((hnames name).1 (OrderedMap.mem_names_of_find? htable))
      obtain ⟨hcolumns, hfields⟩ := htables name table table' htable htable'
      rw [fieldsOf?_of_find? htable, fieldsOf?_of_find? htable', Option.some.injEq]
      funext column
      cases hfield : table.field? column with
      | none =>
        rw [eq_comm, Table.field?_eq_none_iff, ← hcolumns, ← Table.field?_eq_none_iff, hfield]
      | some field =>
        have hmem := (hcolumns column).1 (Table.mem_names_of_field? hfield)
        cases hfield' : table'.field? column with
        | none => exact absurd hmem (Table.field?_eq_none_iff.1 hfield')
        | some field' => rw [hfields column field field' hfield hfield']

/-- Having the same structure is an equivalence, although the comparison treats its sides
differently. -/
theorem equivalence_sameStructure :
    Equivalence fun left right : Schema => sameStructure left right = true := by
  simp only [sameStructure_iff]
  exact ⟨fun _ _ => rfl, fun h name => (h name).symm, fun h h' name => (h name).trans (h' name)⟩

/-- Without markers, tables are the same up to order exactly if they have the same fields. -/
theorem reordered_canonical_iff {table table' : Table} :
    table.canonical.Reordered table'.canonical ↔ table.field? = table'.field? := by
  constructor
  · intro h
    funext column
    rw [← Table.field?_canonical, h.field?_eq, Table.field?_canonical]
  · intro h
    have hfind (table : Table) (column : String) :
        table.canonical.columns.find? column =
          (table.field? column).map fun field => ⟨field, none⟩ := by
      rw [Table.canonical, OrderedMap.find?_map, Table.field?, Option.map_map]
      rfl
    refine ⟨OrderedMap.perm_of_find?_eq fun column => ?_, rfl⟩
    rw [hfind, hfind, h]

/-- The structure of a schema is its canonical form as a map. -/
theorem sameStructure_iff_sameMap :
    sameStructure left right = true ↔ left.canonical.SameMap right.canonical := by
  rw [sameStructure_iff]
  refine forall_congr' fun name => ?_
  change _ ↔ Option.Rel _ (left.canonical.table? name) (right.canonical.table? name)
  rw [table?_canonical, table?_canonical, fieldsOf?, fieldsOf?]
  cases left.table? name <;> cases right.table? name <;> simp [reordered_canonical_iff]

/-- Reordering tables and columns leaves the structure as it is, and so does setting or clearing
markers. -/
theorem sameStructure_of_variant {variant : Schema}
    (h : left.Reordered variant ∨ left.canonical = variant.canonical) :
    sameStructure left variant = true := by
  rw [sameStructure_iff]
  intro name
  rcases h with h | h
  · exact fieldsOf?_eq_of_alike h.alike name
  · rw [← fieldsOf?_canonical left, h, fieldsOf?_canonical]

/-- Two schemas have no difference exactly if they have the same names of tables, and these the
same names of columns with equal fields. This is an equivalence of schemas; it is the equality of
their canonical forms as maps, and it sees neither the order nor the markers. The difference that
is reported exists, and the schemas agree in all places before it. -/
theorem divergence?_spec (left right : Schema) :
    (left.divergence? right = none ↔
      (∀ name, name ∈ left.tables.names ↔ name ∈ right.tables.names) ∧
      ∀ name table table', left.table? name = some table → right.table? name = some table' →
        (∀ column, column ∈ table.columns.names ↔ column ∈ table'.columns.names) ∧
        ∀ column field field', table.field? column = some field →
          table'.field? column = some field' → field = field') ∧
    Equivalence (fun left right : Schema => sameStructure left right = true) ∧
    (sameStructure left right = true ↔ left.canonical.SameMap right.canonical) ∧
    (∀ variant, left.Reordered variant ∨ left.canonical = variant.canonical →
      sameStructure variant right = sameStructure left right ∧
      sameStructure right variant = sameStructure right left) ∧
    ∀ divergence, left.divergence? right = some divergence ↔
      ∃ before after, left.places right = before ++ divergence.place :: after ∧
        (∀ place ∈ before, place.Agrees left right) ∧ divergence.Holds left right := by
  refine ⟨?_, equivalence_sameStructure, sameStructure_iff_sameMap, ?_, ?_⟩
  · rw [divergence?_eq_none_iff, fieldsOf?_eq_iff]
  · intro variant h
    have hvariant := sameStructure_of_variant h
    constructor
    · rw [Bool.eq_iff_iff]
      exact ⟨equivalence_sameStructure.trans hvariant,
        equivalence_sameStructure.trans (equivalence_sameStructure.symm hvariant)⟩
    · rw [Bool.eq_iff_iff]
      exact ⟨fun hr => equivalence_sameStructure.trans hr (equivalence_sameStructure.symm hvariant),
        fun hr => equivalence_sameStructure.trans hr hvariant⟩
  -- A difference shows that the schemas do not agree, and a place has one difference only.
  · intro divergence
    rw [(left.compares_places right).eq_some_iff fun h h' => h.2.unique h'.2 (h.1.trans h'.1.symm)]
    constructor
    · rintro ⟨before, place, after, hplaces, hbefore, -, rfl, hholds⟩
      exact ⟨before, after, hplaces, hbefore, hholds⟩
    · rintro ⟨before, after, hplaces, hbefore, hholds⟩
      exact ⟨before, _, after, hplaces, hbefore, hholds.not_agrees, rfl, hholds⟩

end Schema

end Schemata
