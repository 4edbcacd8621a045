import Schemata.Schema.Basic

/-!
# Comparing schemas

Two schemas have the same structure if they have the same tables with the same columns and equal
fields. The order of declaration and the markers are not structure.

## Main definitions

* `Divergence`: a difference in structure
* `Schema.divergences`: all differences of two schemas, in order
* `Schema.divergence?`: the first difference
* `Schema.sameStructure`: whether there is none

## Main results

* `Schema.divergence?_eq_none_iff`: there is no difference exactly if the same tables have the same
  fields under the same names
-/

namespace Schemata

/-- A difference between a schema and the one expected. -/
inductive Divergence
  /-- The expected table is not there. -/
  | tableMissing (table : String)
  /-- The table is not expected. -/
  | tableUnexpected (table : String)
  /-- The expected column is not there. -/
  | columnMissing (column : ColumnRef)
  /-- The column is not expected. -/
  | columnUnexpected (column : ColumnRef)
  /-- The column is not what it is expected to be. -/
  | columnDiffers (column : ColumnRef) (found expected : Field)
  deriving DecidableEq

/-- The sentence that names the difference. -/
def Divergence.text : Divergence → String
  | tableMissing table => "table " ++ table ++ " is missing"
  | tableUnexpected table => "table " ++ table ++ " is unexpected"
  | columnMissing column => "column " ++ column.text ++ " is missing"
  | columnUnexpected column => "column " ++ column.text ++ " is unexpected"
  | columnDiffers column found expected =>
      "column " ++ column.text ++ " is " ++ found.inspect ++ ", expected " ++ expected.inspect

namespace Table

/-- The differences between a table and the one expected: the expected columns in their order,
then the columns that are not expected. -/
def divergences (name : String) (found expected : Table) : List Divergence :=
  (expected.columns.entries.filterMap fun (columnName, column) =>
    match found.columns.find? columnName with
    | none => some (.columnMissing ⟨name, columnName⟩)
    | some other =>
      if other.field = column.field then none
      else some (.columnDiffers ⟨name, columnName⟩ other.field column.field)) ++
  (found.columns.names.filter fun columnName => !expected.columns.contains columnName).map
    fun columnName => .columnUnexpected ⟨name, columnName⟩

end Table

namespace Schema

/-- The differences between a schema and the one expected: the expected tables in their order,
then the tables that are not expected. -/
def divergences (found expected : Schema) : List Divergence :=
  (expected.tables.entries.flatMap fun (name, table) =>
    match found.table? name with
    | none => [.tableMissing name]
    | some other => other.divergences name table) ++
  (found.tables.names.filter fun name => !expected.tables.contains name).map .tableUnexpected

/-- The first difference between a schema and the one expected. -/
def divergence? (found expected : Schema) : Option Divergence := (divergences found expected).head?

/-- Whether two schemas have the same structure. -/
def sameStructure (left right : Schema) : Bool := (divergence? left right).isNone

end Schema

/-- Two tables do not differ exactly if they have the same fields under the same names. -/
theorem Table.divergences_eq_nil_iff {name : String} {found expected : Table} :
    divergences name found expected = [] ↔ found.field? = expected.field? := by
  simp only [divergences, List.append_eq_nil_iff, List.filterMap_eq_nil_iff, List.map_eq_nil_iff,
    List.filter_eq_nil_iff, Prod.forall, OrderedMap.mem_entries_iff, Bool.not_eq_true',
    Bool.not_eq_false, OrderedMap.contains_iff, funext_iff, field?]
  constructor
  · rintro ⟨hexpected, hfound⟩ column
    cases hcolumn : expected.columns.find? column with
    | some a =>
      have := hexpected column a hcolumn
      cases hother : found.columns.find? column with
      | none => simp [hother] at this
      | some b => simpa [hother] using this
    | none =>
      cases hother : found.columns.find? column with
      | none => rfl
      | some b =>
        have := hfound column (OrderedMap.mem_names_of_find? hother)
        exact absurd this (OrderedMap.find?_eq_none_iff.1 hcolumn)
  · intro heq
    refine ⟨fun column a hcolumn => ?_, fun column hcolumn => ?_⟩
    · have := heq column
      cases hother : found.columns.find? column <;> simp_all
    · obtain ⟨b, hb⟩ := OrderedMap.mem_names_iff.1 hcolumn
      have := heq column
      cases hexpected : expected.columns.find? column with
      | none => simp [hexpected, hb] at this
      | some a => exact OrderedMap.mem_names_of_find? hexpected

/-- Two schemas have the same structure exactly if they have the same fields under the same names
in tables of the same names. -/
theorem Schema.divergence?_eq_none_iff {found expected : Schema} :
    divergence? found expected = none ↔
      ∀ name, found.fieldsOf? name = expected.fieldsOf? name := by
  simp only [divergence?, List.head?_eq_none_iff, divergences, List.append_eq_nil_iff,
    List.flatMap_eq_nil_iff, List.map_eq_nil_iff, List.filter_eq_nil_iff, Prod.forall,
    OrderedMap.mem_entries_iff, Bool.not_eq_true', Bool.not_eq_false, OrderedMap.contains_iff,
    fieldsOf?, table?]
  constructor
  · rintro ⟨hexpected, hfound⟩ name
    cases htable : expected.tables.find? name with
    | some table =>
      have := hexpected name table htable
      cases hother : found.tables.find? name with
      | none => simp [hother] at this
      | some other => simpa [hother, Table.divergences_eq_nil_iff] using this
    | none =>
      cases hother : found.tables.find? name with
      | none => rfl
      | some other =>
        have := hfound name (OrderedMap.mem_names_of_find? hother)
        exact absurd this (OrderedMap.find?_eq_none_iff.1 htable)
  · intro heq
    refine ⟨fun name table htable => ?_, fun name hname => ?_⟩
    · have := heq name
      cases hother : found.tables.find? name <;>
        simp_all [Table.divergences_eq_nil_iff]
    · obtain ⟨other, hother⟩ := OrderedMap.mem_names_iff.1 hname
      have := heq name
      cases hexpected : expected.tables.find? name with
      | none => simp [hexpected, hother] at this
      | some table => exact OrderedMap.mem_names_of_find? hexpected

theorem Schema.sameStructure_iff {left right : Schema} :
    sameStructure left right = true ↔ ∀ name, left.fieldsOf? name = right.fieldsOf? name := by
  rw [sameStructure, Option.isNone_iff_eq_none, divergence?_eq_none_iff]

end Schemata
