import Schemata.Text.Search

/-!
# References to columns

A column is named from outside its table by the table's name, a point and its own name.

## Main definitions

* `ColumnRef`: the two names
* `ColumnRef.text`, `ColumnRef.ofText`: the written form, and its reading at the first point

## Main results

* `ofText_text`: a reference is read back unless its table's name has a point in it
* `table_ofText`: no table name that was read has a point in it
-/

namespace Schemata

/-- A column of a table, by name. -/
structure ColumnRef where
  /-- The name of the table. -/
  table : String
  /-- The name of the column in it. -/
  column : String
  deriving DecidableEq

namespace ColumnRef

/-- The written form `table.column`. -/
def text (ref : ColumnRef) : String := ref.table ++ "." ++ ref.column

/-- Reads a reference at its first point. A text without a point is a table name with an empty
column name, which no valid schema has. -/
def ofText (text : String) : ColumnRef where
  table := String.ofList (text.toList.takeWhile (· ≠ '.'))
  column := String.ofList ((text.toList.dropWhile (· ≠ '.')).drop 1)

theorem table_ofText (text : String) : '.' ∉ (ofText text).table.toList := by
  intro h
  have all := List.all_eq_true.1 (List.all_takeWhile (p := (· ≠ '.')) (l := text.toList))
  simpa using all '.' (by simpa [ofText] using h)

/-- A reference whose table name has no point is read back from its written form. -/
theorem ofText_text {ref : ColumnRef} (h : '.' ∉ ref.table.toList) : ofText ref.text = ref := by
  have all : ∀ c ∈ ref.table.toList, (decide (c ≠ '.')) = true := by
    intro c hc
    simpa using fun eq : c = '.' => h (eq ▸ hc)
  cases ref with
  | mk table column =>
    simp only [ofText, text, String.toList_append, mk.injEq]
    constructor
    · rw [List.append_assoc, List.takeWhile_append_of_pos all]
      simp
    · rw [List.append_assoc, List.dropWhile_append_of_pos all]
      simp

end ColumnRef

end Schemata
