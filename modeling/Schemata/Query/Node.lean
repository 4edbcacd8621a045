import Schemata.Entries
import Schemata.Query.Expression
import Schemata.Schema.Field

/-!
# Query trees

A query selects named fields from the rows of a table instance. A field is a column, a computed
value, or again a selection, of many rows or of one.

## Main definitions

* `Rows`: a table instance with the clauses that pick, group, order and limit its rows
* `Node`: a field
* `Selection`: the root of a query
-/

namespace Schemata

/-- The rows of a table instance that a selection ranges over. -/
structure Rows where
  /-- The alias of the table instance. -/
  instanceAlias : String
  /-- The table. -/
  table : String
  /-- The conditions on the rows, all of which have to hold. -/
  filters : List Expression := []
  /-- The greatest number of rows. -/
  limit : Option UInt64 := none
  /-- What the rows are ordered by. -/
  orderBy : Option Expression := none
  /-- What the rows are grouped by. -/
  groupBy : Option Expression := none

/-- A field of a query. -/
inductive Node
  /-- A column. -/
  | leaf (leaf : Leaf)
  /-- A computed value. -/
  | expr (expr : Expression)
  /-- The fields of many rows, or of one. -/
  | relation (cardinality : Cardinality) (rows : Rows) (fields : List (String × Node))

/-- Fields selected from rows. -/
structure Selection where
  /-- The rows. -/
  rows : Rows
  /-- The fields by name, in order. -/
  fields : List (String × Node)

namespace Selection

/-- The selection as a field, with all of its rows or with one. -/
def toNode (selection : Selection) (cardinality : Cardinality) : Node :=
  .relation cardinality selection.rows selection.fields

end Selection

end Schemata
