import Schemata.Query.Node
import Schemata.Schema.Basic
import Schemata.Text.Layout

/-!
# Queries as SQL

A query tree becomes one SQL statement. Its root is a plain result set. Every selection inside it
is a subquery that folds its rows into JSON: an array of objects, or one object.

A nested text of several lines is moved to the right and stands in parentheses. Fields with
reserved names are left out.

## Main definitions

* `Rows.clauses`: what follows the table of a statement
* `Rows.tableQuery`, `Rows.objectQuery`: the two forms of a statement
* `Node.nested`: the text of a field inside a selection
* `Node.sql`, `Selection.sql`: the statement of a query
-/

namespace Schemata

/-- The text of a field inside a statement: several lines are indented and put in parentheses. -/
def nest (sql : String) : String :=
  if Text.isMultiline sql then "(" ++ Text.trimmed (Text.indent sql) ++ ")" else sql

namespace Rows

/-- The condition on the rows: one filter as it is, several in parentheses. -/
def condition (rows : Rows) : String :=
  match rows.filters with
  | [] => ""
  | [filter] => "WHERE " ++ filter.render ++ "\n"
  | filters =>
    "WHERE " ++ String.intercalate " AND " (filters.map fun f => "(" ++ f.render ++ ")") ++ "\n"

/-- A clause of a keyword and an expression, if there is one. -/
def clause (keyword : String) (expr : Option Expression) : String :=
  expr.elim "" fun e => keyword ++ " " ++ e.render ++ "\n"

/-- The bound on the number of rows; of one row where no other is given. -/
def bound (rows : Rows) (cardinality : Cardinality) : String :=
  match rows.limit, cardinality with
  | some n, _ => "LIMIT " ++ n.toNat.repr ++ "\n"
  | none, .one => "LIMIT 1\n"
  | none, .many => ""

/-- What follows the table: condition, grouping, order and bound. -/
def clauses (rows : Rows) (cardinality : Cardinality) : String :=
  rows.condition ++ clause "GROUP BY" rows.groupBy ++ clause "ORDER BY" rows.orderBy
    ++ rows.bound cardinality

/-- The table and its alias. -/
def instanceText (rows : Rows) : String := rows.table ++ " " ++ rows.instanceAlias

/-- The statement with a result column per field. -/
def tableQuery (rows : Rows) (cardinality : Cardinality) (fields : List (String × String)) :
    String :=
  "SELECT\n"
    ++ String.intercalate ",\n" (fields.map fun (name, sql) => "\t" ++ sql ++ " as " ++ name)
    ++ "\nFROM " ++ rows.instanceText ++ "\n" ++ rows.clauses cardinality

/-- The JSON object of the fields. -/
def jsonObject (fields : List (String × String)) : String :=
  "json_object(\n"
    ++ String.intercalate ",\n" (fields.map fun (name, sql) => "\t'" ++ name ++ "', " ++ sql)
    ++ "\n)"

/-- The statement with one JSON value: the object of a row, or the array of all objects. -/
def objectQuery (rows : Rows) (cardinality : Cardinality) (fields : List (String × String)) :
    String :=
  let value := match cardinality with
    | .one => jsonObject fields
    | .many => "json_group_array(" ++ jsonObject fields ++ ")"
  "SELECT " ++ value ++ " FROM " ++ rows.instanceText ++ "\n" ++ rows.clauses cardinality

end Rows

mutual

/-- The text of a field inside a selection. -/
def Node.nested : Node → String
  | .leaf l => nest l.render
  | .expr e => nest e.render
  | .relation cardinality rows fields => nest (rows.objectQuery cardinality (nestedFields fields))

/-- The texts of the fields of a selection, those with reserved names left out. -/
def nestedFields : List (String × Node) → List (String × String)
  | [] => []
  | (name, node) :: rest =>
    -- What a reserved field holds is not even looked at.
    if isReserved name then nestedFields rest else (name, node.nested) :: nestedFields rest

end

/-- The statement of a selection at the root, of all rows or of one. -/
def Selection.statement (selection : Selection) (cardinality : Cardinality) : String :=
  selection.rows.tableQuery cardinality (nestedFields selection.fields)

/-- The statement of a selection with all of its rows. -/
def Selection.sql (selection : Selection) : String := selection.statement .many

/-- The SQL text of a query tree. -/
def Node.sql : Node → String
  | .leaf l => l.render
  | .expr e => e.render
  | .relation cardinality rows fields => Selection.statement ⟨rows, fields⟩ cardinality

end Schemata
