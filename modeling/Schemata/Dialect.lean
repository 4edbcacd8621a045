import Schemata.Text.Search

/-!
# SQL dialects

The dialects in which table definitions can be read. What is generated is always SQLite; the
dialect only decides how existing text is understood.

## Main definitions

* `Dialect`: the three dialects
* `Dialect.text`, `Dialect.ofName?`: the name of a dialect, and the dialect of one of its names

## Main results

* `ofName?_text`: a dialect is found under its own name
-/

namespace Schemata

/-- A dialect of SQL. -/
inductive Dialect
  | sqlite
  | postgresql
  | mysql
  deriving DecidableEq

namespace Dialect

/-- The name of the dialect. -/
def text : Dialect → String
  | sqlite => "sqlite"
  | postgresql => "postgresql"
  | mysql => "mysql"

/-- All names of the dialect, in lower case. -/
def names : Dialect → List String
  | sqlite => ["sqlite", "sqlite3"]
  | postgresql => ["postgresql", "postgres", "pg"]
  | mysql => ["mysql", "mysql8"]

/-- The dialect of a name in any case. The names are ASCII, and no other character has a lower
case in them, so folding the ASCII letters is enough. -/
def ofName? (name : String) : Option Dialect :=
  [sqlite, postgresql, mysql].find? fun dialect => dialect.names.contains (Text.asciiLower name)

/-- The report on a name that no dialect has. -/
def unknownMessage (name : String) : String :=
  "Unknown dialect: '" ++ name ++ "'. Supported dialects: sqlite, postgresql, mysql."

theorem ofName?_text (dialect : Dialect) : ofName? dialect.text = some dialect := by
  cases dialect <;> decide +kernel

end Dialect

end Schemata
