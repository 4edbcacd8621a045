import Schemata.Text.Layout
import Schemata.Text.Search

/-!
# Value types

The type that the values of a stored column take once the host application has decoded them.
It follows from the name of the SQL type by the rules of column affinity, with booleans and JSON
recognised by name before them.

## Main definitions

* `ValueType`: the six types
* `ValueType.ofSqlType`: the type of a column declared with a given SQL type
* `ValueType.text`, `ValueType.ofText?`: the name of a type, and the type of a name

## Main results

* `ofText?_eq_some_iff`: each name stands for one type
-/

namespace Schemata

/-- What the values of a stored column are to the host application. -/
inductive ValueType
  | string
  | number
  | buffer
  | boolean
  | json
  | unknown
  deriving DecidableEq

namespace ValueType

/-- The type that a SQL type name stands for. The first rule that applies decides: the boolean
and JSON names, then a name with `INT` in it, one with `CHAR`, `CLOB` or `TEXT`, no name at all
or one with `BLOB`; every other name is numeric. -/
def ofSqlType (sqlType : String) : ValueType :=
  let name := Text.asciiUpper (Text.trimmed sqlType)
  let mentions (word : String) : Bool := Text.occursIn word.toList name.toList
  if name = "BOOLEAN" || name = "BOOL" then .boolean
  else if name = "JSON" || name = "JSONB" then .json
  else if mentions "INT" then .number
  else if mentions "CHAR" || mentions "CLOB" || mentions "TEXT" then .string
  else if name = "" || mentions "BLOB" then .buffer
  else .number

/-- The name of the type. -/
def text : ValueType → String
  | string => "string"
  | number => "number"
  | buffer => "buffer"
  | boolean => "boolean"
  | json => "json"
  | unknown => "unknown"

/-- The type of a name. -/
def ofText? (name : String) : Option ValueType :=
  [string, number, buffer, boolean, json, unknown].find? fun type => type.text = name

theorem ofText?_eq_some_iff {name : String} {type : ValueType} :
    ofText? name = some type ↔ type.text = name := by
  constructor
  · exact fun h => by simpa using List.find?_some h
  · rintro rfl; cases type <;> rfl

/-- The name under which a message shows the type. -/
def inspect : ValueType → String
  | string => "String"
  | number => "Number"
  | buffer => "Buffer"
  | boolean => "Boolean"
  | json => "Json"
  | unknown => "Unknown"

end ValueType

end Schemata
