import Schemata.Schema.ColumnRef
import Schemata.Text.Inspect
import Schemata.ValueType

/-!
# Fields

What a column of a table is: a stored value (an *atom*), a *relation* to another table, an
*alias* of another column, an *index* or a table *constraint*. Relations and aliases are virtual:
they live in the declaration only and never in the database.

## Main definitions

* `Atom`, `Relation`, `Field`: the contents of a column
* `FieldKind`, `Field.kind`: the kinds, and the kind of a field
* `Field.isVirtual`: whether a field leaves no trace in the database
* `Field.inspect`: a field as messages show it
-/

namespace Schemata

/-- A stored column. -/
structure Atom where
  /-- The SQL type, as it is written in a column definition. -/
  sqlType : String
  /-- What its values are to the host application. -/
  valueType : ValueType
  /-- What follows the type in a column definition, such as `NOT NULL`. -/
  constraints : String
  deriving DecidableEq

/-- How many rows a relation reaches from one row. -/
inductive Cardinality
  | one
  | many
  deriving DecidableEq

/-- A join of two stored columns. -/
structure Relation where
  /-- How many rows it reaches. -/
  cardinality : Cardinality
  /-- The column of the declaring table. -/
  source : ColumnRef
  /-- The column that has to be equal to it. -/
  destination : ColumnRef
  deriving DecidableEq

/-- The contents of a column. -/
inductive Field
  /-- A stored value. -/
  | atom (atom : Atom)
  /-- A join with another table. -/
  | relation (relation : Relation)
  /-- Another name for a column of the same table. -/
  | aliasTo (target : String)
  /-- A secondary index, by its list of columns. -/
  | index (definition : String)
  /-- A table constraint, by its text. -/
  | constraint (definition : String)
  deriving DecidableEq

/-- The kinds of fields. -/
inductive FieldKind
  | atom
  | relation
  | aliasTo
  | index
  | constraint
  deriving DecidableEq

namespace FieldKind

/-- The name of the kind. -/
def text : FieldKind → String
  | atom => "atom"
  | relation => "relation"
  | aliasTo => "alias"
  | index => "index"
  | constraint => "constraint"

/-- The kinds that exist in the declaration only. -/
def isVirtual : FieldKind → Bool
  | relation | aliasTo => true
  | atom | index | constraint => false

end FieldKind

namespace Cardinality

/-- The name of the cardinality. -/
def text : Cardinality → String
  | one => "one"
  | many => "many"

/-- The name under which a message shows the cardinality. -/
def inspect : Cardinality → String
  | one => "One"
  | many => "Many"

end Cardinality

namespace Field

/-- The kind of the field. -/
def kind : Field → FieldKind
  | atom _ => .atom
  | relation _ => .relation
  | aliasTo _ => .aliasTo
  | index _ => .index
  | constraint _ => .constraint

/-- A stored column of a SQL type, with the value type that follows from it. -/
def ofSqlType (sqlType constraints : String) : Field :=
  .atom ⟨sqlType, .ofSqlType sqlType, constraints⟩

/-- A stored column of integers. -/
def integer (constraints : String) : Field := .atom ⟨"INTEGER", .number, constraints⟩

/-- A stored column of reals. -/
def real (constraints : String) : Field := .atom ⟨"REAL", .number, constraints⟩

/-- A stored column of texts. -/
def text (constraints : String) : Field := .atom ⟨"TEXT", .string, constraints⟩

/-- A stored column of bytes. -/
def blob (constraints : String) : Field := .atom ⟨"BLOB", .buffer, constraints⟩

/-- A relation between two columns by their references. -/
def between (cardinality : Cardinality) (source destination : String) : Field :=
  .relation ⟨cardinality, .ofText source, .ofText destination⟩

/-- Whether the field exists in the declaration only. -/
def isVirtual (field : Field) : Bool := field.kind.isVirtual

end Field

/-- The reference as messages show it. -/
def ColumnRef.inspect (ref : ColumnRef) : String :=
  "ColumnRef \x7b table: " ++ Text.inspect ref.table ++ ", column: " ++ Text.inspect ref.column
    ++ " \x7d"

/-- The field as messages show it: its kind, and every part of it by name. -/
def Field.inspect : Field → String
  | atom a => "Atom(Atom \x7b sql_type: " ++ Text.inspect a.sqlType ++ ", value_type: "
      ++ a.valueType.inspect ++ ", constraints: " ++ Text.inspect a.constraints ++ " \x7d)"
  | relation r => "Relation(Relation \x7b cardinality: " ++ r.cardinality.inspect ++ ", source: "
      ++ r.source.inspect ++ ", destination: " ++ r.destination.inspect ++ " \x7d)"
  | aliasTo target => "Alias(Alias \x7b target: " ++ Text.inspect target ++ " \x7d)"
  | index definition => "Index(Index \x7b definition: " ++ Text.inspect definition ++ " \x7d)"
  | constraint definition =>
      "Constraint(Constraint \x7b definition: " ++ Text.inspect definition ++ " \x7d)"

end Schemata
