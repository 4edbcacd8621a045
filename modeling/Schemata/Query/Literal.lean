import Schemata.Decimal.Shortest
import Schemata.Text.Quoted

/-!
# Literal values in SQL

## Main definitions

* `Literal`: the values that can be written into an expression
* `Literal.render`: how they are written
-/

namespace Schemata

/-- A value that is written into an expression. -/
inductive Literal
  | null
  | integer (n : Int64)
  | real (x : Float)
  | boolean (b : Bool)
  | text (s : String)

/-- The SQL text of a value. A boolean is a number, and a text stands between single quotes with
its own quotes doubled. -/
def Literal.render : Literal → String
  | null => "NULL"
  | integer n => n.toInt.repr
  | real x => Decimal.realText x
  | boolean b => if b then "1" else "0"
  | text s => String.ofList (Text.Quoted.render '\'' s.toList)

end Schemata
