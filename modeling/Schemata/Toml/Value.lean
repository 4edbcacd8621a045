import Schemata.Entries

/-!
# TOML values

The values of a TOML document. A table remembers how it came about, since that decides whether
later lines may add to it.

## Main definitions

* `Origin`: how a table came about
* `Value`: the values
-/

namespace Schemata.Toml

/-- How a table came about. -/
inductive Origin
  /-- By a header of its own. -/
  | header
  /-- By the header of a table inside it. -/
  | implied
  /-- By a dotted key. -/
  | dotted
  /-- As a value between braces. -/
  | inline
  deriving DecidableEq

/-- A value of a document. -/
inductive Value
  | string (text : String)
  | integer (n : Int)
  | float (lexeme : String)
  | boolean (b : Bool)
  | datetime (lexeme : String)
  | array (elements : List Value)
  | table (origin : Origin) (entries : List (String × Value))
  /-- The tables under a repeated header, in order. -/
  | tables (elements : List (List (String × Value)))

end Schemata.Toml
