import Schemata.Sql.Grammar

/-!
# Times

The parts of a time, and spans of time.

## Main definitions

* `Grammar.timeField`: a part of a time
* `Grammar.interval`: spans of time
-/

namespace Schemata.Sql.Grammar

open Reader

variable (grammar : Grammar)

/-- The parts of a time. -/
def timeFields : List String :=
  ["YEAR", "MONTH", "WEEK", "DAY", "HOUR", "MINUTE", "SECOND", "CENTURY", "DECADE", "DOW", "DOY",
    "EPOCH", "ISODOW", "ISOYEAR", "JULIAN", "MICROSECOND", "MICROSECONDS", "MILLENIUM",
    "MILLENNIUM", "MILLISECOND", "MILLISECONDS", "NANOSECOND", "NANOSECONDS", "QUARTER",
    "TIMEZONE", "TIMEZONE_HOUR", "TIMEZONE_MINUTE"]

/-- What can be taken from a time besides its parts. -/
def timeAspects : List String :=
  ["DAYOFWEEK", "DAYOFYEAR", "DATE", "DATETIME", "ISOWEEK", "TIME", "TIMEZONE_ABBR",
    "TIMEZONE_REGION"]

/-- Takes a part of a time. In PostgreSQL there may be others, and their name may be quoted. -/
def timeField : Reader Expr := do
  match ← hasOneOf (timeFields ++ timeAspects), ← peek with
  | some field, _ => return .verbatim field
  | none, some (.word ..) | none, some (.string _ '\'') =>
    guard (grammar.dialect = .postgresql)
    return .name [← name]
  | none, _ => failure

/-- Takes a number of digits in parentheses, if there is one. -/
def precision : Reader (List Expr) := do
  if ← nextIsSymbol "(" then return [.group [.verbatim (← parenthesized size).repr]] else return []

/-- Takes a span of time after its keyword. MySQL wants its unit to be named, and allows for any
expression before it. -/
def interval : Reader Expr := do
  let required := grammar.dialect = .mysql
  let value ← if required then grammar.expr else grammar.operand
  let unit ← markOf timeFields
  guard (!required || !unit.isEmpty)
  let start := [.verbatim "INTERVAL", value] ++ unit
  match unit with
  | [.verbatim "SECOND"] =>
    if !(← nextIsSymbol "(") then return .phrase start
    let sizes ← parenthesized (separated size ",")
    guard (sizes.length ≤ 2)
    return .phrase (start ++ [.group (sizes.map fun n => .verbatim n.repr)])
  | _ =>
    let start := start ++ (← precision)
    if ← hasKeyword "TO" then
      let last ← grammar.timeField
      let digits ← match last with
        | .verbatim "SECOND" => precision
        | _ => pure []
      return .phrase (start ++ [.verbatim "TO", last] ++ digits)
    else return .phrase start

end Schemata.Sql.Grammar
