import Schemata.Sql.Grammar.Alias
import Schemata.Sql.Grammar.Call

/-!
# Turned tables

The rows of a source can be turned into columns, and its columns into rows.

## Main definitions

* `Grammar.pivot`: rows become columns
* `Grammar.unpivot`: columns become rows
* `Grammar.turns`: all that a source is turned by
-/

namespace Schemata.Sql.Grammar

open Reader

variable (grammar : Grammar)

/-- Takes what follows an announced name for an expression, if it has one. -/
def announcedAlias (expr : Expr) : Reader Expr := do
  return .phrase (expr :: (← clause ["AS"] (do return .name [← name])))

/-- Takes a call that gives the values of the new columns. Its function loses its quotes. -/
def pivotCall : Reader Expr := do
  match ← next with
  | .word text _ =>
    symbol "("
    announcedAlias (← grammar.call [⟨text, none⟩])
  | _ => failure

/-- Takes the values that become columns: all of them, those of a query, or a list. -/
def pivotValues : Reader Expr := do
  if ← hasKeyword "ANY" then
    return .phrase (.verbatim "ANY" :: (← clause ["ORDER", "BY"] grammar.orderings))
  else if ← nextIsQuery then grammar.query
  else return .list (← separated (do announcedAlias (← grammar.expr)) ",")

/-- Takes what turns rows into columns after its keyword; gives the parts of a phrase. -/
def pivot : Reader (List Expr) := do
  let turned ← parenthesized do
    let calls := Expr.list (← separated grammar.pivotCall ",")
    keyword "FOR"
    let column := Expr.name (← path)
    keyword "IN"
    let values := Expr.group [← parenthesized grammar.pivotValues]
    let missing ← clause ["DEFAULT", "ON", "NULL"] do
      return .group [← parenthesized grammar.expr]
    return Expr.phrase ([calls, .verbatim "FOR", column, .verbatim "IN", values] ++ missing)
  return .marked "PIVOT" (.group [turned]) :: (← grammar.tableAlias)

/-- Takes what turns columns into rows after its keyword; gives the parts of a phrase. -/
def unpivot : Reader (List Expr) := do
  let turned ← parenthesized do
    let value := Expr.name [← name]
    keyword "FOR"
    let column := Expr.name [← name]
    keyword "IN"
    return Expr.phrase [value, .verbatim "FOR", column, .verbatim "IN", .names (← names)]
  return .marked "UNPIVOT" (.group [turned]) :: (← grammar.tableAlias)

/-- Takes what a source is turned by, at most `fuel` times; gives the parts of a phrase. -/
def turnsWithin : (fuel : Nat) → Reader (List Expr)
  | 0 => failure
  | fuel + 1 => do
    if ← hasKeyword "PIVOT" then return (← grammar.pivot) ++ (← turnsWithin fuel)
    else if ← hasKeyword "UNPIVOT" then return (← grammar.unpivot) ++ (← turnsWithin fuel)
    else return []

/-- Takes what a source is turned by; gives the parts of a phrase. -/
def turns : Reader (List Expr) := do grammar.turnsWithin ((← get).length + 1)

end Schemata.Sql.Grammar
