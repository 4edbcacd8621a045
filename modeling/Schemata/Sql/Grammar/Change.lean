import Schemata.Sql.Grammar.Files
import Schemata.Sql.Grammar.Selection

/-!
# Changes of rows

Rows are inserted and updated. Such a change may give back the rows that it touched, so it can
stand where a query can.

## Main definitions

* `Grammar.insertion`: insertions of rows
* `Grammar.update`: updates of rows
-/

namespace Schemata.Sql.Grammar

open Reader

variable (grammar : Grammar)

/-- Takes what to do about rows that violate a constraint, if that is told before the table. -/
def resolution : Reader (List Expr) := do
  let words := ["REPLACE", "ROLLBACK", "ABORT", "FAIL", "IGNORE"]
  let tokens ← get
  match words.find? fun word => announce ["OR", word] tokens with
  | some word => mark ["OR", word]
  | none => return if ← hasKeyword "REPLACE" then [.verbatim "OR REPLACE"] else []

/-- Takes the columns that a value is given to, and the value. -/
def assignment : Reader Expr := do
  let target ← if ← nextIsSymbol "(" then
      pure (.group ((← parenthesized (separated path ",")).map .name))
    else pure (.name (← path))
  symbol "="
  return .binary target "=" (← grammar.expr)

/-- Takes assignments with commas between them. -/
def assignments : Reader Expr := return .list (← separated grammar.assignment ",")

/-- Takes what is given back of the rows, if something is. -/
def returned : Reader (List Expr) := clause ["RETURNING"] grammar.items

/-! ### Insertions -/

/-- Takes names for columns in parentheses, if there are some. In MySQL there may be none in the
parentheses. -/
def insertedColumns : Reader (List Expr) := do
  if !(← nextIsSymbol "(") then return []
  let names ← if grammar.dialect = .mysql then anyNames else names
  return if names.isEmpty then [] else [.names names]

/-- Takes the rows that are inserted, and the columns that they have values for. -/
def insertedRows : Reader (List Expr) := do
  if ← hasKeywords ["DEFAULT", "VALUES"] then return [.verbatim "DEFAULT VALUES"]
  let tokens ← get
  if tokens.head? = some (.symbol "(") && announce ["SELECT"] (tokens.drop 1) then
    return [← grammar.query]
  let columns ← grammar.insertedColumns
  let partition ← clause ["PARTITION"] (.group <$> parenthesized grammar.exprs)
  return columns ++ partition ++ [← grammar.query]

/-- Takes the name that inserted rows have in updates of rows that are there already. -/
def rowAlias : Reader (List Expr) := do
  if ← provided (grammar.dialect = .mysql) (hasKeyword "AS") then
    let row := Expr.name (← path)
    let columns ← if ← nextIsSymbol "(" then pure [.names (← names)] else pure []
    return [.verbatim "AS", row] ++ columns
  else return []

/-- Takes what to do about rows that are there already, if that is told. -/
def conflict : Reader (List Expr) := do
  if !(← hasKeyword "ON") then return []
  if !(← hasKeyword "CONFLICT") then
    keywords ["DUPLICATE", "KEY", "UPDATE"]
    return [.verbatim "ON DUPLICATE KEY UPDATE", ← grammar.assignments]
  let target ← if ← hasKeywords ["ON", "CONSTRAINT"] then
      pure [.verbatim "ON CONFLICT ON CONSTRAINT", .name (← path)]
    else if ← nextIsSymbol "(" then pure [.marked "ON CONFLICT" (.names (← names))]
    else pure [.verbatim "ON CONFLICT"]
  keyword "DO"
  if ← hasKeyword "NOTHING" then return target ++ [.verbatim "DO NOTHING"]
  keywords ["UPDATE", "SET"]
  let assignments ← grammar.assignments
  return target ++ [.verbatim "DO UPDATE SET", assignments] ++ (← clause ["WHERE"] grammar.expr)

/-- Takes what an insertion into files has after its keyword and the words before it. -/
def insertionIntoFiles (start : List Expr) : Reader Expr := do
  let directory := Expr.verbatim ("DIRECTORY '" ++ (← text) ++ "'")
  let format ← clause ["STORED", "AS"] (.verbatim <$> fileFormat)
  return .phrase (start ++ directory :: format ++ [← grammar.query])

/-- Takes an insertion after its keyword. If it tells what to do about rows that violate a
constraint, nothing else is written of the words before the table. -/
def insertion : Reader Expr := do
  let resolution ← resolution
  let mysql := grammar.dialect = .mysql
  let priority ← if mysql then markOf ["LOW_PRIORITY", "DELAYED", "HIGH_PRIORITY"] else pure []
  let ignore ← if mysql then mark ["IGNORE"] else pure []
  let overwrite ← mark ["OVERWRITE"]
  let into ← mark ["INTO"]
  let localPlace ← mark ["LOCAL"]
  if ← hasKeyword "DIRECTORY" then
    return ← grammar.insertionIntoFiles (.verbatim "INSERT" :: overwrite ++ localPlace)
  let table ← mark ["TABLE"]
  let target := Expr.name (← path)
  let other ← if grammar.dialect = .postgresql then clause ["AS"] (do return .name [← name])
    else pure []
  let rows ← grammar.insertedRows
  let rowName ← grammar.rowAlias
  let conflict ← grammar.conflict
  let start := if resolution.isEmpty then priority ++ ignore ++ overwrite ++ into ++ table
    else resolution ++ [.verbatim "INTO"]
  return .phrase (.verbatim "INSERT" :: start ++ target :: other ++ rows ++ rowName ++ conflict
    ++ (← grammar.returned))

/-! ### Updates -/

/-- Takes an update after its keyword. -/
def update : Reader Expr := do
  let resolution ← resolution
  let table ← grammar.joined
  keyword "SET"
  let assignments ← grammar.assignments
  let sources ← if grammar.dialect = .mysql then do
      -- The keyword of sources is gone even where none can follow.
      discard (hasKeyword "FROM")
      pure []
    else clause ["FROM"] grammar.joined
  let condition ← clause ["WHERE"] grammar.expr
  return .phrase (.verbatim "UPDATE" :: resolution ++ [table, .verbatim "SET", assignments]
    ++ sources ++ condition ++ (← grammar.returned))

end Schemata.Sql.Grammar
