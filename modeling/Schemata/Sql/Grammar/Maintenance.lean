import Schemata.Sql.Grammar.Query

/-!
# Maintenance

What a text asks a database to do for its upkeep: notes on objects, statistics, what is written out
or kept at hand, and what is loaded into the database itself.

## Main definitions

* `Grammar.objectComment`, `Grammar.analysis`: notes on objects, and statistics of tables
* `Grammar.flushing`: what is written out at once
* `Grammar.caching`, `Grammar.uncaching`: results that are kept at hand
* `Grammar.repair`, `Grammar.unloading`: tables whose files are put right or written
-/

namespace Schemata.Sql.Grammar

open Reader

variable (grammar : Grammar)

/-! ### Notes and statistics -/

/-- Takes a note on an object after the keyword. -/
def objectComment : Reader Unit := do
  discard (hasKeywords ["IF", "EXISTS"])
  keyword "ON"
  discard (oneOf ["COLUMN", "TABLE", "EXTENSION", "SCHEMA", "DATABASE", "USER", "ROLE"])
  discard path
  keyword "IS"
  if !(← hasKeyword "NULL") then discard text

/-- Takes a table whose statistics are gathered, after the keyword. -/
def analysis : Reader Unit := do
  keyword "TABLE"
  discard path
  repeatedly do
    if ← follow ["PARTITION"] (parenthesized grammar.exprs) then return true
    else if ← hasKeyword "NOSCAN" then return true
    else if ← hasKeyword "FOR" then
      keyword "COLUMNS"
      discard (attempt (separated name ","))
      return true
    else if ← follow ["CACHE"] (keyword "METADATA") then return true
    else follow ["COMPUTE"] (keyword "STATISTICS")

/-! ### Writing out -/

/-- Takes the tables that are written out at once, and how, at most `fuel` parts. A token that is no
word is gone, and nothing follows it. -/
def flushedTablesWithin : (fuel : Nat) → Reader Unit
  | 0 => failure
  | fuel + 1 => do
    match ← get with
    | [] => return ()
    | token@(.word ..) :: rest =>
      if token.isPlainWord then discard (separated path ",")
      else
        set rest
        if token.isKeyword "WITH" then discard (hasKeywords ["READ", "LOCK"])
        if token.isKeyword "FOR" then discard (hasKeyword "EXPORT")
      flushedTablesWithin fuel
    | _ :: rest => set rest

/-- Takes what is written out at once, after the keyword. Only MySQL knows of it. -/
def flushing : Reader Unit := do
  guard (grammar.dialect = .mysql)
  discard (hasOneOf ["NO_WRITE_TO_BINLOG", "LOCAL"])
  match ← oneOf ["BINARY", "ENGINE", "ERROR", "GENERAL", "SLOW", "RELAY", "LOGS", "HOSTS",
    "PRIVILEGES", "OPTIMIZER_COSTS", "STATUS", "USER_RESOURCES", "TABLES"] with
  | "BINARY" | "ENGINE" | "ERROR" | "GENERAL" | "SLOW" => keyword "LOGS"
  | "RELAY" =>
    keyword "LOGS"
    optionally ["FOR", "CHANNEL"] path
  | "TABLES" => flushedTablesWithin ((← get).length + 1)
  | _ => return ()

/-! ### Results at hand -/

/-- Takes a result that is kept at hand, after the keyword: a table, perhaps with settings and the
query that it is the result of. -/
def caching : Reader Unit := do
  if !(← hasKeyword "TABLE") then
    discard path
    keyword "TABLE"
  discard path
  optionally ["OPTIONS"] grammar.settings
  match ← peek with
  | none => return ()
  | some (.word ..) =>
    discard (hasKeyword "AS")
    discard grammar.query
  | some _ => failure

/-- Takes a result that is not kept at hand any more, after the keyword. -/
def uncaching : Reader Unit := do
  keyword "TABLE"
  discard (hasKeywords ["IF", "EXISTS"])
  discard path

/-! ### Files -/

/-- Takes a table whose files are put right, after the keyword. -/
def repair : Reader Unit := do
  discard (hasKeyword "REPAIR")
  keyword "TABLE"
  discard path
  discard <| attempt do
    discard (hasOneOf ["ADD", "DROP", "SYNC"])
    keyword "PARTITIONS"

/-- Takes a query whose rows are written to a place, after the keyword. -/
def unloading : Reader Unit := do
  discard (parenthesized grammar.query)
  keyword "TO"
  discard name
  optionally ["WITH"] grammar.settings

end Schemata.Sql.Grammar
