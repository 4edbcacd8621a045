import Schemata.Sql.ColumnOption
import Schemata.Sql.Grammar.Sequence

/-!
# Reading the options of columns

The dialects share most options of columns. A keyword of another dialect is taken too, but is no
option, and nothing after it is given back.

## Main definitions

* `Grammar.columnOption`: an option
* `Grammar.columnOptions`: the options of a column
-/

namespace Schemata.Sql.Grammar

open Reader

variable (grammar : Grammar)

/-- Takes a condition in parentheses. -/
def condition : Reader Expr := parenthesized grammar.expr

/-- Takes the keyword on where computed values are kept. In PostgreSQL they have to be stored. -/
def storage (stored : Bool) : Reader String := do
  match ← hasOneOf (if stored then ["STORED"] else ["STORED", "VIRTUAL"]) with
  | some word => return " " ++ word
  | none => if stored then failure else return ""

/-- Takes what follows the keyword of values that the database generates. -/
def generation : Reader (Option ColumnOption) := do
  let identity (words : List String) : Reader (Option ColumnOption) := do
    let options ← if ← nextIsSymbol "(" then parenthesized sequenceOptions else pure []
    let words := String.intercalate " " ("GENERATED" :: words)
    return some (.words (words ++ writtenSequence options))
  if ← hasKeywords ["ALWAYS", "AS", "IDENTITY"] then identity ["ALWAYS", "AS", "IDENTITY"]
  else if ← hasKeywords ["BY", "DEFAULT", "AS", "IDENTITY"] then
    identity ["BY", "DEFAULT", "AS", "IDENTITY"]
  else if (← hasKeywords ["ALWAYS", "AS"]) && (← nextIsSymbol "(") then
    let value ← grammar.condition
    let stored ← storage (grammar.dialect = .postgresql)
    return some (.generated "GENERATED ALWAYS AS " value stored)
  else return none

/-- Takes an option of a column that only some dialects have, if there is one. -/
def dialectOption : Reader (Option ColumnOption) := do
  if ← hasKeyword "AUTO_INCREMENT" then
    if grammar.dialect = .mysql then return some (.words "AUTO_INCREMENT")
  if ← hasKeyword "AUTOINCREMENT" then
    if grammar.dialect = .sqlite then return some (.words "AUTOINCREMENT")
  if ← hasKeyword "ASC" then
    if grammar.dialect = .sqlite then return some (.words "ASC")
  if ← hasKeyword "DESC" then
    if grammar.dialect = .sqlite then return some (.words "DESC")
  if ← hasKeywords ["ON", "UPDATE"] then
    if grammar.dialect = .mysql then return some (.onUpdate (← grammar.expr))
  if ← hasKeyword "GENERATED" then return (← grammar.generation)
  if ← hasKeyword "AS" then
    if grammar.dialect ≠ .postgresql then
      let value ← grammar.condition
      return some (.generated "AS " value (← storage false))
  discard (hasKeyword "IDENTITY")
  if grammar.dialect = .sqlite then
    if ← hasKeywords ["ON", "CONFLICT"] then
      let word ← oneOf ["ROLLBACK", "ABORT", "FAIL", "IGNORE", "REPLACE"]
      return some (.words ("ON CONFLICT " ++ word))
  return none

/-- Takes an option of a column, if there is one. -/
def columnOption : Reader (Option ColumnOption) := do
  if ← hasKeywords ["CHARACTER", "SET"] then
    return some (.words ("CHARACTER SET " ++ renderPath (← path)))
  else if ← hasKeywords ["NOT", "NULL"] then return some .notNull
  else if ← hasKeyword "COMMENT" then
    return some (.words ("COMMENT " ++ quoted '\'' (← plainText)))
  else if ← hasKeyword "NULL" then return some .null
  else if ← hasKeyword "DEFAULT" then return some (.default (← grammar.expr))
  else if ← hasKeywords ["PRIMARY", "KEY"] then return some (.primaryKey (← checking))
  else if ← hasKeyword "UNIQUE" then return some (.unique (← checking))
  else if ← hasKeyword "REFERENCES" then
    let table ← path
    let columns ← optionalNames
    let actions ← referentialActions
    return some (.references table columns actions (← checking))
  else if ← hasKeyword "CHECK" then return some (.check (← grammar.condition))
  else grammar.dialectOption

/-- Takes the options of a column, at most `fuel` many. A collation is no option. -/
def columnOptionsWithin : (fuel : Nat) → Reader (List NamedOption)
  | 0 => failure
  | fuel + 1 => do
    if ← hasKeyword "CONSTRAINT" then
      let name ← name
      match ← grammar.columnOption with
      | none => failure
      | some option => return ⟨some name, option⟩ :: (← columnOptionsWithin fuel)
    else
      match ← grammar.columnOption with
      | some option => return ⟨none, option⟩ :: (← columnOptionsWithin fuel)
      | none =>
        if grammar.dialect ≠ .mysql then return []
        else if ← hasKeyword "COLLATE" then
          discard path
          columnOptionsWithin fuel
        else return []

/-- Takes the options of a column, before which a collation may stand. -/
def columnOptions : Reader (List NamedOption) := do
  if ← hasKeyword "COLLATE" then discard path
  grammar.columnOptionsWithin ((← get).length + 1)

end Schemata.Sql.Grammar
