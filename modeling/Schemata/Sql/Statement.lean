import Schemata.Sql.Grammar.Alteration
import Schemata.Sql.Grammar.Maintenance
import Schemata.Sql.Grammar.Nested
import Schemata.Sql.Grammar.Session

/-!
# Statements in SQL text

Of the statements of a text only the creation of tables matters. Everything else has to be
well-formed and is passed over.

## Main definitions

* `Grammar.creation`: what is created
* `Statement.within`: the reader of a statement, which keeps a table
* `tableDefinitions?`: the tables that a text creates
-/

namespace Schemata.Sql

open Reader

/-! ### Creation -/

namespace Grammar

variable (grammar : Grammar)

/-- Takes what can be created without a table being kept, after the word for what it is. -/
def objectDefinition (word : String) : Reader Unit :=
  match word with
  | "EXTENSION" => extensionDefinition
  | "INDEX" => grammar.indexDefinition
  | "SCHEMA" => schemaDefinition
  | "DATABASE" => databaseDefinition
  | "ROLE" => grammar.roleDefinition
  | "SEQUENCE" => grammar.sequenceDefinition
  | _ => grammar.typeDefinition

/-- Takes a procedure after the words that announce it, given the reader of its statements. -/
def procedureDefinition (statements : Reader Unit) : Reader Unit := do
  discard path
  if ← hasSymbol "(" then
    if !(← hasSymbol ")") then grammar.parametersWithin ((← get).length + 1)
  keywords ["AS", "BEGIN"]
  statements
  keyword "END"

/-- Takes what is created after the keyword; a table is kept. -/
def creation (statements : Reader Unit) : Reader (Option TableDefinition) := do
  if ← provided (grammar.dialect = .postgresql) enumeration then return none
  let replaced ← hasKeywords ["OR", "REPLACE"]
  discard (hasKeywords ["OR", "ALTER"])
  discard (hasKeyword "LOCAL")
  discard (hasKeyword "GLOBAL")
  discard (hasKeyword "TRANSIENT")
  discard (hasOneOf ["TEMP", "TEMPORARY"])
  if ← hasKeyword "TABLE" then return some (← grammar.tableDefinition)
  else if ← hasKeyword "EXTERNAL" then
    keyword "TABLE"
    return some (← grammar.externalTable)
  else if ← hasKeywords ["MATERIALIZED", "VIEW"] then grammar.viewDefinition
  else if ← hasKeyword "VIEW" then grammar.viewDefinition
  else if ← hasKeyword "POLICY" then grammar.policyDefinition
  else if ← hasKeyword "FUNCTION" then grammar.functionDefinition
  else if ← hasKeyword "TRIGGER" then grammar.triggerDefinition
  else if ← hasKeywords ["CONSTRAINT", "TRIGGER"] then grammar.triggerDefinition
  else if ← hasKeyword "SECRET" then secretDefinition
  else
    guard !replaced
    if ← hasKeywords ["UNIQUE", "INDEX"] then grammar.indexDefinition
    else if ← hasKeywords ["VIRTUAL", "TABLE"] then virtualTable
    else if ← hasKeyword "PROCEDURE" then grammar.procedureDefinition statements
    else
      grammar.objectDefinition (← oneOf ["EXTENSION", "INDEX", "SCHEMA", "DATABASE", "ROLE",
        "SEQUENCE", "TYPE"])
  return none

/-! ### Statements that only some dialects have -/

/-- Takes a statement that only the dialect has, after the first keyword. -/
def ownStatement (word : String) : Reader Unit := do
  match grammar.dialect, word with
  | .mysql, "REPLACE" => discard grammar.insertion
  | .sqlite, "REPLACE" =>
    -- The keyword tells what to do about rows that are there already.
    modify fun tokens => .word word none :: tokens
    discard grammar.insertion
  | .mysql, "LOCK" =>
    keyword "TABLES"
    discard (separated lockedTable ",")
  | .mysql, "UNLOCK" => keyword "TABLES"
  | .mysql, "FLUSH" => grammar.flushing
  | .postgresql, "COMMENT" => objectComment
  | .postgresql, "LISTEN" => discard name
  | .postgresql, "LOAD" => discard name
  | .postgresql, "UNLISTEN" => if !(← hasSymbol "*") then discard name
  | .postgresql, "NOTIFY" =>
    discard name
    if ← hasSymbol "," then discard text
  | _, _ => failure

/-! ### Statements without others inside them -/

/-- Takes a statement that has no other inside it, after its first keyword. -/
def plainStatement (word : String) : Reader Unit := do
  match word with
  | "INSERT" => discard grammar.insertion
  | "UPDATE" => discard grammar.update
  | "DELETE" => grammar.deletion
  | "TRUNCATE" => grammar.truncation
  | "MERGE" => grammar.merge
  | "COPY" => grammar.copy
  | "ALTER" => grammar.alteration
  | "DROP" => grammar.dropping
  | "BEGIN" => grammar.beginning
  | "START" =>
    keyword "TRANSACTION"
    transactionModes
  | "COMMIT" | "END" => chained
  | "ROLLBACK" => rollback
  | "SAVEPOINT" => discard name
  | "RELEASE" =>
    discard (hasKeyword "SAVEPOINT")
    discard name
  | "SET" => grammar.settingChange
  | "SHOW" => grammar.showing
  | "USE" => discard path
  | "GRANT" => granting
  | "REVOKE" => revoking
  | "PRAGMA" => pragma
  | "ANALYZE" => grammar.analysis
  | "ATTACH" =>
    discard (hasKeyword "DATABASE")
    discard grammar.expr
    keyword "AS"
    discard name
  | "DECLARE" => grammar.cursor
  | "FETCH" => fetching
  | "CLOSE" => if !(← hasKeyword "ALL") then discard name
  | "EXECUTE" | "EXEC" => grammar.execution
  | "DEALLOCATE" =>
    discard (hasKeyword "PREPARE")
    discard name
  | "CALL" => grammar.procedureCall
  | "KILL" =>
    discard (hasOneOf ["CONNECTION", "QUERY"])
    discard size
  | "DISCARD" => discard (oneOf ["ALL", "PLANS", "SEQUENCES", "TEMP", "TEMPORARY"])
  | "ASSERT" =>
    discard grammar.expr
    optionally ["AS"] grammar.expr
  | "CACHE" => grammar.caching
  | "UNCACHE" => uncaching
  | "MSCK" => repair
  | "UNLOAD" => grammar.unloading
  | word => grammar.ownStatement word

end Grammar

/-! ### All statements -/

namespace Statement

/-- Takes the options of an explanation in parentheses, each perhaps with a value. -/
def explanationOption (grammar : Grammar) : Reader Unit := do
  discard name
  if !(← nextIsSymbol ",") && !(← nextIsSymbol ")") then discard grammar.expr

/-- The keywords of the statements that explain others. -/
def explanations : List String := ["EXPLAIN", "DESCRIBE", "DESC"]

/-- Takes an explanation after its keyword, given the reader of the explained statement. An
explanation cannot be explained. What is no statement is a table. -/
def explanation (grammar : Grammar) (word : String) (statement : Reader Unit) : Reader Unit := do
  if grammar.dialect = .postgresql && word = "EXPLAIN" && (← nextIsSymbol "(") then
    discard (parenthesized (separated (explanationOption grammar) ","))
  else if !(← hasKeywords ["QUERY", "PLAN"]) then
    discard (hasKeyword "ANALYZE")
    discard (hasKeyword "VERBOSE")
    optionally ["FORMAT"] (oneOf ["TEXT", "GRAPHVIZ", "JSON"])
  let next ← peek
  match ← attempt statement with
  | some _ => guard !(explanations.any fun word => next.any (·.isKeyword word))
  | none =>
    discard (hasOneOf ["EXTENDED", "FORMATTED"])
    discard path

/-- Takes a prepared statement after the keyword, given the reader of the statement. -/
def preparation (grammar : Grammar) (statement : Reader Unit) : Reader Unit := do
  discard name
  if ← nextIsSymbol "(" then discard (parenthesized (separated (dataType grammar.dialect) ","))
  keyword "AS"
  statement

/-- Takes statements, at most `fuel` many, and keeps their results. Statements are separated by
semicolons, of which there may be more than needed; the word `END` right after a statement ends
them. -/
def allWithin {α : Type} (statement : Reader (Option α)) (separated : Bool) :
    (fuel : Nat) → Reader (List α)
  | 0 => failure
  | fuel + 1 => do
    if ← hasSymbol ";" then allWithin statement true fuel
    else
      match ← peek with
      | none => return []
      | some token =>
        if separated then
          let result ← statement
          return result.toList ++ (← allWithin statement false fuel)
        else
          guard (token.isKeyword "END")
          return []

/-- Takes statements, and keeps their results. -/
def all {α : Type} (statement : Reader (Option α)) : Reader (List α) := do
  allWithin statement true ((← get).length + 1)

/-- Takes a statement in which statements, queries and expressions are at most `nesting` deep,
itself included; a table is kept. -/
def within (dialect : Dialect) (size : Nat) : (nesting : Nat) → Reader (Option TableDefinition)
  | 0 => tooDeep
  | nesting + 1 => do
    let grammar := Grammar.ofSize dialect size nesting
    let inner := within dialect size nesting
    match ← peek with
    | some (.symbol "(") => discard grammar.query
    | some (.word text quote) =>
      match (Token.word text quote).keyword? with
      | some "SELECT" | some "WITH" | some "VALUES" => discard grammar.query
      | some "CREATE" =>
        keyword "CREATE"
        return ← grammar.creation (discard (all inner))
      | some "PREPARE" =>
        keyword "PREPARE"
        preparation grammar (discard inner)
      | some word =>
        keyword word
        if explanations.contains word then explanation grammar word (discard inner)
        else grammar.plainStatement word
      | none => failure
    | _ => failure
    return none

end Statement

/-- How deep statements, queries and expressions may be nested. -/
def maxNesting : Nat := 50

/-- The tables that a text creates, in order, if the text is well-formed. -/
def tableDefinitions? (dialect : Dialect) (text : String) : Option (List TableDefinition) := do
  let tokens ← Token.ofText? dialect text
  let tables := (Statement.all (Statement.within dialect tokens.length maxNesting)).run' tokens
  tables.toOption

end Schemata.Sql
