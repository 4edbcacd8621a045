import Schemata.Sql.Grammar.Rows

/-!
# Sessions

What a text tells the database besides what it holds: where transactions begin and end, how the
session is set up, what it shows, and who may do what.

## Main definitions

* `Grammar.transactionModes`, `Grammar.chained`, `Grammar.rollback`: transactions
* `Grammar.settingChange`, `Grammar.pragma`, `Grammar.showing`: the set-up of the session
* `Grammar.permission`: permissions that are granted or revoked
* `Grammar.cursor`, `Grammar.fetching`, `Grammar.execution`: cursors and prepared statements
-/

namespace Schemata.Sql.Grammar

open Reader

variable (grammar : Grammar)

/-! ### Transactions -/

/-- Takes how a transaction works, at most `fuel` modes. After a comma there has to be one. -/
def transactionModesWithin (required : Bool) : (fuel : Nat) → Reader Unit
  | 0 => failure
  | fuel + 1 => do
    if ← hasKeywords ["ISOLATION", "LEVEL"] then
      if !(← hasKeyword "SERIALIZABLE") then
        if !(← hasKeywords ["REPEATABLE", "READ"]) then
          keyword "READ"
          discard (oneOf ["COMMITTED", "UNCOMMITTED"])
    else if ← hasKeyword "READ" then discard (oneOf ["ONLY", "WRITE"])
    else
      guard !required
      return ()
    transactionModesWithin (← hasSymbol ",") fuel

/-- Takes how a transaction works. -/
def transactionModes : Reader Unit := do
  transactionModesWithin false ((← get).length + 1)

/-- Takes the beginning of a transaction after its keyword. -/
def beginning : Reader Unit := do
  if grammar.dialect = .sqlite then discard (hasOneOf ["DEFERRED", "IMMEDIATE", "EXCLUSIVE"])
  discard (hasOneOf ["TRANSACTION", "WORK"])
  transactionModes

/-- Takes whether another transaction follows the end of one. -/
def chained : Reader Unit := do
  discard (hasOneOf ["TRANSACTION", "WORK"])
  optionally ["AND"] do
    discard (hasKeyword "NO")
    keyword "CHAIN"

/-- Takes the undoing of a transaction, perhaps only up to a point, after its keyword. -/
def rollback : Reader Unit := do
  chained
  optionally ["TO"] do
    discard (hasKeyword "SAVEPOINT")
    discard name

/-- Takes a table that is locked. -/
def lockedTable : Reader Unit := do
  discard name
  discard (otherName ["READ", "WRITE", "LOW_PRIORITY"])
  if ← hasKeyword "READ" then discard (hasKeyword "LOCAL")
  else
    discard (hasKeyword "LOW_PRIORITY")
    keyword "WRITE"

/-! ### Parameters -/

/-- Takes the values of a parameter. -/
def parameterValues : Reader Unit := do
  let value : Reader Unit := do
    if ← nextIsQuery then discard grammar.query
    else discard grammar.expr
  discard (separated value ",")

/-- Takes the character set of the session. -/
def sessionNames : Reader Unit := do
  if !(← hasKeyword "DEFAULT") then
    discard text
    optionally ["COLLATE"] text

/-- Takes a role that the session takes on. -/
def sessionRole : Reader Unit := do
  keyword "ROLE"
  discard name

/-- Takes a changed parameter after the words that announce it. The names of some parameters begin
a form of their own. -/
def parameterChange (limited : Bool) : Reader Unit := do
  let parameter ← if ← hasKeywords ["TIME", "ZONE"] then pure "TIMEZONE" else renderPath <$> path
  let upper := String.ofList (parameter.toList.map Char.toUpper)
  if upper = "NAMES" && grammar.dialect = .mysql then sessionNames
  else if ← either (hasSymbol "=") (hasKeyword "TO") then grammar.parameterValues
  else if upper = "TIMEZONE" then discard grammar.expr
  else if parameter = "CHARACTERISTICS" then
    keywords ["AS", "TRANSACTION"]
    transactionModes
  else
    guard (parameter = "TRANSACTION" && !limited)
    if ← hasKeyword "SNAPSHOT" then discard value else transactionModes

/-- Takes a change of the session after its keyword. -/
def settingChange : Reader Unit := do
  match ← hasOneOf ["SESSION", "LOCAL", "HIVEVAR"] with
  | some "HIVEVAR" =>
    symbol ":"
    grammar.parameterChange true
  | scope =>
    match ← attempt sessionRole with
    | some _ => return ()
    | none => grammar.parameterChange scope.isSome

/-- Takes the value of a pragma: a number, a text or the mark of a place. -/
def pragmaValue : Reader Unit := do
  match ← next with
  | .number .. | .string .. | .word _ (some '"') => return ()
  | .literal written => guard (written.startsWith "?" || written.startsWith "$")
  | .symbol mark =>
    guard (mark = ":" || mark = "@")
    discard (place mark)
  | _ => failure

/-- Takes a pragma after its keyword. -/
def pragma : Reader Unit := do
  discard path
  if ← nextIsSymbol "(" then parenthesized pragmaValue
  else if ← hasSymbol "=" then pragmaValue

/-! ### Showing -/

/-- Takes a condition on what is shown, if there is one. -/
def shownFilter : Reader Unit := do
  match ← hasOneOf ["LIKE", "ILIKE", "WHERE"] with
  | some "WHERE" => discard grammar.expr
  | some _ => discard text
  | none => discard (attempt text)

/-- Takes where the things that are shown belong. -/
def shownScope : Reader Unit := do
  if (← hasOneOf ["FROM", "IN"]).isSome then
    match ← hasOneOf ["ACCOUNT", "DATABASE", "SCHEMA", "TABLE", "VIEW"] with
    | some kind =>
      let ended := announce ["STARTS", "WITH"] (← get) || (← nextIsKeyword "LIMIT")
      if !(ended && (kind = "DATABASE" || kind = "SCHEMA")) then discard (attempt path)
    | none =>
      discard path
      if (← hasOneOf ["FROM", "IN"]).isSome then discard name

/-- Takes which things are shown. -/
def shownThings : Reader Unit := do
  shownScope
  grammar.shownFilter
  optionally ["STARTS", "WITH"] value
  optionally ["LIMIT"] grammar.limit
  optionally ["FROM"] value

/-- Takes what is shown after the keyword. The name of a parameter goes on up to an equality
sign, whatever it consists of. -/
def showing : Reader Unit := do
  discard (hasKeyword "TERSE")
  let extended ← hasKeyword "EXTENDED"
  let full ← hasKeyword "FULL"
  discard (hasKeyword "SESSION")
  discard (hasKeyword "GLOBAL")
  let external ← hasKeyword "EXTERNAL"
  if (← hasOneOf ["COLUMNS", "FIELDS", "VIEWS"]).isSome then grammar.shownThings
  else if ← hasKeyword "TABLES" then
    if !external then discard (hasKeyword "HISTORY")
    grammar.shownThings
  else if ← hasKeywords ["MATERIALIZED", "VIEWS"] then grammar.shownThings
  else if ← hasKeyword "FUNCTIONS" then grammar.shownFilter
  else
    guard !(extended || full)
    if ← hasKeyword "CREATE" then
      discard (oneOf ["TABLE", "TRIGGER", "FUNCTION", "PROCEDURE", "EVENT", "VIEW"])
      discard path
    else if ← hasKeyword "COLLATION" then grammar.shownFilter
    else if ← provided (grammar.dialect = .mysql) (hasSomeOf ["VARIABLES", "STATUS"]) then
      grammar.shownFilter
    else
      -- Where they are not known, the words for variables are passed over.
      discard (hasKeyword "VARIABLES")
      discard (hasKeyword "STATUS")
      if (← hasOneOf ["DATABASES", "SCHEMAS"]).isSome then
        discard (hasKeyword "HISTORY")
        grammar.shownThings
      else modify (List.dropWhile (· ≠ .symbol "="))

/-! ### Permissions -/

/-- Takes an action that is permitted, perhaps for some columns only. -/
def permittedAction : Reader Unit := do
  match ← oneOf ["CONNECT", "CREATE", "DELETE", "EXECUTE", "INSERT", "REFERENCES", "SELECT",
    "TEMPORARY", "TRIGGER", "TRUNCATE", "UPDATE", "USAGE"] with
  | "INSERT" | "REFERENCES" | "SELECT" | "UPDATE" => discard optionalNames
  | _ => return ()

/-- Takes a permission after its keyword, where a word stands before those that it is for. -/
def permission (word : String) : Reader Unit := do
  if ← hasKeyword "ALL" then discard (hasKeyword "PRIVILEGES")
  else discard (separated permittedAction ",")
  keyword "ON"
  if !(← hasKeywords ["ALL", "TABLES", "IN", "SCHEMA"]) then
    if !(← hasKeywords ["ALL", "SEQUENCES", "IN", "SCHEMA"]) then
      discard (hasOneOf ["SEQUENCE", "SCHEMA", "TABLE"])
  discard (separated path ",")
  keyword word
  discard (separated name ",")

/-- Takes a granted permission after its keyword. -/
def granting : Reader Unit := do
  permission "TO"
  discard (hasKeywords ["WITH", "GRANT", "OPTION"])
  optionally ["GRANTED", "BY"] name

/-- Takes a revoked permission after its keyword. -/
def revoking : Reader Unit := do
  permission "FROM"
  optionally ["GRANTED", "BY"] name
  discard (hasOneOf ["CASCADE", "RESTRICT"])

/-! ### Cursors and prepared statements -/

/-- Takes a cursor after its keyword. -/
def cursor : Reader Unit := do
  discard name
  discard (hasKeyword "BINARY")
  discard (hasOneOf ["INSENSITIVE", "ASENSITIVE"])
  if !(← hasKeyword "SCROLL") then discard (hasKeywords ["NO", "SCROLL"])
  keyword "CURSOR"
  if (← hasOneOf ["WITH", "WITHOUT"]).isSome then keyword "HOLD"
  keyword "FOR"
  discard grammar.query

/-- Takes rows that are fetched from a cursor, after the keyword. -/
def fetching : Reader Unit := do
  match ← hasOneOf ["NEXT", "PRIOR", "FIRST", "LAST", "ABSOLUTE", "RELATIVE", "FORWARD",
    "BACKWARD", "ALL"] with
  | some "ABSOLUTE" | some "RELATIVE" | none => discard number
  | some "FORWARD" | some "BACKWARD" => if !(← hasKeyword "ALL") then discard number
  | some _ => pure ()
  discard (oneOf ["FROM", "IN"])
  discard name
  optionally ["INTO"] path

/-- Takes a run of a prepared statement after the keyword. -/
def execution : Reader Unit := do
  discard path
  if ← hasSymbol "(" then
    if !(← hasSymbol ")") then
      discard grammar.exprs
      symbol ")"
  else if !(← nextIsKeyword "USING") && !(← nextIsSymbol ";") && (← peek).isSome then
    discard grammar.exprs
  optionally ["USING"] grammar.exprs

/-- Takes a call of a procedure after its keyword. -/
def procedureCall : Reader Unit := do
  let procedure ← path
  if ← hasSymbol "(" then discard (grammar.call procedure)

end Schemata.Sql.Grammar
