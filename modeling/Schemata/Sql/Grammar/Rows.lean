import Schemata.Sql.Grammar.Query

/-!
# Removing and moving rows

What statements do to rows besides inserting and updating them. Such a statement only has to be
well-formed.

## Main definitions

* `Grammar.deletion`, `Grammar.truncation`: rows are removed
* `Grammar.merge`: rows are put where they belong
* `Grammar.copy`: rows are exchanged with a file
-/

namespace Schemata.Sql.Grammar

open Reader

variable (grammar : Grammar)

/-! ### Removing -/

/-- Takes a number of rows after its keyword. -/
def limit : Reader Unit := do
  if ← hasKeyword "ALL" then return () else discard grammar.expr

/-- Takes a removal of rows after its keyword. -/
def deletion : Reader Unit := do
  if !(← hasKeyword "FROM") then
    discard (separated path ",")
    keyword "FROM"
  discard grammar.sources
  optionally ["USING"] grammar.sources
  optionally ["WHERE"] grammar.expr
  discard grammar.returned
  optionally ["ORDER", "BY"] grammar.orderings
  optionally ["LIMIT"] grammar.limit

/-- Takes a removal of all rows after its keyword. -/
def truncation : Reader Unit := do
  discard (hasKeyword "TABLE")
  discard (hasKeyword "ONLY")
  discard (separated path ",")
  optionally ["PARTITION"] (parenthesized grammar.exprs)
  if grammar.dialect = .postgresql then
    if !(← hasKeywords ["RESTART", "IDENTITY"]) then discard (hasKeywords ["CONTINUE", "IDENTITY"])
    discard (hasOneOf ["CASCADE", "RESTRICT"])
  optionally ["ON", "CLUSTER"] name

/-! ### Merging -/

/-- Takes what becomes of rows that match or do not match. -/
def mergeAction (matched fromSource : Bool) : Reader Unit := do
  match ← oneOf ["UPDATE", "INSERT", "DELETE"] with
  | "UPDATE" =>
    guard (matched || fromSource)
    keyword "SET"
    discard grammar.assignments
  | "DELETE" => guard (matched || fromSource)
  | _ =>
    guard !(matched || fromSource)
    discard grammar.insertedColumns
    keyword "VALUES"
    discard grammar.rows

/-- Takes a case of a merge, unless the merge ends there, and tells whether there was one. -/
def mergeCase : Reader Bool := do
  if (← nextIsSymbol ";") || (← peek).isNone then return false
  keyword "WHEN"
  let matched := !(← hasKeyword "NOT")
  keyword "MATCHED"
  let fromSource ← if matched then pure false else hasKeywords ["BY", "SOURCE"]
  if !matched && !fromSource then discard (hasKeywords ["BY", "TARGET"])
  optionally ["AND"] grammar.expr
  keyword "THEN"
  grammar.mergeAction matched fromSource
  return true

/-- Takes a merge of rows after its keyword. -/
def merge : Reader Unit := do
  discard (hasKeyword "INTO")
  discard grammar.source
  keyword "USING"
  discard grammar.source
  keyword "ON"
  discard grammar.expr
  repeatedly grammar.mergeCase

/-! ### Copying -/

/-- Takes a text of one character. -/
def character : Reader Unit := do guard ((← text).utf8ByteSize = 1)

/-- Takes an option of a copy in parentheses. -/
def copyOption : Reader Unit := do
  match ← oneOf ["FORMAT", "FREEZE", "HEADER", "DELIMITER", "QUOTE", "ESCAPE", "NULL", "ENCODING",
    "FORCE_QUOTE", "FORCE_NOT_NULL", "FORCE_NULL"] with
  | "FORMAT" => discard name
  | "FREEZE" | "HEADER" => discard (hasOneOf ["TRUE", "FALSE"])
  | "DELIMITER" | "QUOTE" | "ESCAPE" => character
  | "NULL" | "ENCODING" => discard text
  | _ => discard names

/-- Takes an option of rows with separators. -/
def separatedRowsOption : Reader Unit := do
  match ← oneOf ["HEADER", "QUOTE", "ESCAPE", "FORCE"] with
  | "HEADER" => return ()
  | "FORCE" =>
    if !(← hasKeywords ["NOT", "NULL"]) then keyword "QUOTE"
    discard (separated name ",")
  | _ =>
    discard (hasKeyword "AS")
    character

/-- Takes an option of a copy without parentheses. -/
def bareCopyOption : Reader Unit := do
  match ← oneOf ["BINARY", "DELIMITER", "NULL", "CSV"] with
  | "BINARY" => return ()
  | "CSV" => repeatedly (found separatedRowsOption)
  | "DELIMITER" =>
    discard (hasKeyword "AS")
    character
  | _ =>
    discard (hasKeyword "AS")
    discard text

/-- What follows the mark that ends rows inside a text. The backslash that it begins with may
stand before other tokens, and then it takes one of them with it. -/
def afterRows : List Token → List Token
  | .symbol "\\" :: .symbol "." :: rest => rest
  | .symbol "\\" :: _ :: rest => afterRows rest
  | _ :: rest => afterRows rest
  | [] => []

/-- Takes a copy of rows after its keyword. Rows may follow the statement themselves. -/
def copy : Reader Unit := do
  let query ← nextIsSymbol "("
  if query then discard (parenthesized grammar.query)
  else
    discard path
    discard optionalNames
  let direction ← oneOf ["FROM", "TO"]
  guard (direction = "TO" || !query)
  let inText ← hasKeyword "STDIN"
  if !inText then
    if !(← hasKeyword "STDOUT") then
      discard (hasKeyword "PROGRAM")
      discard text
  discard (hasKeyword "WITH")
  if ← nextIsSymbol "(" then discard (parenthesized (separated copyOption ","))
  repeatedly (found bareCopyOption)
  if inText then
    symbol ";"
    modify afterRows

end Schemata.Sql.Grammar
