import Schemata.Sql.Grammar.Creation

/-!
# Alterations

Objects may be altered after they were created. That has no bearing on the tables that are kept, so
an alteration only has to be well-formed.

## Main definitions

* `Grammar.tableAlteration`: a change of a table
* `Grammar.alteration`: alterations of all kinds of objects
-/

namespace Schemata.Sql.Grammar

open Reader

variable (grammar : Grammar)

/-! ### Columns -/

/-- Takes the place of a column among the others, if it is told. -/
def columnPlace : Reader Unit := do
  if grammar.dialect = .mysql then
    if !(← hasKeyword "FIRST") then optionally ["AFTER"] name

/-- Takes a column that is added. -/
def addedColumn : Reader Unit := do
  discard (hasKeyword "COLUMN")
  if grammar.dialect = .postgresql then ifMissing
  discard grammar.columnDefinition
  grammar.columnPlace

/-- Takes the type and the options that a column is given anew. -/
def changedColumn : Reader Unit := do
  discard (dataType grammar.dialect)
  repeatedly (do return (← grammar.columnOption).isSome)
  grammar.columnPlace

/-- Takes what is changed about a column. -/
def columnAlteration : Reader Unit := do
  let postgresql := grammar.dialect = .postgresql
  if ← hasKeywords ["SET", "NOT", "NULL"] then return ()
  else if ← hasKeywords ["DROP", "NOT", "NULL"] then return ()
  else if ← hasKeywords ["SET", "DEFAULT"] then discard grammar.expr
  else if ← hasKeywords ["DROP", "DEFAULT"] then return ()
  else if ← either (hasKeywords ["SET", "DATA", "TYPE"])
      (provided postgresql (hasKeyword "TYPE")) then
    discard (dataType grammar.dialect)
    if postgresql then optionally ["USING"] grammar.expr
  else
    keywords ["ADD", "GENERATED"]
    if !(← hasKeyword "ALWAYS") then discard (hasKeywords ["BY", "DEFAULT"])
    keywords ["AS", "IDENTITY"]
    if ← nextIsSymbol "(" then discard (parenthesized sequenceOptions)

/-! ### Tables -/

/-- Takes what is added to a table. -/
def addition : Reader Unit := do
  if !(← grammar.tableConstraint) then
    ifMissing
    if ← nextIsKeyword "PARTITION" then
      repeatedly (follow ["PARTITION"] (parenthesized grammar.exprs))
    else grammar.addedColumn

/-- Takes what gets another name. -/
def renamedPart : Reader Unit := do
  if ← hasKeyword "TO" then discard path
  else
    let constraint ← provided (grammar.dialect = .postgresql) (hasKeyword "CONSTRAINT")
    if !constraint then discard (hasKeyword "COLUMN")
    discard name
    keyword "TO"
    discard name

/-- Takes what is dropped from a table. -/
def droppedPart : Reader Unit := do
  if ← hasKeywords ["IF", "EXISTS", "PARTITION"] then discard (parenthesized grammar.exprs)
  else if ← hasKeyword "PARTITION" then discard (parenthesized grammar.exprs)
  else if ← hasKeyword "CONSTRAINT" then droppedName
  else
    if ← hasKeywords ["PRIMARY", "KEY"] then
      -- Elsewhere the words say nothing, and what is dropped is still to come.
      if grammar.dialect = .mysql then return ()
    discard (hasKeyword "PROJECTION")
    if !(← hasKeywords ["CLUSTERING", "KEY"]) then
      discard (hasKeyword "COLUMN")
      droppedName
where
  /-- Takes the name of what is dropped. -/
  droppedName : Reader Unit := do
    discard (hasKeywords ["IF", "EXISTS"])
    discard name
    discard (hasKeyword "CASCADE")

/-- Takes a rule, a trigger or the security of rows, which are enabled or disabled. -/
def switchedPart : Reader Unit := do
  if !(← hasKeywords ["ROW", "LEVEL", "SECURITY"]) then
    discard (oneOf ["RULE", "TRIGGER"])
    discard name

/-- Takes a change of a table after its first word. -/
def tableAlterationAfter (word : String) : Reader Unit := do
  match word with
  | "ADD" => grammar.addition
  | "RENAME" => grammar.renamedPart
  | "DROP" => grammar.droppedPart
  | "ALTER" =>
    discard (hasKeyword "COLUMN")
    discard name
    grammar.columnAlteration
  | "CHANGE" =>
    discard (hasKeyword "COLUMN")
    discard name
    discard name
    grammar.changedColumn
  | "MODIFY" =>
    discard (hasKeyword "COLUMN")
    discard name
    grammar.changedColumn
  | "PARTITION" =>
    discard (parenthesized grammar.exprs)
    keywords ["RENAME", "TO", "PARTITION"]
    discard (parenthesized grammar.exprs)
  | "ENABLE" =>
    if (← hasOneOf ["ALWAYS", "REPLICA"]).isSome then
      discard (oneOf ["RULE", "TRIGGER"])
      discard name
    else switchedPart
  | "DISABLE" => switchedPart
  | "SWAP" =>
    keyword "WITH"
    discard path
  | "OWNER" =>
    guard (grammar.dialect = .postgresql)
    keyword "TO"
    discard name
  | "CLUSTER" =>
    keyword "BY"
    discard (parenthesized grammar.exprs)
  | "SUSPEND" | "RESUME" => keyword "RECLUSTER"
  | _ =>
    keyword "TBLPROPERTIES"
    grammar.settings

/-- Takes a change of a table. -/
def tableAlteration : Reader Unit := do
  match ← hasOneOf ["ADD", "RENAME", "ENABLE", "DISABLE"] with
  | some word => grammar.tableAlterationAfter word
  | none =>
    -- Projections are not known here, and their words before a change say nothing.
    discard (hasKeywords ["CLEAR", "PROJECTION"])
    discard (hasKeywords ["MATERIALIZE", "PROJECTION"])
    grammar.tableAlterationAfter (← oneOf ["DROP", "PARTITION", "CHANGE", "MODIFY", "ALTER",
      "SWAP", "OWNER", "CLUSTER", "SUSPEND", "RESUME", "SET"])

/-- Takes an altered table after its keyword. -/
def alteredTable : Reader Unit := do
  discard (hasKeywords ["IF", "EXISTS"])
  discard (hasKeyword "ONLY")
  discard path
  optionally ["ON", "CLUSTER"] name
  discard (separated grammar.tableAlteration ",")
  if !(← follow ["LOCATION"] name) then optionally ["SET", "LOCATION"] name

/-! ### Other objects -/

/-- Takes a value that a role is given for a parameter. -/
def parameterValue : Reader Unit := do
  if !(← hasKeywords ["FROM", "CURRENT"]) then
    if !(← hasSymbol "=") then keyword "TO"
    if !(← hasKeyword "DEFAULT") then discard grammar.expr

/-- Takes something that is told about a role itself. -/
def roleOption : Reader Unit := do
  let tokens ← get
  match roleOptions.flatten.find? fun option => announce option.1 tokens with
  | none => failure
  | some (words, reader) =>
    set (tokens.drop words.length)
    reader

/-- Takes an altered role after its keyword. -/
def alteredRole : Reader Unit := do
  guard (grammar.dialect = .postgresql)
  discard name
  optionally ["IN", "DATABASE"] loosePath
  if ← hasKeyword "RENAME" then
    keyword "TO"
    discard name
  else if ← hasKeyword "SET" then
    discard path
    grammar.parameterValue
  else if ← hasKeyword "RESET" then
    if !(← hasKeyword "ALL") then discard path
  else
    discard (hasKeyword "WITH")
    roleOption
    repeatedly (found roleOption)

/-- Takes an altered policy after its keyword. -/
def alteredPolicy : Reader Unit := do
  discard name
  keyword "ON"
  discard path
  if ← hasKeyword "RENAME" then
    keyword "TO"
    discard name
  else grammar.policyRules

/-- Takes an alteration after its keyword. -/
def alteration : Reader Unit := do
  match ← oneOf ["TABLE", "VIEW", "INDEX", "ROLE", "POLICY"] with
  | "TABLE" => grammar.alteredTable
  | "VIEW" =>
    discard path
    discard optionalNames
    optionally ["WITH"] grammar.settings
    keyword "AS"
    discard grammar.query
  | "INDEX" =>
    discard path
    keywords ["RENAME", "TO"]
    discard path
  | "ROLE" => grammar.alteredRole
  | _ => grammar.alteredPolicy

/-! ### Dropping -/

/-- Takes the words by which an object is only dropped where it is there. -/
def ifThere : Reader Unit := discard (hasKeywords ["IF", "EXISTS"])

/-- Takes dropped functions after their keyword. -/
def droppedFunctions : Reader Unit := do
  ifThere
  discard (separated grammar.functionSignature ",")
  discard (hasOneOf ["CASCADE", "RESTRICT"])

/-- Takes what is dropped from the table that it belongs to, after the keyword. -/
def droppedFromTable {α : Type} (dropped : Reader α) : Reader Unit := do
  ifThere
  discard dropped
  keyword "ON"
  discard path
  discard (hasOneOf ["CASCADE", "RESTRICT"])

/-- Takes dropped objects after the keyword of dropping. -/
def dropping : Reader Unit := do
  if grammar.dialect = .mysql then discard (hasKeyword "TEMPORARY")
  match ← oneOf ["TABLE", "VIEW", "INDEX", "ROLE", "SCHEMA", "DATABASE", "SEQUENCE", "STAGE",
    "TYPE", "FUNCTION", "PROCEDURE", "POLICY", "SECRET", "TRIGGER"] with
  | "FUNCTION" | "PROCEDURE" => grammar.droppedFunctions
  | "POLICY" => droppedFromTable name
  | "SECRET" =>
    ifThere
    discard name
    optionally ["FROM"] looseName
  | "TRIGGER" =>
    guard (grammar.dialect = .postgresql)
    droppedFromTable path
  | kind =>
    ifThere
    discard (separated path ",")
    -- A role can be dropped in no particular way.
    if kind ≠ "ROLE" then
      if !(← hasKeyword "CASCADE") then discard (hasKeyword "RESTRICT")
      discard (hasKeyword "PURGE")

end Schemata.Sql.Grammar
