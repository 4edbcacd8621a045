import Schemata.Sql.Grammar.Query
import Schemata.Sql.Grammar.Table

/-!
# Created objects

A text may create other objects besides tables. They only have to be well-formed.

## Main definitions

* `Grammar.indexDefinition`, `Grammar.viewDefinition`, `Grammar.virtualTable`: indexes, views, and
  tables that are kept elsewhere
* `Grammar.sequenceDefinition`, `Grammar.typeDefinition`: sequences and types
* `Grammar.secretDefinition`, `Grammar.roleDefinition`, `Grammar.policyDefinition`: who may do what
* `Grammar.functionDefinition`, `Grammar.triggerDefinition`: functions, and what calls them
-/

namespace Schemata.Sql.Grammar

open Reader

variable (grammar : Grammar)

/-- Takes the words by which an object is only created where it is missing. -/
def ifMissing : Reader Unit := discard (hasKeywords ["IF", "NOT", "EXISTS"])

/-! ### Indexes and views -/

/-- Takes an index after the words that announce it. -/
def indexDefinition : Reader Unit := do
  discard (hasKeyword "CONCURRENTLY")
  let guarded ← hasKeywords ["IF", "NOT", "EXISTS"]
  let unnamed ← if guarded then pure false else hasKeyword "ON"
  if !unnamed then
    discard path
    keyword "ON"
  discard path
  optionally ["USING"] name
  discard (parenthesized grammar.orderings)
  optionally ["INCLUDE"] names
  distinctNulls
  if grammar.dialect = .postgresql then optionally ["WITH"] (parenthesized grammar.exprs)
  optionally ["WHERE"] grammar.expr

/-- Takes a view after the words that announce it. -/
def viewDefinition : Reader Unit := do
  if grammar.dialect = .sqlite then ifMissing
  discard path
  if ← nextIsSymbol "(" then discard anyNames
  optionally ["WITH"] grammar.settings
  optionally ["CLUSTER", "BY"] optionalNames
  keyword "AS"
  discard grammar.query

/-- Takes a table that a module keeps, after the words that announce it. -/
def virtualTable : Reader Unit := do
  ifMissing
  discard path
  keyword "USING"
  discard name
  discard optionalNames

/-! ### Names for what belongs together -/

/-- Takes a schema after the word that announces it. -/
def schemaDefinition : Reader Unit := do
  ifMissing
  if !(← nextIsKeyword "AUTHORIZATION") then discard path
  optionally ["AUTHORIZATION"] name

/-- Takes a database after the word that announces it. -/
def databaseDefinition : Reader Unit := do
  ifMissing
  discard path
  repeatedly do
    if ← follow ["LOCATION"] text then return true else follow ["MANAGEDLOCATION"] text

/-- Takes an extension after the word that announces it. -/
def extensionDefinition : Reader Unit := do
  ifMissing
  discard name
  optionally ["WITH"] do
    optionally ["SCHEMA"] name
    optionally ["VERSION"] name
    discard (hasKeyword "CASCADE")

/-! ### Sequences and types -/

/-- Takes a sequence after the word that announces it. -/
def sequenceDefinition : Reader Unit := do
  ifMissing
  discard path
  optionally ["AS"] (dataType grammar.dialect)
  discard sequenceOptions
  optionally ["OWNED", "BY"] do
    if !(← hasKeyword "NONE") then discard path

/-- Takes the attributes of a type, at most `fuel` many, with a comma before the closing
parenthesis if need be. -/
def attributesWithin : (fuel : Nat) → Reader Unit
  | 0 => failure
  | fuel + 1 => do
    discard name
    discard (dataType grammar.dialect)
    optionally ["COLLATE"] path
    let more ← hasSymbol ","
    if ← hasSymbol ")" then return ()
    guard more
    attributesWithin fuel

/-- Takes a type after the word that announces it. -/
def typeDefinition : Reader Unit := do
  discard path
  keyword "AS"
  if ← hasSymbol "(" then
    if ← hasSymbol ")" then return ()
    grammar.attributesWithin ((← get).length + 1)

/-- Takes a type of listed names after the keyword of creation, if it is one. -/
def enumeration : Reader Bool := do
  let announced ← found do
    keyword "TYPE"
    discard path
    keywords ["AS", "ENUM"]
  if announced then discard anyNames
  return announced

/-- Takes the parameters of a procedure after the opening parenthesis, at most `fuel` many. Between
two commas one may be missing. -/
def parametersWithin : (fuel : Nat) → Reader Unit
  | 0 => failure
  | fuel + 1 => do
    if let some (.word ..) ← peek then
      discard name
      discard (dataType grammar.dialect)
    let more ← hasSymbol ","
    if ← hasSymbol ")" then return ()
    guard more
    parametersWithin fuel

/-! ### Secrets -/

/-- Takes a secret after the word that announces it. Its name and where it is kept may be any
token. -/
def secretDefinition : Reader Unit := do
  ifMissing
  if !(← nextIsSymbol "(") then
    let located ← if ← hasKeyword "IN" then looseName
      else do
        discard looseName
        pure false
    if ← provided (!located) (hasKeyword "IN") then discard looseName
  parenthesized do
    keyword "TYPE"
    discard name
    if ← hasSymbol "," then discard (separated (do discard name; discard name) ",")

/-! ### Roles and policies -/

/-- What may be told about a role itself. -/
def roleOptions : List Alternatives :=
  let bare (words : List String) : Alternatives := words.map fun word => ([word], return ())
  [bare ["LOGIN", "NOLOGIN"], bare ["INHERIT", "NOINHERIT"], bare ["BYPASSRLS", "NOBYPASSRLS"],
    bare ["CREATEDB", "NOCREATEDB"], bare ["CREATEROLE", "NOCREATEROLE"],
    bare ["SUPERUSER", "NOSUPERUSER"], bare ["REPLICATION", "NOREPLICATION"],
    [(["PASSWORD"], discard value)], [(["CONNECTION", "LIMIT"], discard number)],
    [(["VALID", "UNTIL"], discard value)]]

/-- What may be told about the roles that a role belongs to or has. -/
def roleMembers : List Alternatives :=
  [["IN", "ROLE"], ["IN", "GROUP"], ["ROLE"], ["USER"], ["ADMIN"]].map fun words =>
    [(words, discard (separated name ","))]

/-- Takes roles after the word that announces them. -/
def roleDefinition : Reader Unit := do
  ifMissing
  discard (separated path ",")
  discard (hasKeyword "WITH")
  if grammar.dialect = .postgresql then onceEach (roleOptions ++ roleMembers)

/-- Takes to whom a policy applies, and the conditions that it consists of. -/
def policyRules : Reader Unit := do
  optionally ["TO"] (separated name ",")
  optionally ["USING"] grammar.condition
  optionally ["WITH", "CHECK"] grammar.condition

/-- Takes a policy after the word that announces it. -/
def policyDefinition : Reader Unit := do
  discard name
  keyword "ON"
  discard path
  optionally ["AS"] (oneOf ["PERMISSIVE", "RESTRICTIVE"])
  optionally ["FOR"] (oneOf ["ALL", "SELECT", "INSERT", "UPDATE", "DELETE"])
  grammar.policyRules

/-! ### Functions and triggers -/

/-- Takes an argument of a function. A type that SQL does not know is the argument's name if another
type follows. -/
def functionArgument : Reader Unit := do
  discard (hasOneOf ["IN", "OUT", "INOUT"])
  match ← dataType grammar.dialect with
  | .custom .. => discard (dataType grammar.dialect)
  | _ => pure ()
  if ← either (hasKeyword "DEFAULT") (hasSymbol "=") then discard grammar.expr

/-- Takes the arguments of a function in parentheses. -/
def functionArguments : Reader Unit := do
  symbol "("
  if ← hasSymbol ")" then return ()
  discard (separated grammar.functionArgument ",")
  symbol ")"

/-- Takes the name of a function, with its arguments if they are told. -/
def functionSignature : Reader Unit := do
  discard path
  if ← nextIsSymbol "(" then grammar.functionArguments

/-- Takes the text of a function. -/
def functionText : Reader Unit := do
  match ← get with
  | .dollars _ :: rest => set rest
  | _ => discard text

/-- What may be told about a function. -/
def functionParts : List Alternatives :=
  let bare (words : List String) : List String × Reader Unit := (words, return ())
  [[(["AS"], functionText), (["RETURN"], discard grammar.expr)],
    [(["LANGUAGE"], discard name)],
    [bare ["IMMUTABLE"], bare ["STABLE"], bare ["VOLATILE"]],
    [bare ["CALLED", "ON", "NULL", "INPUT"], bare ["RETURNS", "NULL", "ON", "NULL", "INPUT"],
      bare ["STRICT"]],
    [(["PARALLEL"], discard (oneOf ["UNSAFE", "RESTRICTED", "SAFE"]))]]

/-- Takes a function after the word that announces it. Only PostgreSQL has functions in SQL. -/
def functionDefinition : Reader Unit := do
  guard (grammar.dialect = .postgresql)
  discard path
  grammar.functionArguments
  optionally ["RETURNS"] (dataType grammar.dialect)
  onceEach grammar.functionParts

/-- Takes an event that a trigger waits for. -/
def triggerEvent : Reader Unit := do
  match ← oneOf ["INSERT", "UPDATE", "DELETE", "TRUNCATE"] with
  | "UPDATE" => optionally ["OF"] (separated name ",")
  | _ => return ()

/-- Takes the events that a trigger waits for, at most `fuel` many. -/
def triggerEventsWithin : (fuel : Nat) → Reader Unit
  | 0 => failure
  | fuel + 1 => do
    triggerEvent
    if ← hasKeyword "OR" then triggerEventsWithin fuel

/-- Takes a name for the rows before or after an event, if there is one, and tells whether there
was. -/
def transitionTable : Reader Bool := do
  match ← hasOneOf ["OLD", "NEW"] with
  | none => return false
  | some _ =>
    if !(← hasKeyword "TABLE") then return false
    discard (hasKeyword "AS")
    discard path
    return true

/-- Takes a trigger after the words that announce it. -/
def triggerDefinition : Reader Unit := do
  guard (grammar.dialect = .postgresql)
  discard path
  if !(← hasOneOf ["BEFORE", "AFTER"]).isSome then keywords ["INSTEAD", "OF"]
  triggerEventsWithin ((← get).length + 1)
  keyword "ON"
  discard path
  optionally ["FROM"] loosePath
  discard checking
  optionally ["REFERENCING"] (repeatedly transitionTable)
  keyword "FOR"
  discard (hasKeyword "EACH")
  discard (oneOf ["ROW", "STATEMENT"])
  optionally ["WHEN"] grammar.expr
  keyword "EXECUTE"
  discard (oneOf ["FUNCTION", "PROCEDURE"])
  grammar.functionSignature

end Schemata.Sql.Grammar
