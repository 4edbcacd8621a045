import Schemata.Sql.Grammar.JsonTable
import Schemata.Sql.Grammar.Pivot

/-!
# The sources of selections

A selection takes its rows from tables, from other queries and from functions, and joins them.

## Main definitions

* `Grammar.wholeSource`: a single source
* `Grammar.joins`: what is joined to a source
* `Grammar.sources`: all sources of a selection
-/

namespace Schemata.Sql.Grammar

open Reader

variable (grammar : Grammar)

/-! ### Single sources -/

/-- Takes the arguments of a function that gives a table, after the opening parenthesis. -/
def tableArguments : Reader (List Expr) := do
  if ← hasSymbol ")" then return []
  let arguments ← separated grammar.argument ","
  symbol ")"
  return arguments

/-- Takes a query after the opening parenthesis, and its other name. -/
def derived (mark : String) : Reader Expr := do
  let query ← grammar.query
  symbol ")"
  return .phrase (.marked mark (.group [query]) :: (← grammar.tableAlias))

/-- Takes a function or a query that may use the sources before it. -/
def lateral : Reader Expr := do
  if ← hasSymbol "(" then grammar.derived "LATERAL "
  else
    let function ← path
    symbol "("
    let arguments ← grammar.tableArguments
    return .phrase (.marked "LATERAL " (.call function arguments) :: (← grammar.tableAlias))

/-- Takes the rows of lists. -/
def unnested : Reader Expr := do
  let lists ← parenthesized grammar.exprs
  let counted ← mark ["WITH", "ORDINALITY"]
  let named := .known "UNNEST" lists :: counted ++ (← grammar.tableAlias)
  -- The first word of `WITH OFFSET` is gone even without the second.
  let offset ← provided (← hasKeyword "WITH") (hasKeyword "OFFSET")
  if offset then return .phrase (named ++ .verbatim "WITH OFFSET" :: (← columnAlias))
  else return .phrase named

/-- Takes a table, or a function that gives one. -/
def table : Reader Expr := do
  let path ← path
  let partitioned ← provided (grammar.dialect = .mysql) (hasKeyword "PARTITION")
  let table ← if partitioned then do
      pure (.followed (.name path) ("PARTITION " ++ (Expr.names (← names)).render))
    else pure (Expr.name path)
  let called ← hasSymbol "("
  let table ← if called then
      pure (.followed table (Expr.group (← grammar.tableArguments)).render)
    else pure table
  let counted ← mark ["WITH", "ORDINALITY"]
  let other ← grammar.tableAlias
  let hinted := announce ["WITH"] (← get) && (← get)[1]? = some (.symbol "(")
  let hints ← if hinted then clause ["WITH"] (.group <$> parenthesized grammar.exprs) else pure []
  return .phrase (table :: counted ++ other ++ hints ++ (← grammar.turns))

/-! ### Joins -/

/-- The words of the joins that can have a condition, with their written form. -/
def joinForms : List (List String × String) :=
  [(["INNER", "JOIN"], "JOIN"), (["JOIN"], "JOIN"),
    (["LEFT", "OUTER", "JOIN"], "LEFT JOIN"), (["LEFT", "SEMI", "JOIN"], "LEFT SEMI JOIN"),
    (["LEFT", "ANTI", "JOIN"], "LEFT ANTI JOIN"), (["LEFT", "JOIN"], "LEFT JOIN"),
    (["RIGHT", "OUTER", "JOIN"], "RIGHT JOIN"), (["RIGHT", "SEMI", "JOIN"], "RIGHT SEMI JOIN"),
    (["RIGHT", "ANTI", "JOIN"], "RIGHT ANTI JOIN"), (["RIGHT", "JOIN"], "RIGHT JOIN"),
    (["FULL", "OUTER", "JOIN"], "FULL JOIN"), (["FULL", "JOIN"], "FULL JOIN"),
    (["SEMI", "JOIN"], "SEMI JOIN"), (["ANTI", "JOIN"], "ANTI JOIN")]

/-- The words of the joins that have no condition. -/
def crossForms : List (List String) := [["CROSS", "JOIN"], ["CROSS", "APPLY"], ["OUTER", "APPLY"]]

/-- The keywords that begin a join and cannot be anything else. -/
def joinWords : List String :=
  ["CROSS", "OUTER", "ASOF", "INNER", "JOIN", "LEFT", "RIGHT", "FULL", "SEMI", "ANTI"]

/-- Takes the condition of a join, if it has one; gives the parts of a phrase. -/
def joinCondition : Reader (List Expr) := do
  if ← hasKeyword "USING" then return [.marked "USING" (.names (← names))]
  else clause ["ON"] grammar.expr

/-- Takes a join after the words that may begin any join. -/
def join (natural : Bool) : Reader (List Expr) := do
  let tokens ← get
  if !natural then
    if let some words := crossForms.find? fun words => announce words tokens then
      return ← clause words (Source.written <$> grammar.source)
    if ← hasKeywords ["ASOF", "JOIN"] then
      let source ← grammar.source
      keyword "MATCH_CONDITION"
      let condition ← parenthesized grammar.expr
      return [.verbatim "ASOF JOIN", source.written, .verbatim "MATCH_CONDITION",
        .group [condition]] ++ (← grammar.joinCondition)
  match joinForms.find? fun form => announce form.1 tokens with
  | none => failure
  | some (words, written) =>
    set (tokens.drop words.length)
    let source ← grammar.source
    if natural then return [.verbatim ("NATURAL " ++ written), source.written]
    else return [.verbatim written, source.written] ++ (← grammar.joinCondition)

/-- Takes joins, at most `fuel` many; gives the parts of a phrase. -/
def joinsWithin : (fuel : Nat) → Reader (List Expr)
  | 0 => failure
  | fuel + 1 => do
    let global ← mark ["GLOBAL"]
    let natural ← hasKeyword "NATURAL"
    let next ← peek
    if natural || joinWords.any fun word => next.any (·.isKeyword word) then
      let join ← grammar.join natural
      return global ++ join ++ (← joinsWithin fuel)
    else return []

/-- Takes what is joined to a source; gives the parts of a phrase. -/
def joins : Reader (List Expr) := do grammar.joinsWithin ((← get).length + 1)

/-- Takes a source with what is joined to it. -/
def joined : Reader Expr := do
  let source ← grammar.source
  return .phrase (source.written :: (← grammar.joins))

/-- Takes a query or a join after the opening parenthesis. A single table cannot stand in
parentheses. -/
def enclosedSource : Reader Source := do
  match ← attempt (grammar.derived "") with
  | some derived => return { written := .phrase (derived :: (← grammar.turns)) }
  | none =>
    let source ← grammar.source
    let joins ← grammar.joins
    guard (source.joined || !joins.isEmpty)
    symbol ")"
    let join := Expr.group [.phrase (source.written :: joins)]
    return { written := .phrase (join :: (← grammar.tableAlias)), joined := true }

/-- Takes the keyword of a function, if it is next and a parenthesis follows. -/
def hasFunction (word : String) : Reader Bool := do
  let tokens ← get
  provided (tokens[1]? = some (.symbol "(")) (hasKeyword word)

/-- Takes a single source. -/
def wholeSource : Reader Source := do
  if ← hasKeyword "LATERAL" then return { written := ← grammar.lateral }
  else if ← hasKeyword "TABLE" then
    let table := Expr.known "TABLE" [← parenthesized grammar.expr]
    return { written := .phrase (table :: (← grammar.tableAlias)) }
  else if ← hasSymbol "(" then grammar.enclosedSource
  else if ← provided (grammar.dialect = .postgresql) (hasKeyword "UNNEST") then
    return { written := ← grammar.unnested }
  else if ← hasFunction "JSON_TABLE" then
    let table := Expr.known "JSON_TABLE" [← grammar.jsonTable]
    return { written := .phrase (table :: (← grammar.tableAlias)) }
  else if ← hasFunction "OPENJSON" then
    return { written := .phrase ((← grammar.openedJson) ++ (← grammar.tableAlias)) }
  else return { written := ← grammar.table }

/-- Takes the sources of a selection. -/
def sources : Reader Expr := return .list (← separated grammar.joined ",")

end Schemata.Sql.Grammar
