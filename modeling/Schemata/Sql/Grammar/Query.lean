import Schemata.Sql.Grammar.Change

/-!
# Queries

A query puts selections and rows of values together, orders what comes out and limits it.

## Main definitions

* `Grammar.wholeBody`: what a query is made of before it is ordered and limited
* `Grammar.wholeQuery`: queries
-/

namespace Schemata.Sql.Grammar

open Reader

variable (grammar : Grammar)

/-! ### Bodies -/

/-- Takes a row of values. In MySQL it may be empty. -/
def row : Reader Expr := do
  if grammar.dialect = .mysql then return .group (← grammar.tuple)
  else return .group (← parenthesized grammar.exprs)

/-- Takes rows of values. If one of them is announced by a keyword, all are written with it. -/
def rows : Reader Expr := do
  let rows ← separated (do return (← hasKeyword "ROW", ← grammar.row)) ","
  let mark := if rows.any Prod.fst then "ROW" else ""
  return .phrase [.verbatim "VALUES", .list (rows.map fun (_, row) => .marked mark row)]

/-- Takes all rows of a table, named with at most one point. Three tokens are gone, whether they
belong to the name or not. -/
def wholeTable : Reader Expr := do
  let tokens := (← get).take 3
  modify (List.drop 3)
  match tokens with
  | [.word scope _, .symbol ".", .word table _] =>
    return .verbatim ("TABLE " ++ scope ++ "." ++ table)
  | _ :: .symbol "." :: _ => failure
  | .word table _ :: _ => return .verbatim ("TABLE " ++ table)
  | _ => failure

/-- Takes the first part of a body. -/
def simpleBody : Reader Expr := do
  if ← nextIsKeyword "SELECT" then grammar.selection
  else if ← nextIsSymbol "(" then return .group [← parenthesized grammar.query]
  else if ← hasKeyword "VALUES" then grammar.rows
  else
    keyword "TABLE"
    wholeTable

/-- The words after a connective that tell which rows to keep. -/
def quantifiers : List (List String) :=
  [["DISTINCT", "BY", "NAME"], ["BY", "NAME"], ["ALL", "BY", "NAME"], ["ALL"], ["DISTINCT"]]

/-- How tight the connectives of bodies bind. -/
def connectives : List (String × Nat) := [("UNION", 10), ("EXCEPT", 10), ("INTERSECT", 20)]

/-- Takes what goes on after a part of a body, at most `fuel` times, as long as it binds tighter
than `bound`. -/
def continueBody (bound : Nat) (left : Expr) : (fuel : Nat) → Reader Expr
  | 0 => failure
  | fuel + 1 => do
    let tokens ← get
    match connectives.find? fun (word, _) => announce [word] tokens with
    | none => return left
    | some (word, tightness) =>
      if tightness ≤ bound then return left
      let tokens := tokens.drop 1
      let quantifier := (quantifiers.find? fun words => announce words tokens).getD []
      set (tokens.drop quantifier.length)
      let words := String.intercalate " " (word :: quantifier)
      continueBody bound (.binary left words (← grammar.bodyAbove tightness)) fuel

/-- Takes a body whose connectives bind tighter than a bound. -/
def wholeBody (bound : Nat) : Reader Expr := do
  let first ← grammar.simpleBody
  grammar.continueBody bound first ((← get).length + 1)

/-! ### Limits -/

/-- A number of rows that are wanted, and a number of rows that are passed over before them. -/
structure Limits where
  /-- How many rows are wanted. -/
  count : Option Expr := none
  /-- How many are passed over, with the word for rows after it. -/
  offset : Option (Expr × List Expr) := none

/-- The written form of the limits, as the parts of a phrase. -/
def Limits.parts (limits : Limits) : List Expr :=
  (limits.count.elim [] fun count => [.verbatim "LIMIT", count])
    ++ limits.offset.elim [] fun (offset, word) => .verbatim "OFFSET" :: offset :: word

/-- Takes the numbers of rows that are not known yet. Where two numbers have a comma between them,
the first is the one of the rows that are passed over. -/
def limitsAfter (limits : Limits) : Reader Limits := do
  let count ← if ← provided limits.count.isNone (hasKeyword "LIMIT") then
      if ← hasKeyword "ALL" then pure none else some <$> grammar.expr
    else pure limits.count
  let offset ← if ← provided limits.offset.isNone (hasKeyword "OFFSET") then
      pure (some (← grammar.expr, ← markOf ["ROW", "ROWS"]))
    else pure limits.offset
  match count, offset with
  | some first, none =>
    if ← provided (grammar.dialect ≠ .postgresql) (hasSymbol ",") then
      return { count := ← grammar.expr, offset := some (first, []) }
    else return { count := some first }
  | count, offset => return { count := count, offset := offset }

/-- Takes how many rows are fetched, if that is told. -/
def fetch : Reader (List Expr) := do
  if !(← hasKeyword "FETCH") then return []
  discard (oneOf ["FIRST", "NEXT"])
  let count ← match ← hasOneOf ["ROW", "ROWS"] with
    | some _ => pure []
    | none =>
      let count ← value
      let percent ← mark ["PERCENT"]
      discard (oneOf ["ROW", "ROWS"])
      pure (count :: percent)
  let last ← if ← hasKeyword "ONLY" then pure "ROWS ONLY"
    else do
      keywords ["WITH", "TIES"]
      pure "ROWS WITH TIES"
  return .verbatim "FETCH FIRST" :: count ++ [.verbatim last]

/-! ### Rows in one value -/

/-- A detail of how rows are put into one value: its first word, the others, and whether a text in
parentheses follows them. -/
structure Detail where
  /-- The first word. -/
  word : String
  /-- The words after it. -/
  more : List String := []
  /-- Whether a text follows. -/
  named : Bool := false

/-- The details of rows in an XML value, in the order in which they are written. -/
def xmlDetails : List Detail :=
  [⟨"BINARY", ["BASE64"], false⟩, ⟨"TYPE", [], false⟩, ⟨"ROOT", [], true⟩, ⟨"ELEMENTS", [], false⟩]

/-- The details of rows in a JSON value, in the order in which they are written. -/
def jsonDetails : List Detail :=
  [⟨"ROOT", [], true⟩, ⟨"INCLUDE_NULL_VALUES", [], false⟩, ⟨"WITHOUT_ARRAY_WRAPPER", [], false⟩]

/-- Takes a text in parentheses; gives its written form with them. -/
def textInParentheses : Reader String := do return "('" ++ (← parenthesized text) ++ "')"

/-- Takes details after commas, at most `fuel` many, each with its first word. There may be a comma
without a detail. -/
def detailsWithin (details : List Detail) : (fuel : Nat) → Reader (List (String × String))
  | 0 => failure
  | fuel + 1 => do
    if !(← hasSymbol ",") then return []
    let word ← hasOneOf (details.map Detail.word)
    match details.find? fun detail => word = some detail.word with
    | none => detailsWithin details fuel
    | some detail =>
      keywords detail.more
      let written := String.intercalate " " (detail.word :: detail.more)
      let text ← if detail.named then textInParentheses else pure ""
      return (detail.word, written ++ text) :: (← detailsWithin details fuel)

/-- Takes details after commas. Of those that are told more than once the last one counts. -/
def details (details : List Detail) : Reader String := do
  let told ← detailsWithin details ((← get).length + 1)
  return String.join <| details.filterMap fun detail =>
    (told.reverse.lookup detail.word).map (", " ++ ·)

/-- Takes how the rows are put into one value after the keyword, if that is told. -/
def folding : Reader (Option Expr) := do
  if ← hasKeyword "XML" then
    let shape ← oneOf ["RAW", "AUTO", "EXPLICIT", "PATH"]
    let named ← provided (shape = "RAW" || shape = "PATH") (nextIsSymbol "(")
    let element ← if named then textInParentheses else pure ""
    return some (.verbatim ("FOR XML " ++ shape ++ element ++ (← details xmlDetails)))
  else if ← hasKeyword "JSON" then
    let shape ← oneOf ["AUTO", "PATH"]
    return some (.verbatim ("FOR JSON " ++ shape ++ (← details jsonDetails)))
  else if ← hasKeyword "BROWSE" then return some (.verbatim "FOR BROWSE")
  else return none

/-! ### Locks -/

/-- Takes how the rows are locked, at most `fuel` times, and how they are put into one value, after
which nothing else is told. -/
def locksWithin : (fuel : Nat) → Reader (List Expr)
  | 0 => failure
  | fuel + 1 => do
    if !(← hasKeyword "FOR") then return []
    if let some folding ← folding then return [folding]
    let strength ← oneOf ["UPDATE", "SHARE"]
    let table ← clause ["OF"] (.name <$> path)
    let nowait ← mark ["NOWAIT"]
    let skip ← if nowait.isEmpty then mark ["SKIP", "LOCKED"] else pure []
    return .verbatim ("FOR " ++ strength) :: table ++ nowait ++ skip ++ (← locksWithin fuel)

/-! ### Queries -/

/-- Takes a query that is given a name for the query after it. -/
def namedQuery : Reader Expr := do
  let name := Expr.name [← name]
  let columns ← if ← nextIsKeyword "AS" then pure [] else grammar.columnNames
  keyword "AS"
  let materialized ← if grammar.dialect ≠ .postgresql then pure []
    else match ← mark ["MATERIALIZED"] with
      | [] => mark ["NOT", "MATERIALIZED"]
      | words => pure words
  let query ← parenthesized grammar.query
  let source ← clause ["FROM"] (do return .name [← Reader.name])
  return .phrase (name :: columns ++ .verbatim "AS" :: materialized ++ .group [query] :: source)

/-- Takes the queries that are given names for the query after them. -/
def namedQueries : Reader (List Expr) := do
  if !(← hasKeyword "WITH") then return []
  let recursive ← mark ["RECURSIVE"]
  return .verbatim "WITH" :: recursive ++ [.list (← separated grammar.namedQuery ",")]

/-- Takes a query. An insertion or an update stands for the rows that it gives back. -/
def wholeQuery : Reader Expr := do
  let named ← grammar.namedQueries
  if ← hasKeyword "INSERT" then return .phrase (named ++ [← grammar.insertion])
  if ← hasKeyword "UPDATE" then return .phrase (named ++ [← grammar.update])
  let body ← grammar.bodyAbove 0
  let order ← clause ["ORDER", "BY"] grammar.orderings
  let limits ← grammar.limitsAfter (← grammar.limitsAfter {})
  let fetch ← fetch
  let locks ← locksWithin ((← get).length + 1)
  return .phrase (named ++ body :: order ++ limits.parts ++ fetch ++ locks)

end Schemata.Sql.Grammar
