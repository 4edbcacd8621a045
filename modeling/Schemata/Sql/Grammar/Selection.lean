import Schemata.Sql.Grammar.Source

/-!
# Selections

A selection computes items from the rows of its sources.

## Main definitions

* `Grammar.item`, `Grammar.items`: the items of a selection
* `Grammar.grouping`: the rows that go together
* `Grammar.selection`: selections
-/

namespace Schemata.Sql.Grammar

open Reader

variable (grammar : Grammar)

/-! ### Items -/

/-- Whether the expression is the bare keyword of the sources, which shows that an item is
missing. -/
def isMissingItem (item : Expr) : Bool :=
  match item with
  | .name [⟨text, none⟩] => (Token.word text none).isKeyword "FROM"
  | _ => false

/-- Takes an item of a selection: a star, or an expression that may be given a name. -/
def item : Reader Expr := do
  match ← star with
  | some star => return star
  | none =>
    let item ← grammar.expr
    guard !isMissingItem item
    return .phrase (item :: (← columnAlias))

/-- Takes items with commas between them. -/
def items : Reader Expr := return .list (← separated grammar.item ",")

/-- Takes whether equal rows count once, if that is told. The opposite has no written form. -/
def distinctness : Reader (List Expr) := do
  let all ← hasKeyword "ALL"
  if !(← hasKeyword "DISTINCT") then return []
  guard !all
  if !(← hasKeyword "ON") then return [.verbatim "DISTINCT"]
  symbol "("
  let keys ← if ← nextIsSymbol ")" then pure [] else grammar.exprs
  symbol ")"
  return [.verbatim "DISTINCT ON", .group keys]

/-- Takes how many of the first rows are wanted, if that is told before the items. -/
def top : Reader (List Expr) := do
  if !(← hasKeyword "TOP") then return []
  let count ← if ← nextIsSymbol "(" then pure (.group [← parenthesized grammar.expr])
    else pure (.verbatim (← size).repr)
  let percent ← mark ["PERCENT"]
  return [.verbatim "TOP", count] ++ percent ++ (← mark ["WITH", "TIES"])

/-- Takes the table that the rows are put into, if there is one. -/
def into : Reader (List Expr) := do
  if !(← hasKeyword "INTO") then return []
  let temporary ← hasOneOf ["TEMP", "TEMPORARY"]
  let unlogged ← mark ["UNLOGGED"]
  let table ← mark ["TABLE"]
  return .verbatim "INTO" :: temporary.toList.map (fun _ => .verbatim "TEMPORARY") ++ unlogged
    ++ table ++ [.name (← path)]

/-- Takes functions that give several rows for each one, at most `fuel` many, each with names for
what it gives. -/
def lateralViewsWithin : (fuel : Nat) → Reader (List Expr)
  | 0 => failure
  | fuel + 1 => do
    if !(← hasKeywords ["LATERAL", "VIEW"]) then return []
    let outer ← mark ["OUTER"]
    let rows ← grammar.expr
    let view := Expr.name (← path)
    let columns ← separated (otherName ["WHERE", "GROUP", "CLUSTER", "HAVING", "LATERAL"]) ","
    let columns := (columns.filterMap id).map fun column => Expr.name [column]
    let named := if columns.isEmpty then [] else [.verbatim "AS", .list columns]
    return .verbatim "LATERAL VIEW" :: outer ++ [rows, view] ++ named
      ++ (← lateralViewsWithin fuel)

/-! ### Groups -/

/-- Takes expressions in parentheses, of which there may be none. -/
def tuple : Reader (List Expr) := do
  symbol "("
  let elements ← if ← nextIsSymbol ")" then pure [] else grammar.exprs
  symbol ")"
  return elements

/-- Takes a tuple, or a single expression. -/
def tupleOrExpr : Reader Expr := do
  if !(← nextIsSymbol "(") then return ← grammar.expr
  match ← grammar.tuple with
  | [single] => return single
  | elements => return .group elements

/-- Takes a key by which rows go together. Only PostgreSQL has sets of keys. -/
def groupKey : Reader Expr := do
  if grammar.dialect ≠ .postgresql then return ← grammar.expr
  if ← hasKeywords ["GROUPING", "SETS"] then
    let sets ← parenthesized (separated (.group <$> grammar.tuple) ",")
    return .phrase [.verbatim "GROUPING SETS", .group sets]
  match ← hasOneOf ["CUBE", "ROLLUP"] with
  | some word =>
    let sets ← parenthesized (separated grammar.tupleOrExpr ",")
    return .phrase [.verbatim word, .group sets]
  | none =>
    if (← get).take 2 = [.symbol "(", .symbol ")"] then
      modify (List.drop 2)
      return .group []
    else grammar.expr

/-- Takes the keys by which rows go together, if there are some. -/
def grouping : Reader (List Expr) := do
  if !(← hasKeywords ["GROUP", "BY"]) then return []
  let keys ← if ← hasKeyword "ALL" then pure (.verbatim "ALL")
    else Expr.list <$> separated grammar.groupKey ","
  return [.verbatim "GROUP BY", keys]

/-! ### Selections -/

/-- Takes a window that is given a name. -/
def namedWindow : Reader Expr := do
  let name ← name
  keyword "AS"
  symbol "("
  return .binary (.name [name]) "AS" (← grammar.window)

/-- Takes windows with names and a condition on what is computed in windows, in either order. -/
def windows : Reader (List Expr) := do
  let windows := clause ["WINDOW"] (.list <$> separated grammar.namedWindow ",")
  let condition := clause ["QUALIFY"] grammar.expr
  let first ← windows
  if first.isEmpty then return (← condition) ++ (← windows) else return first ++ (← condition)

/-- Takes a selection. -/
def selection : Reader Expr := do
  keyword "SELECT"
  let distinctness ← grammar.distinctness
  let top ← grammar.top
  let items ← grammar.items
  let into ← into
  let sources ← clause ["FROM"] grammar.sources
  let views ← grammar.lateralViewsWithin ((← get).length + 1)
  let condition ← clause ["WHERE"] grammar.expr
  let groups ← grammar.grouping
  let cluster ← clause ["CLUSTER", "BY"] (.list <$> grammar.exprs)
  let distribution ← clause ["DISTRIBUTE", "BY"] (.list <$> grammar.exprs)
  let sort ← clause ["SORT", "BY"] (.list <$> grammar.exprs)
  let having ← clause ["HAVING"] grammar.expr
  let windows ← grammar.windows
  return .phrase (.verbatim "SELECT" :: distinctness ++ top ++ [items] ++ into ++ sources
    ++ views ++ condition ++ groups ++ cluster ++ distribution ++ sort ++ having ++ windows)

end Schemata.Sql.Grammar
