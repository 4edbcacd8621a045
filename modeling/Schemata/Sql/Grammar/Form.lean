import Schemata.Sql.Grammar.Call

/-!
# Forms with words of their own

Some words begin a form of their own, such as a cast or a choice.

## Main definitions

* `Grammar.choice`, `Grammar.cast`, `Grammar.substring`: some of the forms
* `Grammar.form?`: the form that a word begins
-/

namespace Schemata.Sql.Grammar

open Reader

variable (grammar : Grammar)

/-! ### Choices and conversions -/

/-- Takes the cases of a choice, each with its result. -/
def casesWithin : (fuel : Nat) → Reader (List Expr)
  | 0 => failure
  | fuel + 1 => do
    if !(← hasKeyword "WHEN") then return []
    let condition ← grammar.expr
    keyword "THEN"
    let result ← grammar.expr
    return [.verbatim "WHEN", condition, .verbatim "THEN", result] ++ (← casesWithin fuel)

/-- Takes a choice after its keyword. -/
def choice : Reader Expr := do
  let subject ← if ← nextIsKeyword "WHEN" then pure [] else pure [← grammar.expr]
  let cases ← grammar.casesWithin ((← get).length + 1)
  guard !cases.isEmpty
  let otherwise ← clause ["ELSE"] grammar.expr
  keyword "END"
  return .phrase (.verbatim "CASE" :: subject ++ cases ++ otherwise ++ [.verbatim "END"])

/-- Takes a cast in parentheses. -/
def cast : Reader Expr := parenthesized do
  let operand ← grammar.expr
  keyword "AS"
  let type := Expr.verbatim (← dataType grammar.dialect).render
  let format ← clause ["FORMAT"] value
  let zone ← if format.isEmpty then pure []
    else clause ["AT", "TIME", "ZONE"] value
  return .phrase ([operand, .verbatim "AS", type] ++ format ++ zone)

/-- Takes the operand and the type of a conversion in parentheses. -/
def conversion : Reader (List Expr) := parenthesized do
  let operand ← grammar.expr
  if ← hasKeyword "USING" then return [.phrase [operand, .verbatim "USING", .name (← path)]]
  symbol ","
  let type := Expr.verbatim (← dataType grammar.dialect).render
  return [operand, .phrase (type :: (← clause ["CHARACTER", "SET"] (.name <$> path)))]

/-- Takes what is rounded to a whole number in parentheses, with the precision. -/
def rounded : Reader (List Expr) := parenthesized do
  let operand ← grammar.expr
  if ← hasKeyword "TO" then return [.phrase [operand, .verbatim "TO", ← grammar.timeField]]
  else if ← hasSymbol "," then
    match ← next with
    | .number digits mark => return [operand, .verbatim (digits ++ mark)]
    | _ => failure
  else return [operand]

/-! ### Texts -/

/-- Takes a text and the bounds of a part of it in parentheses. -/
def substring : Reader (List Expr) := parenthesized do
  let text ← grammar.expr
  -- After a comma the bounds are written with commas, otherwise with keywords.
  if ← hasSymbol "," then
    let start ← grammar.expr
    if ← either (hasKeyword "FOR") (hasSymbol ",") then return [text, start, ← grammar.expr]
    else return [text, start]
  else
    let start ← clause ["FROM"] grammar.expr
    let length ← if ← hasSymbol "," then pure [.verbatim "FOR", ← grammar.expr]
      else clause ["FOR"] grammar.expr
    return [.phrase (text :: start ++ length)]

/-- Takes a text and what is put over a part of it in parentheses. -/
def overlaid : Reader Expr := parenthesized do
  let text ← grammar.expr
  keyword "PLACING"
  let placed ← grammar.expr
  keyword "FROM"
  let start ← grammar.expr
  let length ← clause ["FOR"] grammar.expr
  return .phrase ([text, .verbatim "PLACING", placed, .verbatim "FROM", start] ++ length)

/-- Takes in parentheses what is cut off a text, and the text. A comma after the text has no
meaning. -/
def trimmed : Reader Expr := parenthesized do
  let side ← markOf ["BOTH", "LEADING", "TRAILING"]
  let operand ← grammar.expr
  let rest ← clause ["FROM"] grammar.expr
  if rest.isEmpty then discard (hasSymbol ",")
  return .phrase (side ++ operand :: rest)

/-- Takes a part of a time and what it is taken from in parentheses. -/
def extracted : Reader Expr := parenthesized do
  let field ← grammar.timeField
  keyword "FROM"
  return .binary field "FROM" (← grammar.expr)

/-- Takes a text and the text to find it in in parentheses. -/
def located : Reader Expr := parenthesized do
  let part ← grammar.exprTighter .range
  keyword "IN"
  return .binary part "IN" (← grammar.expr)

/-- Takes the columns that are searched, and what is searched for. -/
def search : Reader Expr := do
  let columns ← names
  keyword "AGAINST"
  let sought ← parenthesized do
    let value ← value
    let natural ← mark ["IN", "NATURAL", "LANGUAGE", "MODE"]
    let boolean ← if natural.isEmpty then mark ["IN", "BOOLEAN", "MODE"] else pure []
    let expanded ← if boolean.isEmpty then mark ["WITH", "QUERY", "EXPANSION"] else pure []
    return Expr.phrase (value :: natural ++ boolean ++ expanded)
  return .phrase
    [.verbatim "MATCH", .names columns, .verbatim "AGAINST", .group [sought]]

/-! ### Lists and queries -/

/-- Takes the elements of a list after the opening bracket. -/
def elements : Reader (List Expr) := do
  if ← hasSymbol "]" then return []
  let elements ← grammar.exprs
  symbol "]"
  return elements

/-- Takes a query in parentheses. -/
def existence : Reader Expr := do return .group [← parenthesized grammar.query]

/-! ### Forms -/

/-- The form that a word begins, given the token after it, if it begins one. -/
def form? (text : String) (keyword : String) (next : Option Token) : Option (Reader Expr) :=
  match keyword with
  | "TRUE" => some (return .verbatim "true")
  | "FALSE" => some (return .verbatim "false")
  | "NULL" => some (return .verbatim "NULL")
  | "NOT" => some do
    if ← hasKeyword "EXISTS" then return .phrase [.verbatim "NOT EXISTS", ← grammar.existence]
    else return .phrase [.verbatim "NOT", ← grammar.exprTighter .negation]
  | "CURRENT_TIMESTAMP" | "CURRENT_TIME" | "CURRENT_DATE" | "LOCALTIME"
  | "LOCALTIMESTAMP" => some do
    if ← hasSymbol "(" then return .call [⟨text, none⟩] (← grammar.arguments)
    else return .verbatim text
  | "CURRENT_CATALOG" | "CURRENT_USER" | "SESSION_USER" | "USER" =>
    if grammar.dialect = .postgresql then some (return .verbatim text) else none
  | "CASE" => some grammar.choice
  | "CAST" | "TRY_CAST" | "SAFE_CAST" => some do return .known keyword [← grammar.cast]
  | "CONVERT" => some do return .known keyword (← grammar.conversion)
  | "CEIL" | "FLOOR" => some do return .known keyword (← grammar.rounded)
  | "SUBSTRING" => some do return .known keyword (← grammar.substring)
  | "OVERLAY" => some do return .known keyword [← grammar.overlaid]
  | "TRIM" => some do return .known keyword [← grammar.trimmed]
  | "EXTRACT" => some do return .known keyword [← grammar.extracted]
  | "POSITION" =>
    if next = some (.symbol "(") then some do
      match ← attempt grammar.located with
      | some located => return .known keyword [located]
      | none =>
        symbol "("
        grammar.call [⟨text, none⟩]
    else none
  | "EXISTS" => some do return .phrase [.verbatim "EXISTS", ← grammar.existence]
  | "INTERVAL" => some grammar.interval
  | "ARRAY" =>
    if next = some (.symbol "[") then some do
      symbol "["
      return .between "ARRAY[" (.list (← grammar.elements)) "]"
    else if next = some (.symbol "(") then some do
      return .call [⟨text, none⟩] [← parenthesized grammar.query]
    else none
  | "MATCH" => if grammar.dialect = .mysql then some search else none
  | _ => none

end Schemata.Sql.Grammar
