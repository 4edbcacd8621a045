import Schemata.Sql.Grammar.Time

/-!
# Calls of functions

A function is called with a list of arguments. A call may go on with words that tell which rows
the function is applied to.

## Main definitions

* `Grammar.arguments`: the arguments of a call
* `Grammar.window`: the rows around a row
* `Grammar.call`: calls
-/

namespace Schemata.Sql.Grammar

open Reader

variable (grammar : Grammar)

/-! ### Arguments -/

/-- Takes names with points between them, and gives them if a star ends them. -/
def starWithin : (fuel : Nat) → Reader (Option (List Name))
  | 0 => failure
  | fuel + 1 => do
    let name ← match ← next with
      | .symbol "*" => return some [⟨"*", none⟩]
      | .word text quote => pure ⟨text, quote⟩
      | .string text '\'' => pure ⟨text, some '\''⟩
      | _ => failure
    if ← hasSymbol "." then return (← starWithin fuel).map (name :: ·) else return none

/-- Takes a star, possibly after names with points, if there is one. After a name and a point there
has to be another name or a star. -/
def star : Reader (Option Expr) := do
  let tokens ← get
  let announced := match tokens with
    | .symbol "*" :: _ | .word .. :: .symbol "." :: _ | .string _ '\'' :: .symbol "." :: _ => true
    | _ => false
  if !announced then return none
  match ← starWithin (tokens.length + 1) with
  | some path => return some (.name path)
  | none =>
    set tokens
    return none

/-- Takes a star or an expression. -/
def starOrExpr : Reader Expr := do
  match ← star with
  | some star => return star
  | none => grammar.expr

/-- Takes the mark between the name of an argument and the argument. -/
def argumentMark : Reader String := do
  if ← hasKeyword "VALUE" then return "VALUE"
  else if ← hasSymbol "=>" then return "=>"
  else
    guard (grammar.dialect = .postgresql)
    symbol ":"
    return ":"

/-- Takes the mark after the name of an argument, and the argument. -/
def argumentAfter (name : Expr) : Reader Expr := do
  let mark ← grammar.argumentMark
  return .binary name mark (← grammar.starOrExpr)

/-- Takes an argument, which may be given by name. In PostgreSQL the name may be any expression. -/
def argument : Reader Expr := do
  if grammar.dialect ≠ .postgresql then
    match ← attempt (do grammar.argumentAfter (.name [← name])) with
    | some argument => return argument
    | none => grammar.starOrExpr
  else
    let tokens ← get
    match ← star with
    | some star =>
      let afterStar ← get
      set tokens
      match ← attempt (do grammar.argumentAfter (← grammar.expr)) with
      | some argument => return argument
      | none =>
        set afterStar
        return star
    | none =>
      let expr ← grammar.expr
      return (← attempt (grammar.argumentAfter expr)).getD expr

/-- Takes what to do with a text that gets too long, perhaps with what is put in its place. -/
def overflow : Reader (List Expr) := do
  if !(← hasKeywords ["ON", "OVERFLOW"]) then return []
  if ← hasKeyword "ERROR" then return [.verbatim "ON OVERFLOW ERROR"]
  keyword "TRUNCATE"
  let isText := match ← peek with
    | some (.string _ '\'') | some (.escaped ..) | some (.foreign _) => true
    | some (.literal written) => written.startsWith "N'" || written.startsWith "X'"
    | _ => false
  let filler ← if isText then pure [← grammar.expr] else pure []
  let counted ← oneOf ["WITH", "WITHOUT"]
  keyword "COUNT"
  return .verbatim "ON OVERFLOW TRUNCATE" :: filler ++ [.verbatim (counted ++ " COUNT")]

/-- Takes what a missing value becomes in a JSON value, if that is told. -/
def missingValues : Reader (List Expr) := do
  match ← mark ["ABSENT", "ON", "NULL"] with
  | [] => mark ["NULL", "ON", "NULL"]
  | words => return words

/-- Takes the arguments of a call after the opening parenthesis. The first one may have words
before it, the last one may have words after it. -/
def arguments : Reader (List Expr) := do
  let missing ← missingValues
  if ← hasSymbol ")" then return if missing.isEmpty then [] else [.phrase missing]
  let all ← mark ["ALL"]
  let distinct ← mark ["DISTINCT"]
  guard (all.isEmpty || distinct.isEmpty)
  let arguments ← separated grammar.argument ","
  let order ← clause ["ORDER", "BY"] grammar.orderings
  let limit ← clause ["LIMIT"] grammar.expr
  let separator ← if grammar.dialect = .mysql then clause ["SEPARATOR"] value else pure []
  let overflow ← grammar.overflow
  let missingAfter ← missingValues
  symbol ")"
  return [.phrase (all ++ distinct ++ .list arguments :: missing ++ order ++ limit ++ separator
    ++ overflow ++ missingAfter)]

/-! ### Windows -/

/-- Takes the distance of a row: a text is a span of time. -/
def distance : Reader Expr := do
  if ← hasKeyword "UNBOUNDED" then return .verbatim "UNBOUNDED"
  match ← peek with
  | some (.string _ '\'') => grammar.interval
  | _ => grammar.expr

/-- Takes a bound of the rows around a row. -/
def frameBound : Reader Expr := do
  if ← hasKeywords ["CURRENT", "ROW"] then return .verbatim "CURRENT ROW"
  let distance ← grammar.distance
  return .phrase [distance, .verbatim (← oneOf ["PRECEDING", "FOLLOWING"])]

/-- Takes the rows around a row. -/
def frame : Reader (List Expr) := do
  let unit := Expr.verbatim (← oneOf ["ROWS", "RANGE", "GROUPS"])
  if ← hasKeyword "BETWEEN" then
    let start ← grammar.frameBound
    keyword "AND"
    return [unit, .verbatim "BETWEEN", start, .verbatim "AND", ← grammar.frameBound]
  else return [unit, ← grammar.frameBound]

/-- Takes the rows that a function is applied to together, after the opening parenthesis. -/
def window : Reader Expr := do
  let base ← if (← peek).any Token.isPlainWord then pure [Expr.name [← name]] else pure []
  let partition ← clause ["PARTITION", "BY"] (.list <$> grammar.exprs)
  let order ← clause ["ORDER", "BY"] grammar.orderings
  let frame ← if ← nextIsSymbol ")" then pure [] else grammar.frame
  symbol ")"
  return .group [.phrase (base ++ partition ++ order ++ frame)]

/-! ### Calls -/

/-- Takes whether missing values are passed over, if that is told. -/
def nullTreatment : Reader (List Expr) := do
  match ← hasOneOf ["RESPECT", "IGNORE"] with
  | some word =>
    keyword "NULLS"
    return [.verbatim (word ++ " NULLS")]
  | none => return []

/-- Takes the condition on the rows of a call, if there is one. The words before the condition are
gone even where none follows. -/
def filter : Reader (List Expr) := do
  if grammar.dialect = .mysql then return []
  if !(← hasKeyword "FILTER") then return []
  if !(← hasSymbol "(") then return []
  if !(← hasKeyword "WHERE") then return []
  let condition ← grammar.expr
  symbol ")"
  return [.verbatim "FILTER", .group [.phrase [.verbatim "WHERE", condition]]]

/-- Takes the rest of a call of the function after the opening parenthesis. -/
def call (function : List Name) : Reader Expr := do
  let call := Expr.call function (← grammar.arguments)
  let within ← clause ["WITHIN", "GROUP"] <| parenthesized do
    keywords ["ORDER", "BY"]
    return .group [.phrase [.verbatim "ORDER BY", ← grammar.orderings]]
  let filter ← grammar.filter
  let nulls ← nullTreatment
  let window ← clause ["OVER"] do
    if ← hasSymbol "(" then grammar.window else return .name [← name]
  return .phrase (call :: within ++ filter ++ nulls ++ window)

end Schemata.Sql.Grammar
