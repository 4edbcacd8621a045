import Schemata.Sql.DataType
import Schemata.Sql.Expr
import Schemata.Sql.Operator

/-!
# Grammars

Expressions and queries contain each other. What can be made of them is told part by part, each
given the readers for what stands inside it; a grammar is such a collection of readers.

## Main definitions

* `Source`: what a selection takes its rows from
* `Grammar`: the readers of a dialect for what stands inside something else
* `Grammar.expr`, `Grammar.exprs`: expressions
* `Grammar.value`: literals
* `Grammar.orderings`: expressions with the order that they are put into
* `Grammar.settings`: settings with their values
-/

namespace Schemata.Sql

/-- What a selection takes its rows from. -/
structure Source where
  /-- The written form. -/
  written : Expr
  /-- Whether it is a join in parentheses. -/
  joined : Bool := false

/-- The readers for what stands inside an expression, a query or a statement. -/
structure Grammar where
  /-- The dialect. -/
  dialect : Dialect
  /-- The expressions whose operators bind tighter than a bound. -/
  exprAbove : Nat → Reader Expr
  /-- The operands of expressions. -/
  operand : Reader Expr
  /-- The queries. -/
  query : Reader Expr
  /-- The queries without what orders and limits their rows, whose connectives bind tighter than a
  bound. -/
  bodyAbove : Nat → Reader Expr
  /-- The single sources of a selection. -/
  source : Reader Source

namespace Grammar

open Reader

variable (grammar : Grammar)

/-- Takes an expression. -/
def expr : Reader Expr := grammar.exprAbove 0

/-- Takes expressions with commas between them. -/
def exprs : Reader (List Expr) := separated grammar.expr ","

/-- Takes an expression whose operators bind tighter than those of a level. -/
def exprTighter (level : Level) : Reader Expr :=
  grammar.exprAbove (level.precedence grammar.dialect)

/-- Whether a query follows. -/
def nextIsQuery : Reader Bool := return (← nextIsKeyword "SELECT") || (← nextIsKeyword "WITH")

/-! ### Parts of phrases -/

/-- Takes the keywords, if they are next; gives the parts of a phrase. -/
def mark (words : List String) : Reader (List Expr) := do
  if ← hasKeywords words then return [.verbatim (String.intercalate " " words)] else return []

/-- Takes one of the keywords, if one of them is next; gives the parts of a phrase. -/
def markOf (words : List String) : Reader (List Expr) :=
  return (← hasOneOf words).toList.map .verbatim

/-- Takes the keywords and what follows them, if they are next; gives the parts of a phrase. -/
def clause (words : List String) (reader : Reader Expr) : Reader (List Expr) := do
  if ← hasKeywords words then
    return [.verbatim (String.intercalate " " words), ← reader]
  else return []

/-! ### Literals -/

/-- Takes a literal. -/
def value : Reader Expr := do
  match ← next with
  | .number digits mark => return .verbatim (digits ++ mark)
  | .string text quote => return .string text quote
  | .escaped _ written | .foreign written | .dollars written | .literal written =>
    return .verbatim written
  | .symbol ":" => return .verbatim (← place ":")
  | .symbol "@" => return .verbatim (← place "@")
  | .word text (some '"') => return .string text '"'
  | .word text none =>
    match (Token.word text none).keyword? with
    | some "TRUE" => return .verbatim "true"
    | some "FALSE" => return .verbatim "false"
    | some "NULL" => return .verbatim "NULL"
    | _ => failure
  | _ => failure

/-! ### Orders -/

/-- Takes an expression with the order that it is put into. -/
def ordering : Reader Expr := do
  let key ← grammar.expr
  let direction ← markOf ["ASC", "DESC"]
  let first ← mark ["NULLS", "FIRST"]
  let last ← if first.isEmpty then mark ["NULLS", "LAST"] else pure []
  return .phrase (key :: direction ++ first ++ last)

/-- Takes expressions with the orders that they are put into. -/
def orderings : Reader Expr := return .list (← separated grammar.ordering ",")

/-! ### Settings -/

/-- Takes a setting with its value. -/
def namedSetting : Reader Unit := do
  discard name
  symbol "="
  discard grammar.expr

/-- Takes settings in parentheses, each with its value. -/
def settings : Reader Unit := discard (parenthesized (separated grammar.namedSetting ","))

end Grammar

end Schemata.Sql
