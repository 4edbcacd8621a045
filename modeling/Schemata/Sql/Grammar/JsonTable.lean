import Schemata.Sql.Grammar

/-!
# Tables of JSON values

A JSON value can be taken apart into rows, whose columns are told by paths into the value.

## Main definitions

* `Grammar.jsonColumns`: the columns of such a table
* `Grammar.jsonTable`, `Grammar.openedJson`: two ways to tell such a table
-/

namespace Schemata.Sql.Grammar

open Reader

variable (grammar : Grammar)

/-- Takes what stands for a value that is not there and for one that does not fit, of each the last
that is told; gives the parts of a phrase, with the value that is not there first. -/
def jsonFallbacksWithin (empty error : List Expr) : (fuel : Nat) → Reader (List Expr)
  | 0 => failure
  | fuel + 1 => do
    let fallback ← match ← hasOneOf ["NULL", "ERROR", "DEFAULT"] with
      | some "DEFAULT" => pure [.verbatim "DEFAULT", ← value]
      | some word => pure [Expr.verbatim word]
      | none => return empty ++ error
    keyword "ON"
    if ← hasKeyword "EMPTY" then
      jsonFallbacksWithin (fallback ++ [.verbatim "ON EMPTY"]) error fuel
    else
      keyword "ERROR"
      jsonFallbacksWithin empty (fallback ++ [.verbatim "ON ERROR"]) fuel

mutual

/-- Takes a column of a table of a JSON value: a path, a number of the row, or further columns. -/
def jsonColumnWithin : (fuel : Nat) → Reader Expr
  | 0 => failure
  | fuel + 1 => do
    if ← hasKeyword "NESTED" then
      discard (hasKeyword "PATH")
      let path ← value
      keyword "COLUMNS"
      return .phrase [.verbatim "NESTED PATH", path, .verbatim "COLUMNS",
        .group (← jsonColumnsWithin fuel)]
    let name := Expr.name [← name]
    if ← hasKeyword "FOR" then
      keyword "ORDINALITY"
      return .phrase [name, .verbatim "FOR ORDINALITY"]
    let type := Expr.verbatim (← dataType grammar.dialect).render
    let tested ← mark ["EXISTS"]
    keyword "PATH"
    let path ← value
    let fallbacks ← jsonFallbacksWithin [] [] ((← get).length + 1)
    return .phrase (name :: type :: tested ++ .verbatim "PATH" :: path :: fallbacks)

/-- Takes columns of a table of a JSON value in parentheses. -/
def jsonColumnsWithin : (fuel : Nat) → Reader (List Expr)
  | 0 => failure
  | fuel + 1 => parenthesized (separated (jsonColumnWithin fuel) ",")

end

/-- Takes the columns of a table of a JSON value in parentheses. -/
def jsonColumns : Reader (List Expr) := do
  grammar.jsonColumnsWithin ((← get).length + 1)

/-- Takes a table of a JSON value after its keyword. -/
def jsonTable : Reader Expr := parenthesized do
  let source ← grammar.expr
  symbol ","
  let path ← value
  keyword "COLUMNS"
  return .list [source, .phrase [path, .marked "COLUMNS" (.group (← grammar.jsonColumns))]]

/-- Takes a column of a JSON value that is opened, perhaps with the path to it. -/
def openedColumn : Reader Expr := do
  let name := Expr.name [← name]
  let type := Expr.verbatim (← dataType grammar.dialect).render
  let path ← match ← attempt plainText with
    | some path => pure [Expr.string path '\'']
    | none => pure []
  let unread ← if ← hasKeyword "AS" then do
      keyword "JSON"
      pure [.verbatim "AS JSON"]
    else pure []
  return .phrase (name :: type :: path ++ unread)

/-- Takes a JSON value that is opened, perhaps with the path into it and its columns, after the
keyword; gives the parts of a phrase. -/
def openedJson : Reader (List Expr) := do
  let opened ← parenthesized do
    let value ← grammar.expr
    if ← hasSymbol "," then return [value, ← Grammar.value] else return [value]
  let columns ← clause ["WITH"] do
    return .group (← parenthesized (separated grammar.openedColumn ","))
  return .known "OPENJSON" opened :: columns

end Schemata.Sql.Grammar
