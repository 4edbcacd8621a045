import Schemata.Sql.Grammar

/-!
# Other names

A column or a table may be given another name where it is used. The word that announces the name
may be missing, and then most keywords are no such name.

## Main definitions

* `Grammar.otherName`: another name
* `Grammar.columnAlias`, `Grammar.tableAlias`: other names for columns and tables
-/

namespace Schemata.Sql.Grammar

open Reader

variable (grammar : Grammar)

/-- Takes another name, if there is one. Unless it is announced, it is none of the excluded
keywords. -/
def otherName (excluded : List String) : Reader (Option Name) := do
  let announced ← hasKeyword "AS"
  match ← get with
  | .word text quote :: rest =>
    if announced || !excluded.any (Token.word text quote).isKeyword then
      set rest
      return some ⟨text, quote⟩
    else return none
  | .string text quote :: rest =>
    set rest
    return some ⟨text, some quote⟩
  | _ => if announced then failure else return none

/-- Takes another name for a column, if there is one; gives the parts of a phrase. -/
def columnAlias : Reader (List Expr) := do
  match ← otherName columnClauses with
  | some name => return [.verbatim "AS", .name [name]]
  | none => return []

/-- Takes names for columns in parentheses, each perhaps with a type, if there are any; gives the
parts of a phrase. -/
def columnNames : Reader (List Expr) := do
  let column : Reader Expr := do
    let name := Expr.name [← name]
    match ← attempt (dataType grammar.dialect) with
    | some type => return .phrase [name, .verbatim type.render]
    | none => return name
  if ← nextIsSymbol "(" then return [.group (← parenthesized (separated column ","))] else return []

/-- Takes another name for a table, if there is one; gives the parts of a phrase. -/
def tableAlias : Reader (List Expr) := do
  match ← otherName tableClauses with
  | some name => return [.verbatim "AS", .name [name]] ++ (← grammar.columnNames)
  | none => return []

end Schemata.Sql.Grammar
