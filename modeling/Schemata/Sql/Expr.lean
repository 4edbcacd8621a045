import Schemata.Sql.Reader

/-!
# Expressions in SQL text

The expressions of defaults and checks, with the queries inside them. An expression is kept as it
is written: parentheses stay where they were, so rendering needs no precedence, and every word or
operator that joins two parts has one blank at each side.

## Main definitions

* `Expr`: the expressions
* `Expr.render`: the written form
-/

namespace Schemata.Sql

/-- An expression of SQL text. -/
inductive Expr
  /-- A literal, a keyword or an operator, in its written form. -/
  | verbatim (text : String)
  /-- A string. -/
  | string (text : String) (quote : Char)
  /-- A name, possibly qualified. -/
  | name (path : List Name)
  /-- A call of a function. -/
  | call (path : List Name) (arguments : List Expr)
  /-- A mark right before an operand. -/
  | marked (mark : String) (operand : Expr)
  /-- A mark right after an operand. -/
  | followed (operand : Expr) (mark : String)
  /-- Parts with words or operators between them. -/
  | phrase (parts : List Expr)
  /-- Expressions with commas between them. -/
  | list (elements : List Expr)
  /-- Expressions in parentheses. -/
  | group (elements : List Expr)
  /-- A query in parentheses that is an operand. -/
  | subquery (query : Expr)

mutual

/-- The written form of an expression. -/
def Expr.render : Expr → String
  | .verbatim text => text
  | .string text quote => quoted quote text
  | .name path => renderPath path
  | .call path arguments =>
    renderPath path ++ "(" ++ String.intercalate ", " (renderAll arguments) ++ ")"
  | .marked mark operand => mark ++ operand.render
  | .followed operand mark => operand.render ++ mark
  | .phrase parts => String.intercalate " " (renderAll parts)
  | .list elements => String.intercalate ", " (renderAll elements)
  | .group elements => "(" ++ String.intercalate ", " (renderAll elements) ++ ")"
  | .subquery query => "(" ++ query.render ++ ")"

/-- The written forms of expressions. -/
def renderAll : List Expr → List String
  | [] => []
  | e :: rest => e.render :: renderAll rest

end

/-- Two operands with an operator or words between them. -/
def Expr.binary (left : Expr) (operator : String) (right : Expr) : Expr :=
  .phrase [left, .verbatim operator, right]

/-- A call of a function that SQL knows, which is written in upper case. -/
def Expr.known (function : String) (arguments : List Expr) : Expr :=
  .call [⟨function, none⟩] arguments

/-- Names in parentheses. -/
def Expr.names (names : List Name) : Expr := .group (names.map fun name => .name [name])

/-- Words, an expression, and words. -/
def Expr.between (before : String) (inner : Expr) (after : String) : Expr :=
  .followed (.marked before inner) after

end Schemata.Sql
