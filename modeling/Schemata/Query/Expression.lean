import Schemata.Query.Literal

/-!
# Expressions

An expression is put together from SQL text, columns of table instances and literal values. What
the text means is not looked into.

## Main definitions

* `Leaf`: a column of a table instance
* `Expression`: a sequence of parts
* `Expression.raw`, `Expression.binary`, `Expression.equals`: the usual expressions
* `Expression.render`: the SQL text
-/

namespace Schemata

/-- A column of a table instance. -/
structure Leaf where
  /-- The alias of the table instance. -/
  instanceAlias : String
  /-- The column. -/
  column : String
  deriving DecidableEq

/-- The SQL text of the column. -/
def Leaf.render (leaf : Leaf) : String := leaf.instanceAlias ++ "." ++ leaf.column

/-- A part of an expression. -/
inductive Part
  /-- SQL text, written as it is. -/
  | sql (text : String)
  /-- A column of a table instance. -/
  | column (leaf : Leaf)
  /-- A value. -/
  | value (literal : Literal)

/-- The SQL text of the part. -/
def Part.render : Part → String
  | sql text => text
  | column leaf => leaf.render
  | value literal => literal.render

/-- An expression. -/
structure Expression where
  /-- The parts in order. -/
  parts : List Part := []

namespace Expression

/-- The expression of one piece of SQL text. -/
def raw (sql : String) : Expression := ⟨[.sql sql]⟩

/-- Two parts with an operator between them. -/
def binary (left : Part) (operator : String) (right : Part) : Expression :=
  ⟨[left, .sql (" " ++ operator ++ " "), right]⟩

/-- The equation of two parts. -/
def equals (left right : Part) : Expression := binary left "=" right

/-- The SQL text of the expression: its parts one after the other. -/
def render (expr : Expression) : String := String.join (expr.parts.map Part.render)

theorem render_append (xs ys : List Part) :
    (Expression.mk (xs ++ ys)).render = (Expression.mk xs).render ++ (Expression.mk ys).render := by
  apply String.toList_inj.1
  simp [render]

end Expression

end Schemata
