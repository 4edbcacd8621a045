import Schemata.Sql.Grammar.Operand
import Schemata.Sql.Grammar.Query

/-!
# Nested grammars

What stands inside an expression or a query is read by the same rules, with less room for what
stands inside of it in turn. A grammar is thus given by how deep expressions and queries may still
nest, and by how many of its readers may still call each other.

## Main definitions

* `Grammar.within`: the grammar of a dialect for a depth of nesting
-/

namespace Schemata.Sql.Grammar

/-- The grammar in which expressions and queries are at most `nesting` deep and whose readers call
each other at most `fuel` times. -/
def within (dialect : Dialect) : (fuel : Nat) → (nesting : Nat) → Grammar
  | 0, _ => {
      dialect := dialect
      exprAbove := fun _ => failure
      operand := failure
      query := failure
      bodyAbove := fun _ => failure
      source := failure }
  | fuel + 1, nesting => {
      dialect := dialect
      exprAbove := fun bound =>
        if nesting = 0 then Reader.tooDeep
        else fun tokens => (within dialect fuel (nesting - 1)).expression bound tokens
      operand := fun tokens => (within dialect fuel nesting).wholeOperand tokens
      query :=
        if nesting = 0 then Reader.tooDeep
        else fun tokens => (within dialect fuel (nesting - 1)).wholeQuery tokens
      bodyAbove := fun bound tokens => (within dialect fuel nesting).wholeBody bound tokens
      source := fun tokens => (within dialect fuel nesting).wholeSource tokens }

/-- The grammar for some tokens. No reading of theirs calls as many readers inside each other. -/
def ofSize (dialect : Dialect) (size nesting : Nat) : Grammar :=
  within dialect (4 * size + 8) nesting

end Schemata.Sql.Grammar
