import Schemata.Sql.Reader

/-!
# Operators in SQL text

What can stand after an operand and go on with the expression, and how tight it binds. The
dialects agree on the order of the everyday operators; PostgreSQL has one level for all operators
that the others know nothing of.

## Main definitions

* `Level`, `Level.precedence`: how tight an operator binds
* `Continuation`: what goes on with an expression
* `Continuation.ofTokens?`: the continuation that tokens announce
-/

namespace Schemata.Sql

/-- A level of operators. -/
inductive Level
  | disjunction
  | conjunction
  | negation
  | other
  | test
  | pattern
  | range
  | comparison
  | bitOr
  | power
  | bitAnd
  | exclusion
  | sum
  | product
  | concatenation
  | zone
  | collation
  | subscript
  | cast
  deriving DecidableEq

/-- How tight the operators of a level bind: the tighter, the higher the number. -/
def Level.precedence (dialect : Dialect) (level : Level) : Nat :=
  let (inPostgresql, elsewhere) := match level with
    | disjunction => (10, 5)
    | conjunction => (20, 10)
    | negation => (30, 15)
    | other => (70, 16)
    | test => (40, 17)
    | pattern => (60, 19)
    | range => (60, 20)
    | comparison => (50, 20)
    | bitOr => (70, 21)
    | power => (100, 22)
    | bitAnd => (70, 23)
    | exclusion => (75, 24)
    | sum => (80, 30)
    | product => (90, 40)
    | concatenation => (70, 40)
    | zone => (110, 41)
    | collation => (120, 50)
    | subscript => (130, 50)
    | cast => (140, 50)
  if dialect = .postgresql then inPostgresql else elsewhere

/-! ### Symbols -/

/-- The symbols that are operators in every dialect. -/
def symbolLevels : List (List String × Level) :=
  [(["=", "==", "<>", "!=", "<", "<=", ">", ">=", "<=>", "~", "~*", "!~", "!~*", "~~", "~~*",
      "!~~", "!~~*"], .comparison),
    (["+", "-"], .sum), (["*", "/", "%"], .product), (["||"], .concatenation), (["|"], .bitOr),
    (["&"], .bitAnd), (["^"], .power), (["::"], .cast),
    (["->", "->>", "#>", "#>>", "@>", "<@", "#-", "@?", "@@", "?", "?&", "?|"], .other)]

/-- The symbols that are operators in PostgreSQL only. -/
def postgresqlSymbols : List String := ["<<", ">>", "#", "&&", "^@", "!"]

/-- The level of a symbol, if it is an operator. -/
def symbolLevel? (dialect : Dialect) (symbol : String) : Option Level :=
  if dialect = .postgresql && postgresqlSymbols.contains symbol then some .other
  else (symbolLevels.find? fun entry => entry.1.contains symbol).map Prod.snd

/-- The written form of a symbol, in which inequality has only one. -/
def writtenInequality (symbol : String) : String := if symbol = "!=" then "<>" else symbol

/-- The written form of a symbol between operands, in which equality has only one too. -/
def writtenSymbol (symbol : String) : String :=
  if symbol = "==" then "=" else writtenInequality symbol

/-- The comparisons that can range over many values, in their written form. -/
def comparisons : List String := ["=", "<>", "<", "<=", ">", ">="]

/-! ### Continuations -/

/-- What goes on with an expression after an operand. -/
inductive Continuation
  /-- An operator, and an operand after it. -/
  | operator (written : String) (level : Level)
  /-- The type that the operand is made. -/
  | cast
  /-- A factorial, after which nothing is left to come. -/
  | factorial
  /-- An operator of PostgreSQL that is given by its name. -/
  | named
  /-- What picks elements of a list. -/
  | subscript
  /-- A time zone. -/
  | zone
  /-- A test for a truth value or for being distinct. -/
  | test
  /-- A comparison with a pattern by the given word. -/
  | pattern (negated : Bool) (word : String)
  /-- Membership in a list. -/
  | inList (negated : Bool)
  /-- Membership in a range. -/
  | between (negated : Bool)
  /-- A word that binds like an operator of the level, but that no operand can follow. -/
  | stray (level : Level)

namespace Continuation

/-- The level of the continuation. -/
def level : Continuation → Level
  | operator _ level => level
  | cast => .cast
  | factorial => .other
  | named => .range
  | subscript => .subscript
  | zone => .zone
  | test => .test
  | pattern .. => .pattern
  | inList _ | between _ => .range
  | stray level => level

/-- The continuation that a keyword announces, perhaps after `NOT`. -/
def ofKeyword? (negated : Bool) (keyword : String) : Option Continuation :=
  match keyword with
  | "IN" => some (inList negated)
  | "BETWEEN" => some (between negated)
  | "LIKE" | "ILIKE" | "RLIKE" | "REGEXP" | "SIMILAR" => some (pattern negated keyword)
  | _ => none

/-- The continuation that tokens announce, if they go on with the expression, and the tokens after
the words that announce it. -/
def ofTokens? (dialect : Dialect) : List Token → Option (Continuation × List Token)
  | [] => none
  | .operator text :: rest => some (operator text .other, rest)
  | .symbol "[" :: rest => some (subscript, rest)
  | .symbol text :: rest => do
    match ← symbolLevel? dialect text with
    | .cast => return (cast, rest)
    | level => return (if text = "!" then factorial else operator (writtenSymbol text) level, rest)
  | token :: rest => do
    match ← token.keyword? with
    | "AND" => return (operator "AND" .conjunction, rest)
    | "OR" => return (operator "OR" .disjunction, rest)
    | "XOR" => return (operator "XOR" .exclusion, rest)
    | "DIV" => return (if dialect = .mysql then operator "DIV" .product else stray .product, rest)
    | "OPERATOR" => return (if dialect = .postgresql then named else stray .range, rest)
    | "COLLATE" => if dialect = .postgresql then return (stray .collation, rest) else none
    | "IS" => return (test, rest)
    | "AT" => if Reader.announce ["TIME", "ZONE"] rest then return (zone, rest.drop 2) else none
    | "NOT" =>
      let next ← rest.head?.bind Token.keyword?
      return (← ofKeyword? true next, rest.drop 1)
    | keyword => return (← ofKeyword? false keyword, rest)

end Continuation

end Schemata.Sql
