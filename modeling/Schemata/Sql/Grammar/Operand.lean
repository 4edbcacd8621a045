import Schemata.Sql.Grammar.Form

/-!
# Operands and what goes on after them

An expression is an operand and what goes on after it. Where the form that a word could begin does
not follow, the word is a name like any other.

## Main definitions

* `Grammar.nameOrCall`: names and calls
* `Grammar.wholeOperand`: operands
* `Grammar.proceed`: an operand with what goes on after it
* `Grammar.expression`: expressions
-/

namespace Schemata.Sql.Grammar

open Reader

variable (grammar : Grammar)

/-! ### Names -/

/-- Takes what qualifies a name after it, at most `fuel` parts. -/
def partsWithin : (fuel : Nat) → Reader (List Name)
  | 0 => failure
  | fuel + 1 => do
    if !(← hasSymbol ".") then return []
    match ← next with
    | .word text quote => return ⟨text, quote⟩ :: (← partsWithin fuel)
    | .string text '\'' => return ⟨text, some '\''⟩ :: (← partsWithin fuel)
    | .symbol "*" =>
      guard (grammar.dialect = .postgresql)
      return [⟨"*", none⟩]
    | _ => failure

/-- Whether a text follows that a name can be the character set of. -/
def nextIsIntroduced : Reader Bool := do
  match ← peek with
  | some (.string ..) => return true
  | some (.literal written) => return written.startsWith "X'"
  | _ => return false

/-- Takes what makes a word a name, a call or the character set of a text. -/
def nameOrCall (first : Name) : Reader Expr := do
  if ← provided (first.text.startsWith "_") nextIsIntroduced then
    return .phrase [.verbatim first.text, ← value]
  let path := first :: (← grammar.partsWithin ((← get).length + 1))
  -- A star ends what could be called.
  if ← provided (path.getLast? ≠ some ⟨"*", none⟩) (hasSymbol "(") then grammar.call path
  else return .name path

/-! ### Operands -/

/-- Takes the collation of an operand, if it has one. -/
def collated (operand : Expr) : Reader Expr := do
  if ← hasKeyword "COLLATE" then return .followed operand (" COLLATE " ++ renderPath (← path))
  else return operand

/-- Takes a text that is given a type before it. -/
def typedText : Reader Expr := do
  match ← dataType grammar.dialect with
  | .custom .. => failure
  | .known "INTERVAL" _ _ => grammar.interval
  | type => return .verbatim (type.render ++ " " ++ quoted '\'' (← text))

/-- The signs before an operand, with the level of what they bind. -/
def signLevel? (symbol : String) : Option Level :=
  let known := ["~", "@", "!!", "|/", "||/"]
  if ["+", "-"].contains symbol then some .product
  else if grammar.dialect = .postgresql && known.contains symbol then some .sum
  else none

/-- Takes what follows an opening parenthesis. -/
def enclosed : Reader Expr := do
  let inner ← if ← nextIsQuery then .subquery <$> grammar.query else .group <$> grammar.exprs
  symbol ")"
  if ← hasSymbol "." then
    match ← next with
    | .word text quote => return .followed inner ("." ++ Name.render ⟨text, quote⟩)
    | _ => failure
  else return inner

/-- Takes a call that is marked as one, after the opening brace. -/
def markedCall : Reader Expr := do
  keyword "FN"
  let function ← path
  symbol "("
  let call ← grammar.call function
  symbol "\x7d"
  return .between "\x7bfn " call "\x7d"

/-- Takes an operand after the symbol that it begins with. -/
def afterSymbol (mark : String) : Reader Expr := do
  match grammar.signLevel? mark with
  | some level => return .marked mark (← grammar.exprTighter level)
  | none =>
    match mark with
    | "(" => grammar.enclosed
    | "[" => return .between "[" (.list (← grammar.elements)) "]"
    | "\x7b" => grammar.markedCall
    | ":" | "@" => return .verbatim (← place mark)
    | _ => failure

/-- Takes the form that a word begins. Where it does not follow, the word is a name, unless it is
reserved, and no collation follows. If nothing is there at all, the fault of the form counts. -/
def formOrName (form : Reader Expr) (first : Name) (reserved : Bool) : Reader Expr := fun tokens =>
  match form tokens with
  | .ok (operand, rest) => collated operand rest
  | .error fault =>
    match reserved, grammar.nameOrCall first tokens with
    | false, .ok result => .ok result
    | _, _ => .error fault

/-- Takes an operand after the word that it begins with. -/
def afterWord (first : Name) (keyword : String) : Reader Expr := do
  match grammar.form? first.text keyword (← peek) with
  | none => collated (← grammar.nameOrCall first)
  | some form => grammar.formOrName form first (reservedWords.contains keyword)

/-- Takes an operand that is not given a type before it. -/
def untypedOperand : Reader Expr := do
  match ← next with
  | .number digits mark => collated (.verbatim (digits ++ mark))
  | .string text quote => collated (.string text quote)
  | .escaped _ written | .dollars written | .literal written => collated (.verbatim written)
  | .symbol mark => collated (← grammar.afterSymbol mark)
  | .operator _ | .foreign _ => failure
  | .word text quote =>
    match (Token.word text quote).keyword? with
    | none => collated (← grammar.nameOrCall ⟨text, quote⟩)
    | some keyword => grammar.afterWord ⟨text, quote⟩ keyword

/-- Takes an operand. -/
def wholeOperand : Reader Expr := do
  match ← attempt grammar.typedText with
  | some typed => return typed
  | none => grammar.untypedOperand

/-! ### Continuations -/

/-- Takes the words of a test and what they need. -/
def test (left : Expr) : Reader Expr := do
  let negation := if ← hasKeyword "NOT" then "NOT " else ""
  match ← hasOneOf ["NULL", "TRUE", "FALSE", "UNKNOWN"] with
  | some value => return .followed left (" IS " ++ negation ++ value)
  | none =>
    keywords ["DISTINCT", "FROM"]
    return .binary left ("IS " ++ negation ++ "DISTINCT FROM") (← grammar.expr)

/-- Takes a pattern after the word that announces it. Before a pattern with an escape character no
blank is written between `ILIKE ANY` and the pattern. -/
def pattern (left : Expr) (negation word : String) : Reader Expr := do
  match word with
  | "RLIKE" | "REGEXP" =>
    if word = "REGEXP" then discard (hasKeyword "RLIKE")
    return .binary left (negation ++ word) (← grammar.exprTighter .pattern)
  | _ =>
    if word = "SIMILAR" then keyword "TO"
    let words := negation ++ (if word = "SIMILAR" then "SIMILAR TO" else word)
    let any ← provided (word ≠ "SIMILAR") (hasKeyword "ANY")
    let pattern ← grammar.exprTighter .pattern
    let words := if any then words ++ " ANY" else words
    if ← hasKeyword "ESCAPE" then
      let escape := " ESCAPE '" ++ (← text) ++ "'"
      if any && word = "ILIKE" then
        return .phrase [left, .between words pattern escape]
      else return .followed (.binary left words pattern) escape
    else return .binary left words pattern

/-- Takes what a comparison ranges over after the word for how many have to satisfy it. -/
def quantified (quantifier : String) (level : Level) : Reader Expr := do
  symbol "("
  let range ← if ← nextIsQuery then do
      -- The query may be the beginning of a longer operand.
      modify fun tokens => .symbol "(" :: tokens
      grammar.exprTighter level
    else do
      let range ← grammar.exprTighter level
      symbol ")"
      pure range
  match range with
  | .subquery query => return .known quantifier [query]
  | range => return .known quantifier [range]

/-- Takes the second operand of an operator, or for a comparison what it ranges over. A whole
division takes all that follows it. -/
def secondOperand (written : String) (level : Level) : Reader Expr := do
  if written = "DIV" then return ← grammar.expr
  match ← hasOneOf ["ANY", "ALL", "SOME"] with
  | some quantifier =>
    let range ← grammar.quantified quantifier level
    guard (comparisons.contains written)
    return range
  | none => grammar.exprTighter level

/-- Takes the name of an operator in parentheses, at most `fuel` parts. A part is any token. -/
def operatorNameWithin : (fuel : Nat) → Reader (List String)
  | 0 => failure
  | fuel + 1 => do
    let part := writtenInequality (← next).bare
    if ← hasSymbol "." then return part :: (← operatorNameWithin fuel) else return [part]

/-- Takes what is picked from a list after the opening bracket: an element, or in PostgreSQL perhaps
the elements between two bounds, of which either may be missing, with the width of the steps. -/
def subscript : Reader String := do
  let slices := grammar.dialect = .postgresql
  let lower ← if slices && (← nextIsSymbol ":") then pure "" else Expr.render <$> grammar.expr
  if !slices then
    symbol "]"
    return lower
  if ← hasSymbol "]" then return lower
  symbol ":"
  if ← hasSymbol "]" then return lower ++ ":"
  let bounds := lower ++ ":" ++ (← grammar.expr).render
  if ← hasSymbol "]" then return bounds
  symbol ":"
  if ← hasSymbol "]" then return bounds
  let stride ← grammar.expr
  symbol "]"
  return bounds ++ ":" ++ stride.render

/-- Takes what an operand is looked for in: a query, a list that is a value itself, or a list in
parentheses, which only in SQLite may be empty. -/
def collection : Reader Expr := do
  if ← hasKeyword "UNNEST" then return .known "UNNEST" [← parenthesized grammar.expr]
  symbol "("
  let elements ← if ← nextIsQuery then pure [← grammar.query]
    else if grammar.dialect = .sqlite && (← nextIsSymbol ")") then pure []
    else grammar.exprs
  symbol ")"
  return .group elements

/-- Takes what goes on with an expression after what announces it. -/
def proceed (left : Expr) (continuation : Continuation) : Reader Expr := do
  let negation (negated : Bool) := if negated then "NOT " else ""
  match continuation with
  | .operator written level => return .binary left written (← grammar.secondOperand written level)
  | .cast => return .followed left ("::" ++ (← dataType grammar.dialect).render)
  | .factorial => return .followed left "!"
  | .named =>
    let parts ← parenthesized (do operatorNameWithin ((← get).length + 1))
    let written := "OPERATOR(" ++ String.intercalate "." parts ++ ")"
    return .binary left written (← grammar.secondOperand written .range)
  | .subscript => return .followed left ("[" ++ (← grammar.subscript) ++ "]")
  | .zone => return .binary left "AT TIME ZONE" (← grammar.exprTighter .zone)
  | .test => grammar.test left
  | .pattern negated word => grammar.pattern left (negation negated) word
  | .inList negated => return .binary left (negation negated ++ "IN") (← grammar.collection)
  | .between negated =>
    let low ← grammar.exprTighter .range
    keyword "AND"
    let high ← grammar.exprTighter .range
    return .phrase
      [left, .verbatim (negation negated ++ "BETWEEN"), low, .verbatim "AND", high]
  | .stray _ => failure

/-- Takes what goes on after an operand, at most `fuel` times, as long as it binds tighter than
`bound`. -/
def continueWithin (bound : Nat) (left : Expr) : (fuel : Nat) → Reader Expr
  | 0 => failure
  | fuel + 1 => do
    match Continuation.ofTokens? grammar.dialect (← get) with
    | none => return left
    | some (continuation, rest) =>
      if continuation.level.precedence grammar.dialect ≤ bound then return left
      else
        set rest
        continueWithin bound (← grammar.proceed left continuation) fuel

/-- Takes an expression whose operators bind tighter than a bound. -/
def expression (bound : Nat) : Reader Expr := do
  let first ← grammar.operand
  grammar.continueWithin bound first ((← get).length + 1)

end Schemata.Sql.Grammar
