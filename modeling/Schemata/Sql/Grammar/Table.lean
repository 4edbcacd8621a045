import Schemata.Sql.Grammar.ColumnOption
import Schemata.Sql.Grammar.Files

/-!
# Tables

Of a table only its name and its columns are kept. What else its definition holds has to be
well-formed.

## Main definitions

* `ColumnDefinition`, `TableDefinition`: what is kept of a table
* `Grammar.columnDefinition`, `Grammar.tableConstraint`: the elements of a table
* `Grammar.tableDefinition`: the reader of a table
-/

namespace Schemata.Sql

/-- The definition of a column. In SQLite it may lack a type. -/
structure ColumnDefinition where
  /-- The name. -/
  name : String
  /-- The type. -/
  type : Option DataType
  /-- What follows the type. -/
  options : List NamedOption

/-- The definition of a table. -/
structure TableDefinition where
  /-- The name, with those that qualify it before it. -/
  path : List Name
  /-- The columns in order. -/
  columns : List ColumnDefinition

/-- The last part of the table's name. -/
def TableDefinition.name (table : TableDefinition) : String :=
  (table.path.getLast?.map Name.text).getD ""

namespace Grammar

open Reader

variable (grammar : Grammar)

/-! ### Columns -/

/-- The keywords that show, right after a column's name, that the column has no type. -/
def optionKeywords : List String :=
  ["CONSTRAINT", "PRIMARY", "NOT", "UNIQUE", "CHECK", "DEFAULT", "COLLATE", "REFERENCES",
    "GENERATED", "AS"]

/-- Whether the next token shows that a column has no type. -/
def lacksType : Reader Bool := do
  if grammar.dialect ≠ .sqlite then return false
  match ← peek with
  -- Any other word is taken for a type, `NULL` and the counting keywords among them.
  | some (.word text quote) => return optionKeywords.any (Token.word text quote).isKeyword
  | _ => return true

/-- Takes the definition of a column. -/
def columnDefinition : Reader ColumnDefinition := do
  let name ← name
  let type ← if ← grammar.lacksType then pure none else some <$> dataType grammar.dialect
  return ⟨name.text, type, ← grammar.columnOptions⟩

/-! ### Constraints -/

/-- Takes a name, if one is next. -/
def optionalName : Reader Unit := discard (attempt name)

/-- Takes how an index is kept, if that is told, and tells whether it was. -/
def indexMethod : Reader Bool := follow ["USING"] (oneOf ["BTREE", "HASH"])

/-- Takes an option of an index, if there is one, and tells whether there was. -/
def indexOption : Reader Bool := do
  if ← indexMethod then return true else follow ["COMMENT"] text

/-- Takes the rest of a constraint on a list of columns, which may have a name of its own. -/
def keyColumns : Reader Unit := do
  optionalName
  discard indexMethod
  discard names
  repeatedly indexOption
  discard checking

/-- Takes whether missing values count as distinct, if that is told. -/
def distinctNulls : Reader Unit := do
  optionally ["NULLS"] do
    discard (hasKeyword "NOT")
    keyword "DISTINCT"

/-- Takes an index among the elements of a table, if there is one, and tells whether there was.
Only MySQL has them there. -/
def tableIndex : Reader Bool := do
  if (← hasOneOf ["KEY", "INDEX"]).isSome then
    -- The method may stand in the place of the name.
    if !(← nextIsKeyword "USING") then optionalName
    discard indexMethod
    discard names
    return true
  else if (← hasOneOf ["FULLTEXT", "SPATIAL"]).isSome then
    discard (hasOneOf ["KEY", "INDEX"])
    optionalName
    discard names
    return true
  else return false

/-- Takes a reference of a table after its keyword. The columns on the other side must be told. -/
def foreignKey : Reader Unit := do
  keyword "KEY"
  discard names
  keyword "REFERENCES"
  discard path
  discard names
  discard referentialActions
  discard checking

/-- Takes a constraint of a table, if there is one, and tells whether there was. -/
def tableConstraint : Reader Bool := do
  -- A name without a constraint after it is a fault, so a column cannot be called `constraint`.
  let named ← follow ["CONSTRAINT"] name
  if ← hasKeyword "UNIQUE" then
    let announced ← hasOneOf ["KEY", "INDEX"]
    guard (announced.isNone || grammar.dialect = .mysql)
    distinctNulls
    keyColumns
    return true
  else if ← hasKeyword "PRIMARY" then
    keyword "KEY"
    keyColumns
    return true
  else if ← hasKeyword "FOREIGN" then
    foreignKey
    return true
  else if ← hasKeyword "CHECK" then
    discard grammar.condition
    return true
  else if named then failure
  else if grammar.dialect = .mysql then tableIndex
  else return false

/-! ### Elements -/

/-- Takes an element of the list of a table: a constraint, which is passed over, or a column. -/
def tableElement : Reader (Option ColumnDefinition) := do
  if ← grammar.tableConstraint then return none
  match ← peek with
  | some (.word ..) => some <$> grammar.columnDefinition
  | _ => failure

/-- Takes the list of a table, which may be empty or missing. -/
def tableElements : Reader (List ColumnDefinition) := do
  if !(← hasSymbol "(") then return []
  if ← hasSymbol ")" then return []
  let elements ← separated grammar.tableElement ","
  symbol ")"
  return elements.filterMap id

/-! ### Settings -/

/-- Takes a word as the value of a setting. -/
def settingWord : Reader Unit := do
  match ← next with
  | .word .. => return ()
  | _ => failure

/-- Takes a setting of a table after its keywords, if they are next. -/
def setting {α : Type} (words : List String) (sign : Bool) (value : Reader α) : Reader Unit :=
  optionally words do
    if sign then symbol "=" else discard (hasSymbol "=")
    value

/-- Takes another table that the table is like, if there is one. -/
def template (words : List String) : Reader Unit := do
  if (← hasOneOf words).isSome then loosePath

/-- Takes what an order of the table's rows is made of. -/
def storedOrder : Reader Unit := do
  if ← hasSymbol "(" then
    if ← hasSymbol ")" then return ()
    discard grammar.exprs
    symbol ")"
  else discard grammar.expr

/-- Takes what becomes of the rows at the end of a transaction. -/
def onCommit : Reader Unit := do
  if ← hasKeywords ["DELETE", "ROWS"] then return ()
  else if ← hasKeywords ["PRESERVE", "ROWS"] then return ()
  else keyword "DROP"

/-- Takes what follows the list of a table. -/
def tableSettings : Reader Unit := do
  discard (hasKeywords ["WITHOUT", "ROWID"])
  optionally ["PARTITIONED", "BY"] (parenthesized (separated grammar.columnDefinition ","))
  repeatedly grammar.fileSetting
  optionally ["WITH"] grammar.settings
  optionally ["TBLPROPERTIES"] grammar.settings
  setting ["ENGINE"] true do
    settingWord
    if ← nextIsSymbol "(" then discard names
  setting ["AUTO_INCREMENT"] false (numberBelow (Nat.pow 2 32))
  optionally ["ORDER", "BY"] grammar.storedOrder
  if grammar.dialect = .postgresql then optionally ["PARTITION", "BY"] grammar.expr
  setting ["DEFAULT", "CHARSET"] true settingWord
  setting ["COLLATE"] true settingWord
  optionally ["ON", "COMMIT"] onCommit
  discard (hasKeyword "STRICT")
  setting ["COMMENT"] false plainText
  if ← hasKeyword "AS" then discard grammar.query
  else if grammar.dialect = .mysql && (← nextIsKeyword "SELECT") then discard grammar.query

/-! ### Tables -/

/-- Takes a table after the words that announce it. -/
def tableDefinition : Reader TableDefinition := do
  discard (hasKeywords ["IF", "NOT", "EXISTS"])
  let path ← path
  optionally ["ON", "CLUSTER"] name
  template ["LIKE", "ILIKE"]
  template ["CLONE"]
  let columns ← grammar.tableElements
  grammar.tableSettings
  return ⟨path, columns⟩

/-- Takes a table that is kept in files, after the words that announce it. -/
def externalTable : Reader TableDefinition := do
  discard (hasKeywords ["IF", "NOT", "EXISTS"])
  let path ← path
  let columns ← grammar.tableElements
  optionally ["PARTITIONED", "BY"] (parenthesized (separated grammar.columnDefinition ","))
  repeatedly grammar.fileSetting
  optionally ["TBLPROPERTIES"] grammar.settings
  return ⟨path, columns⟩

end Grammar

end Schemata.Sql
