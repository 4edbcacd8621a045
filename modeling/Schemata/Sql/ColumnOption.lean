import Schemata.Sql.Expr

/-!
# Options of column definitions

What may follow the type in the definition of a column, each piece optionally named by
`CONSTRAINT`.

## Main definitions

* `ColumnOption`: the options
* `ColumnOption.render`: the written form
* `Reader.referentialActions`, `Reader.checking`: the readers of what follows a constraint
-/

namespace Schemata.Sql

/-- What happens to a row when the row that it refers to is removed or changed. -/
inductive ReferentialAction
  | cascade
  | restrict
  | setNull
  | setDefault
  | noAction
  deriving DecidableEq

namespace ReferentialAction

/-- The words of the action. -/
def words : ReferentialAction → List String
  | cascade => ["CASCADE"]
  | restrict => ["RESTRICT"]
  | setNull => ["SET", "NULL"]
  | setDefault => ["SET", "DEFAULT"]
  | noAction => ["NO", "ACTION"]

/-- The written form of the action. -/
def render (action : ReferentialAction) : String := String.intercalate " " action.words

end ReferentialAction

/-- The actions of a reference, each optional. -/
structure ReferentialActions where
  /-- On removal. -/
  onDelete : Option ReferentialAction := none
  /-- On change. -/
  onUpdate : Option ReferentialAction := none
  deriving DecidableEq

/-- The written form of the actions, the one on removal first. -/
def ReferentialActions.render (actions : ReferentialActions) : String :=
  (actions.onDelete.elim "" fun action => " ON DELETE " ++ action.render)
    ++ actions.onUpdate.elim "" fun action => " ON UPDATE " ++ action.render

/-- When a constraint is checked, each word optional. -/
structure Checking where
  /-- Whether the check may wait. -/
  deferrable : Option String := none
  /-- Whether it waits at first. -/
  initially : Option String := none
  /-- Whether it takes place at all. -/
  enforced : Option String := none
  deriving DecidableEq

/-- The written form of the words, each with a blank before it. -/
def Checking.render (checking : Checking) : String :=
  let words := [checking.deferrable, checking.initially, checking.enforced].reduceOption
  String.join (words.map (" " ++ ·))

/-- An option of a column. -/
inductive ColumnOption
  | notNull
  | null
  | primaryKey (checking : Checking)
  | unique (checking : Checking)
  | default (value : Expr)
  | check (condition : Expr)
  | references (table : List Name) (columns : List Name) (actions : ReferentialActions)
      (checking : Checking)
  /-- The value that a change of the row gives. -/
  | onUpdate (value : Expr)
  /-- A value computed from the row, with the words around it. -/
  | generated (before : String) (value : Expr) (after : String)
  /-- An option of words alone, such as the keyword by which a database counts up values. -/
  | words (text : String)

/-- The written form of an option. -/
def ColumnOption.render : ColumnOption → String
  | notNull => "NOT NULL"
  | null => "NULL"
  | primaryKey checking => "PRIMARY KEY" ++ checking.render
  | unique checking => "UNIQUE" ++ checking.render
  | .default value => "DEFAULT " ++ value.render
  | check condition => "CHECK (" ++ condition.render ++ ")"
  | references table columns actions checking =>
    "REFERENCES " ++ renderPath table
      ++ (if columns.isEmpty then ""
          else " (" ++ String.intercalate ", " (columns.map Name.render) ++ ")")
      ++ actions.render ++ checking.render
  | onUpdate value => "ON UPDATE " ++ value.render
  | generated before value after => before ++ "(" ++ value.render ++ ")" ++ after
  | words text => text

/-- An option with the name that it is given, if it is given one. -/
structure NamedOption where
  /-- The name. -/
  name : Option Name
  /-- The option. -/
  option : ColumnOption

/-- The written form of an option with its name. -/
def NamedOption.render (named : NamedOption) : String :=
  (named.name.elim "" fun name => "CONSTRAINT " ++ name.render ++ " ") ++ named.option.render

namespace Reader

/-- Takes a referential action. -/
def referentialAction : Reader ReferentialAction := do
  let actions : List ReferentialAction := [.cascade, .restrict, .setNull, .setDefault, .noAction]
  let tokens ← get
  match actions.find? fun action => announce action.words tokens with
  | none => failure
  | some action =>
    set (tokens.drop action.words.length)
    return action

/-- Takes the actions of a reference in any order, each at most once. -/
def referentialActions : Reader ReferentialActions := do
  if ← hasKeywords ["ON", "DELETE"] then
    let onDelete ← referentialAction
    if ← hasKeywords ["ON", "UPDATE"] then return ⟨onDelete, ← referentialAction⟩
    else return ⟨onDelete, none⟩
  else if ← hasKeywords ["ON", "UPDATE"] then
    let onUpdate ← referentialAction
    if ← hasKeywords ["ON", "DELETE"] then return ⟨← referentialAction, onUpdate⟩
    else return ⟨none, onUpdate⟩
  else return {}

/-- Takes the words on when a constraint is checked, at most `fuel` times. Of each kind the second
one is left. -/
def checkingWithin (found : Checking) : (fuel : Nat) → Reader Checking
  | 0 => failure
  | fuel + 1 => do
    let deferrable := provided found.deferrable.isNone
    let enforced := provided found.enforced.isNone
    if ← deferrable (hasKeywords ["NOT", "DEFERRABLE"]) then
      checkingWithin { found with deferrable := "NOT DEFERRABLE" } fuel
    else if ← deferrable (hasKeyword "DEFERRABLE") then
      checkingWithin { found with deferrable := "DEFERRABLE" } fuel
    else if ← provided found.initially.isNone (hasKeyword "INITIALLY") then
      let word ← oneOf ["DEFERRED", "IMMEDIATE"]
      checkingWithin { found with initially := "INITIALLY " ++ word } fuel
    else if ← enforced (hasKeyword "ENFORCED") then
      checkingWithin { found with enforced := "ENFORCED" } fuel
    else if ← enforced (hasKeywords ["NOT", "ENFORCED"]) then
      checkingWithin { found with enforced := "NOT ENFORCED" } fuel
    else return found

/-- Takes the words on when a constraint is checked: three, and the test that there are no more. -/
def checking : Reader Checking := checkingWithin {} 4

end Reader

end Schemata.Sql
