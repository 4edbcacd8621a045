import Schemata.Query.Aliases
import Schemata.Query.Handle

/-!
# Building queries

A query is built by a *program*: a sequence of steps that are taken inside a table instance and
each add a field or a clause. A step may open a further table instance, by way of a relation or
on its own, and take steps in there; those may look columns up in the instances around them, also
out of a query of its own.

Every instance gets an alias from one supply, in the order in which the instances are entered. The
first step that fails ends the building; what it has taken from the supply is not given back.

## Main definitions

* `Operand`, `Template`: an expression in which columns stand by name
* `Step`, `Program`: the steps, and a query to be built
* `BuildState`, `Build`: the supply and the instances entered, and computations on them
* `enclosing`: the instance that a step looks into
* `Program.build`, `Schema.buildAll`: the building of one query, and of several in a row
-/

namespace Schemata

/-- A part of an expression in which columns may stand by name. -/
inductive Operand
  /-- A part as it is. -/
  | part (part : Part)
  /-- A column of the table instance that lies the given number of levels further out. -/
  | column (name : String) (levels : Nat)

/-- An expression in which columns may stand by name. -/
abbrev Template := List Operand

namespace Template

/-- Two operands with an operator between them. -/
def binary (left : Operand) (operator : String) (right : Operand) : Template :=
  [left, .part (.sql (" " ++ operator ++ " ")), right]

end Template

/-- A step of a program. -/
inductive Step
  /-- Adds a stored column, of the instance that lies the given number of levels further out, as a
  field. -/
  | column (field name : String) (levels : Nat := 0)
  /-- Adds a fixed column as a field. -/
  | leaf (field : String) (leaf : Leaf)
  /-- Adds a computed value as a field. -/
  | expr (field : String) (template : Template)
  /-- Adds the rows that a relation, of the instance that lies the given number of levels further
  out, leads to as a field. -/
  | relation (field name : String) (steps : List Step) (levels : Nat := 0)
  /-- Adds a query of its own as a field, which no join ties to the rows around it. The steps inside
  may look into the instances around it nevertheless. -/
  | build (field table : String) (cardinality : Cardinality) (steps : List Step)
  /-- Adds a condition on the rows. -/
  | filter (template : Template)
  /-- Sets the order of the rows. -/
  | orderBy (template : Template)
  /-- Sets the grouping of the rows. -/
  | groupBy (template : Template)
  /-- Sets the greatest number of rows. -/
  | limit (n : UInt64)

/-- A query to be built: steps in an instance of a table. -/
structure Program where
  /-- The table. -/
  table : String
  /-- The steps. -/
  steps : List Step

/-- The supply of aliases, and the table instances entered so far. -/
structure BuildState where
  /-- The supply. -/
  supply : AliasSupply := {}
  /-- The instances in the order in which they were entered. -/
  entered : List Handle := []
  deriving DecidableEq

/-- A computation that may fail and leaves a state in any case. -/
abbrev Build := ExceptT QueryError (StateM BuildState)

/-- Enters an instance of a table under a fresh alias. -/
def enter (schema : Schema) (tableName : String) : Build Handle := do
  match schema.table? tableName with
  | none => throw (.unknownTable tableName)
  | some table =>
    let state ← get
    let handle : Handle := ⟨tableName, table, state.supply.fresh⟩
    set (⟨state.supply.advance, state.entered ++ [handle]⟩ : BuildState)
    return handle

/-- The instance that lies the given number of levels further out than the innermost, or the
outermost if there are not so many: whatever levels a program has, they are those of instances. -/
def enclosing {α : Type} : (innermost : α) → (outer : List α) → (levels : Nat) → α
  | innermost, [], _ => innermost
  | innermost, _ :: _, 0 => innermost
  | _, next :: outer, levels + 1 => enclosing next outer levels

section Enclosing

variable {α β : Type} {levels : Nat}

theorem enclosing_mem (innermost : α) (outer : List α) (levels : Nat) :
    enclosing innermost outer levels ∈ innermost :: outer := by
  fun_induction enclosing innermost outer levels with
  | case1 | case2 => exact List.mem_cons_self
  | case3 _ next outer levels ih => exact List.mem_cons_of_mem _ ih

theorem enclosing_map (f : α → β) (innermost : α) (outer : List α) (levels : Nat) :
    enclosing (f innermost) (outer.map f) levels = f (enclosing innermost outer levels) := by
  fun_induction enclosing innermost outer levels with
  | case1 | case2 => rfl
  | case3 _ next outer levels ih => exact ih

/-- A level that is reached among the inner ones does not depend on those around them. -/
theorem enclosing_append {innermost : α} {outer : List α} (h : levels ≤ outer.length)
    (around : List α) :
    enclosing innermost (outer ++ around) levels = enclosing innermost outer levels := by
  fun_induction enclosing innermost outer levels with
  | case1 innermost levels =>
    obtain rfl := Nat.le_zero.1 h
    cases around <;> rfl
  | case2 => rfl
  | case3 _ next outer levels ih => exact ih (Nat.le_of_succ_le_succ h)

end Enclosing

/-- The part that an operand stands for inside the given instances. -/
def Operand.resolve (handle : Handle) (outer : List Handle) : Operand → Except QueryError Part
  | .part fixed => .ok fixed
  | .column name levels => return .column (← (enclosing handle outer levels).column name)

/-- The expression that a template stands for inside the given instances. -/
def Template.resolve (handle : Handle) (outer : List Handle) (template : Template) :
    Except QueryError Expression := do
  return ⟨← template.mapM (Operand.resolve handle outer)⟩

namespace Selection

/-- The selection without fields and clauses from an instance. -/
def of (handle : Handle) : Selection :=
  ⟨{ instanceAlias := handle.instanceAlias, table := handle.tableName }, []⟩

/-- The selection with a field; one of the same name is replaced in its place. -/
def setField (selection : Selection) (name : String) (node : Node) : Selection :=
  { selection with fields := Entries.set selection.fields name node }

/-- The selection with other rows. -/
def onRows (selection : Selection) (update : Rows → Rows) : Selection :=
  { selection with rows := update selection.rows }

/-- The selection with a condition in front of all others. -/
def joinedBy (selection : Selection) (condition : Expression) : Selection :=
  selection.onRows fun rows => { rows with filters := condition :: rows.filters }

end Selection

mutual

/-- Takes a step inside the given instances, of which `handle` is the innermost. -/
def Step.run (schema : Schema) (handle : Handle) (outer : List Handle) (selection : Selection) :
    Step → Build Selection
  | .column field name levels => do
    let resolved ← liftExcept ((enclosing handle outer levels).column name)
    return selection.setField field (.leaf resolved)
  | .leaf field fixed => return selection.setField field (.leaf fixed)
  | .expr field template => do
    let computed ← liftExcept (template.resolve handle outer)
    return selection.setField field (.expr computed)
  | .relation field name steps levels => do
    -- The look-up comes before the alias: a relation that is not there uses none up.
    let (link, source) ← liftExcept ((enclosing handle outer levels).join schema name)
    let inner ← enter schema link.destination.table
    let related ← Step.runAll schema inner (handle :: outer) (.of inner) steps
    let target : Leaf := ⟨inner.instanceAlias, link.destination.column⟩
    -- The join condition stands before the conditions that the steps have set.
    let joined := related.joinedBy (.equals (.column source) (.column target))
    return selection.setField field (joined.toNode link.cardinality)
  | .build field table cardinality steps => do
    let inner ← enter schema table
    let built ← Step.runAll schema inner (handle :: outer) (.of inner) steps
    return selection.setField field (built.toNode cardinality)
  | .filter template => do
    let resolved ← liftExcept (template.resolve handle outer)
    return selection.onRows fun rows => { rows with filters := rows.filters ++ [resolved] }
  | .orderBy template => do
    let resolved ← liftExcept (template.resolve handle outer)
    return selection.onRows fun rows => { rows with orderBy := some resolved }
  | .groupBy template => do
    let resolved ← liftExcept (template.resolve handle outer)
    return selection.onRows fun rows => { rows with groupBy := some resolved }
  | .limit n => return selection.onRows fun rows => { rows with limit := some n }

/-- Takes steps one after the other. -/
def Step.runAll (schema : Schema) (handle : Handle) (outer : List Handle) (selection : Selection) :
    List Step → Build Selection
  | [] => return selection
  | step :: rest => do
    let selection ← step.run schema handle outer selection
    Step.runAll schema handle outer selection rest

end

/-- Builds a query on a schema. -/
def Program.build (schema : Schema) (program : Program) : Build Selection := do
  let handle ← enter schema program.table
  Step.runAll schema handle [] (.of handle) program.steps

/-- The outcome of building a query. -/
structure BuildOutcome where
  /-- The query, or why there is none. -/
  result : Except QueryError Selection
  /-- The table instances that were entered, in order. -/
  entered : List Handle

/-- Builds queries one after the other from one supply of aliases, each whatever became of those
before it. -/
def Schema.buildAll (schema : Schema) (supply : AliasSupply) : List Program → List BuildOutcome
  | [] => []
  | program :: rest =>
    let (result, state) := (program.build schema).run.run ⟨supply, []⟩
    ⟨result, state.entered⟩ :: schema.buildAll state.supply rest

end Schemata
