import Schemata.Query.Program

/-!
# Steps that succeed

What a step can do is said here once for each kind of step: what it looks up, whether it enters an
instance and takes steps in there, and what it makes of the selection. Each statement is an
equivalence, so a step that is known to succeed can be taken apart by it, and one whose look-ups are
known to succeed can be put together.

## Main results

* `Build.run_bind_eq_ok_iff`, `Build.run_enter_eq_ok_iff`: computations of builds that succeed
* `Step.run_column_eq_ok_iff` and those after it: the steps
* `Step.runAll_cons_eq_ok_iff`: steps one after the other
-/

namespace Schemata

/-! ### Computations of builds -/

namespace Build

variable {α β : Type} {state state' : BuildState}

theorem run_bind_eq_ok_iff {x : Build α} {f : α → Build β} {b : β} :
    (x >>= f).run.run state = (.ok b, state') ↔
      ∃ a middle, x.run.run state = (.ok a, middle) ∧ (f a).run.run middle = (.ok b, state') := by
  change ExceptT.bindCont f (x.run.run state).1 (x.run.run state).2 = _ ↔ _
  cases x.run.run state with
  | mk result middle =>
    cases result with
    | error e =>
      constructor
      · intro h
        cases h
      · rintro ⟨a, _, h, -⟩
        cases h
    | ok a =>
      constructor
      · intro h
        exact ⟨a, middle, rfl, h⟩
      · rintro ⟨_, _, h, hrest⟩
        cases h
        exact hrest

theorem run_pure_eq_ok_iff {a b : α} :
    (pure a : Build α).run.run state = (.ok b, state') ↔ a = b ∧ state = state' := by
  change (Except.ok a, state) = _ ↔ _
  simp

/-- A look-up that fails ends the building; it leaves the state alone in any case. -/
theorem run_lift_bind_eq_ok_iff {e : Except QueryError α} {f : α → Build β} {b : β} :
    (liftExcept e >>= f).run.run state = (.ok b, state') ↔
      ∃ a, e = .ok a ∧ (f a).run.run state = (.ok b, state') := by
  rw [run_bind_eq_ok_iff]
  cases e with
  | error e =>
    constructor
    · rintro ⟨a, _, h, -⟩
      cases h
    · rintro ⟨a, h, -⟩
      cases h
  | ok a =>
    constructor
    · rintro ⟨_, _, h, hrest⟩
      cases h
      exact ⟨a, rfl, hrest⟩
    · rintro ⟨_, h, hrest⟩
      cases h
      exact ⟨a, state, rfl, hrest⟩

/-- Entering a table succeeds if the schema has it, and uses one alias up. -/
theorem run_enter_eq_ok_iff {schema : Schema} {name : String} {handle : Handle} :
    (enter schema name).run.run state = (.ok handle, state') ↔
      ∃ table, schema.table? name = some table ∧ handle = ⟨name, table, state.supply.fresh⟩ ∧
        state' = ⟨state.supply.advance, state.entered ++ [handle]⟩ := by
  unfold enter
  cases schema.table? name with
  | none =>
    change (Except.error _, state) = _ ↔ _
    simp
  | some table =>
    change (Except.ok (Handle.mk name table state.supply.fresh), BuildState.mk _ _) = _ ↔ _
    simp only [Prod.mk.injEq, Except.ok.injEq, Option.some.injEq, exists_eq_left']
    constructor
    · rintro ⟨rfl, rfl⟩
      exact ⟨rfl, rfl⟩
    · rintro ⟨rfl, rfl⟩
      exact ⟨rfl, rfl⟩

end Build

/-! ### Steps -/

namespace Step

variable {schema : Schema} {handle : Handle} {outer : List Handle} {before after : Selection}
variable {state state' : BuildState} {field name : String} {levels : Nat} {template : Template}
variable {steps : List Step}

theorem run_column_eq_ok_iff :
    ((Step.column field name levels).run schema handle outer before).run.run state =
        (.ok after, state') ↔
      ∃ leaf, (enclosing handle outer levels).column name = .ok leaf ∧
        before.setField field (.leaf leaf) = after ∧ state = state' := by
  simp only [run, Build.run_lift_bind_eq_ok_iff, Build.run_pure_eq_ok_iff]

theorem run_leaf_eq_ok_iff {fixed : Leaf} :
    ((Step.leaf field fixed).run schema handle outer before).run.run state = (.ok after, state') ↔
      before.setField field (.leaf fixed) = after ∧ state = state' := by
  simp only [run, Build.run_pure_eq_ok_iff]

theorem run_expr_eq_ok_iff :
    ((Step.expr field template).run schema handle outer before).run.run state =
        (.ok after, state') ↔
      ∃ computed, template.resolve handle outer = .ok computed ∧
        before.setField field (.expr computed) = after ∧ state = state' := by
  simp only [run, Build.run_lift_bind_eq_ok_iff, Build.run_pure_eq_ok_iff]

/-- A relation is joined to the instance that it starts from; the steps inside it see that instance
and all those around it. -/
theorem run_relation_eq_ok_iff :
    ((Step.relation field name steps levels).run schema handle outer before).run.run state =
        (.ok after, state') ↔
      ∃ link source, (enclosing handle outer levels).join schema name = .ok (link, source) ∧
        ∃ inner middle, (enter schema link.destination.table).run.run state =
            (.ok inner, middle) ∧
          ∃ related, (runAll schema inner (handle :: outer) (.of inner) steps).run.run middle =
              (.ok related, state') ∧
            before.setField field ((related.joinedBy (.equals (.column source)
              (.column ⟨inner.instanceAlias, link.destination.column⟩))).toNode
                link.cardinality) = after := by
  -- The look-ups first: the rule for all computations would take them for such that change the state.
  simp only [run, Build.run_lift_bind_eq_ok_iff, Prod.exists]
  simp only [Build.run_bind_eq_ok_iff, Build.run_pure_eq_ok_iff, exists_eq_right_right]

/-- A query of its own is joined to nothing; the steps inside it see all instances around it. -/
theorem run_build_eq_ok_iff {cardinality : Cardinality} :
    ((Step.build field name cardinality steps).run schema handle outer before).run.run state =
        (.ok after, state') ↔
      ∃ inner middle, (enter schema name).run.run state = (.ok inner, middle) ∧
        ∃ built, (runAll schema inner (handle :: outer) (.of inner) steps).run.run middle =
            (.ok built, state') ∧
          before.setField field (built.toNode cardinality) = after := by
  simp only [run, Build.run_bind_eq_ok_iff, Build.run_pure_eq_ok_iff, exists_eq_right_right]

theorem run_filter_eq_ok_iff :
    ((Step.filter template).run schema handle outer before).run.run state = (.ok after, state') ↔
      ∃ condition, template.resolve handle outer = .ok condition ∧
        (before.onRows fun rows => { rows with filters := rows.filters ++ [condition] }) = after ∧
          state = state' := by
  simp only [run, Build.run_lift_bind_eq_ok_iff, Build.run_pure_eq_ok_iff]

theorem run_orderBy_eq_ok_iff :
    ((Step.orderBy template).run schema handle outer before).run.run state = (.ok after, state') ↔
      ∃ order, template.resolve handle outer = .ok order ∧
        (before.onRows fun rows => { rows with orderBy := some order }) = after ∧
          state = state' := by
  simp only [run, Build.run_lift_bind_eq_ok_iff, Build.run_pure_eq_ok_iff]

theorem run_groupBy_eq_ok_iff :
    ((Step.groupBy template).run schema handle outer before).run.run state = (.ok after, state') ↔
      ∃ grouping, template.resolve handle outer = .ok grouping ∧
        (before.onRows fun rows => { rows with groupBy := some grouping }) = after ∧
          state = state' := by
  simp only [run, Build.run_lift_bind_eq_ok_iff, Build.run_pure_eq_ok_iff]

theorem run_limit_eq_ok_iff {n : UInt64} :
    ((Step.limit n).run schema handle outer before).run.run state = (.ok after, state') ↔
      (before.onRows fun rows => { rows with limit := some n }) = after ∧ state = state' := by
  simp only [run, Build.run_pure_eq_ok_iff]

theorem runAll_nil_eq_ok_iff :
    (runAll schema handle outer before []).run.run state = (.ok after, state') ↔
      before = after ∧ state = state' := by
  simp only [runAll, Build.run_pure_eq_ok_iff]

theorem runAll_cons_eq_ok_iff {step : Step} {rest : List Step} :
    (runAll schema handle outer before (step :: rest)).run.run state = (.ok after, state') ↔
      ∃ between middle, (step.run schema handle outer before).run.run state =
          (.ok between, middle) ∧
        (runAll schema handle outer between rest).run.run middle = (.ok after, state') := by
  simp only [runAll, Build.run_bind_eq_ok_iff]

end Step

end Schemata
