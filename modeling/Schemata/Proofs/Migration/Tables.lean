import Schemata.Proofs.Migration.Columns

/-!
# Planning the tables of a schema

The turns of the tables, as planning takes them. A turn of a table can fail for two reasons only:
a table is removed whose name gives no leave, or its columns cannot be planned. It looks at the
tables it speaks of and at no others, and those it finds as they are in the schema at the start, so
what it emits and what it makes of them is known from the two schemas alone.

## Main definitions

* `ColumnsPlanned`: the columns of a table can be planned
* `Turn.tableStatements`, `Turn.Planned`, `Turn.outcome?`: the statements of a turn, when it
  succeeds, and the tables under its names after it

## Main results

* `exists_tableSteps_iff`: the tables are planned exactly if the markers are honoured and each turn
  succeeds
* `Planned.of_tableSteps`: the statements and the tables of a plan that succeeds
-/

namespace Schemata

open Changes (Turn turns MarkersHonoured)

/-- The columns of a table can be planned: the markers are honoured, and nothing is removed without
leave. -/
def ColumnsPlanned (config : MigrationConfig) (prev next : OrderedMap Column) : Prop :=
  MarkersHonoured Column.renamedFrom prev next ∧
    ∀ t ∈ turns Column.renamedFrom prev next, t.Permitted config

namespace Changes.Turn

/-- The statements of a turn of a table. -/
def tableStatements : Turn Table → List Statement
  | create name next => Statement.creating name next
  | move source target prev next =>
      .renameTable source target :: Schemata.columnStatements target prev.columns next.columns
  | remove name _ => [.dropTable name]
  | keep name prev next => Schemata.columnStatements name prev.columns next.columns

/-- The turn of a table succeeds. -/
def Planned (config : MigrationConfig) : Turn Table → Prop
  | create _ _ => True
  | move _ _ prev next | keep _ prev next => ColumnsPlanned config prev.columns next.columns
  | remove name _ => config.isDeprecated name = true

/-- The table under one of the names of a turn after it. -/
def outcome? : Turn Table → String → Option Table
  | create _ next, _ => some next.canonical
  | move _ target prev next, name =>
      if target = name then some (alterColumns prev.columns next.columns prev.canonical) else none
  | remove _ _, _ => none
  | keep _ prev next, _ => some (alterColumns prev.columns next.columns prev.canonical)

end Changes.Turn

/-- The statements that take the tables of a schema from one map to the next. -/
def tableStatements (prev next : OrderedMap Table) : List Statement :=
  (turns Table.renamedFrom prev next).flatMap Turn.tableStatements

namespace Plan

variable {config : MigrationConfig} {plan plan' : Plan} {t : Turn Table}
variable {name source target : String} {table : Table}

theorem table?_moveTable (schema : Schema) (h : schema.table? source = some table) :
    (moveTable source target schema).table? name =
      if target = name then some table
      else if source = name then none else schema.table? name := by
  simp only [moveTable, h, Schema.table?_insertTable, Schema.table?_eraseTable]

theorem table?_moveTable_of_ne (schema : Schema) (hsource : source ≠ name)
    (htarget : target ≠ name) :
    (moveTable source target schema).table? name = schema.table? name := by
  unfold moveTable
  split
  · rfl
  · simp [Schema.table?_insertTable, Schema.table?_eraseTable, hsource, htarget]

/-- A turn of a table leads from one plan to another. -/
def TableTurn (config : MigrationConfig) (plan : Plan) (t : Turn Table) (plan' : Plan) : Prop :=
  t.steps.foldlM (tableStep config) plan = .ok plan'

theorem tableTurn_create_iff : TableTurn config plan (.create name table) plan' ↔
    { plan.emit (Statement.creating name table) with
      reached := plan.reached.insertTable name table.canonical } = plan' := by
  simp [TableTurn, Turn.steps, tableStep]

theorem tableTurn_remove_iff : TableTurn config plan (.remove name table) plan' ↔
    config.isDeprecated name = true ∧
      { plan.emit [.dropTable name] with reached := plan.reached.eraseTable name } = plan' := by
  simp only [TableTurn, Turn.steps, List.foldlM_cons, List.foldlM_nil, bind_pure, tableStep,
    bind_eq_ok_iff, exists_and_right, exists_gate_iff]
  simp [pure, Except.pure]

theorem tableTurn_keep_iff {next : Table} : TableTurn config plan (.keep name table next) plan' ↔
    columnSteps config name plan table.columns next.columns = .ok plan' := by
  simp [TableTurn, Turn.steps, tableStep]

theorem tableTurn_move_iff {next : Table} :
    TableTurn config plan (.move source target table next) plan' ↔
      columnSteps config target
        { plan.emit [.renameTable source target] with
          reached := moveTable source target plan.reached }
        table.columns next.columns = .ok plan' := by
  simp [TableTurn, Turn.steps, tableStep, bind_eq_ok_iff]

/-- A turn of a table leaves the tables of other names alone. -/
theorem isLocal_tableTurn :
    IsLocal (fun plan n => plan.reached.table? n) Turn.names (TableTurn config) := by
  intro a t b hturn name hname
  cases t with
  | create n next =>
    have hne : n ≠ name := by simpa [Turn.names, eq_comm] using hname
    simp [← tableTurn_create_iff.1 hturn, Schema.table?_insertTable, hne]
  | move source target prev next =>
    obtain ⟨hsource, htarget⟩ : source ≠ name ∧ target ≠ name := by
      simpa [Turn.names, eq_comm] using hname
    exact (table?_columnSteps_of_ne htarget (tableTurn_move_iff.1 hturn)).trans
      (table?_moveTable_of_ne _ hsource htarget)
  | remove n prev =>
    have hne : n ≠ name := by simpa [Turn.names, eq_comm] using hname
    simp [← (tableTurn_remove_iff.1 hturn).2, Schema.table?_eraseTable, hne]
  | keep n prev next =>
    have hne : n ≠ name := by simpa [Turn.names, eq_comm] using hname
    exact table?_columnSteps_of_ne hne (tableTurn_keep_iff.1 hturn)

variable {prev next : Schema}

/-- The plan has the tables of the schema under the names of a turn. -/
def Finds (plan : Plan) (schema : Schema) (t : Turn Table) : Prop :=
  ∀ n ∈ t.names, plan.reached.table? n = schema.canonical.table? n

theorem Finds.table_eq {n : String} {before : Table} (h : plan.Finds prev t)
    (hn : n ∈ t.names) (hbefore : prev.tables.find? n = some before) :
    plan.reached.table? n = some before.canonical := by
  rw [h n hn, Schema.table?_canonical, Schema.table?, hbefore, Option.map_some]

/-- A turn that finds its tables succeeds exactly if it removes with leave and plans the columns. -/
theorem exists_tableTurn_iff (hfits : t.Fits Table.renamedFrom prev.tables next.tables)
    (hfinds : plan.Finds prev t) : (∃ plan', TableTurn config plan t plan') ↔ t.Planned config := by
  cases t with
  | create n after => simp [tableTurn_create_iff, Turn.Planned]
  | move source target before after =>
    have hbefore := hfinds.table_eq (n := source) (by simp [Turn.names]) hfits.2.2.2
    simp only [tableTurn_move_iff]
    exact exists_columnSteps_iff (by rw [table?_moveTable _ hbefore, if_pos rfl])
  | remove n before => simp [tableTurn_remove_iff, Turn.Planned]
  | keep n before after =>
    have hbefore := hfinds.table_eq (n := n) (by simp [Turn.names]) hfits.2.1
    simp only [tableTurn_keep_iff]
    exact exists_columnSteps_iff hbefore

/-- What a turn that finds its tables emits, and what it makes of them. -/
theorem TableTurn.outcome (hturn : TableTurn config plan t plan')
    (honoured : MarkersHonoured Table.renamedFrom prev.tables next.tables)
    (hfits : t.Fits Table.renamedFrom prev.tables next.tables) (hfinds : plan.Finds prev t) :
    plan'.statements = plan.statements ++ t.tableStatements ∧
      ∀ n ∈ t.names, plan'.reached.table? n = t.outcome? n := by
  cases t with
  | create n after =>
    simp [← tableTurn_create_iff.1 hturn, Turn.tableStatements, Turn.outcome?, Turn.names, emit,
      Schema.table?_insertTable]
  | move source target before after =>
    have hbefore := hfinds.table_eq (n := source) (by simp [Turn.names]) hfits.2.2.2
    have hne : target ≠ source := by
      have hmoves := hfits.moves
      exact (honoured.ne hmoves hfits.1).symm
    have htakes := takes_of_columnSteps (by rw [table?_moveTable _ hbefore, if_pos rfl])
      (tableTurn_move_iff.1 hturn)
    refine ⟨by simp [htakes.statements, Turn.tableStatements, emit], ?_⟩
    intro n hn
    rcases List.mem_cons.1 hn with rfl | hn
    · simp [htakes.reached, Turn.outcome?, hne, table?_moveTable _ hbefore]
    · obtain rfl : n = target := by simpa using hn
      simp [htakes.reached, Turn.outcome?]
  | remove n before =>
    simp [← (tableTurn_remove_iff.1 hturn).2, Turn.tableStatements, Turn.outcome?, Turn.names, emit,
      Schema.table?_eraseTable]
  | keep n before after =>
    have hbefore := hfinds.table_eq (n := n) (by simp [Turn.names]) hfits.2.1
    have htakes := takes_of_columnSteps hbefore (tableTurn_keep_iff.1 hturn)
    simp [htakes.statements, htakes.reached, Turn.tableStatements, Turn.outcome?, Turn.names]

/-- The tables are planned exactly if the markers are honoured and each turn succeeds. -/
theorem exists_tableSteps_iff :
    (∃ plan', tableSteps config ⟨prev.canonical, [], []⟩ prev.tables next.tables = .ok plan') ↔
      MarkersHonoured Table.renamedFrom prev.tables next.tables ∧
        ∀ t ∈ turns Table.renamedFrom prev.tables next.tables, t.Planned config := by
  simp only [tableSteps, follow_eq_ok_iff, exists_and_left]
  refine and_congr_right fun honoured => ?_
  have hind := Changes.independent_turns honoured
  have hturn {t : Turn Table} (ht : t ∈ turns Table.renamedFrom prev.tables next.tables) {a : Plan}
      (hfinds : a.Finds prev t) : (∃ b, TableTurn config a t b) ↔ t.Planned config :=
    exists_tableTurn_iff ((Changes.mem_turns_iff honoured).1 ht) hfinds
  constructor
  · rintro ⟨plan', hrun⟩ t ht
    obtain ⟨a, b, hab, hfinds, -⟩ := Runs.exists_step isLocal_tableTurn hind hrun ht
    exact (hturn ht hfinds).1 ⟨b, hab⟩
  · intro hplanned
    exact exists_runs isLocal_tableTurn hind fun t ht a hfinds =>
      (hturn ht hfinds).2 (hplanned t ht)

/-- What a plan that succeeds has come to: its statements, the tables that a turn speaks of, and
the others. -/
structure Planned (prev next : Schema) (plan : Plan) : Prop where
  markers : MarkersHonoured Table.renamedFrom prev.tables next.tables
  statements : plan.statements = tableStatements prev.tables next.tables
  touched {t : Turn Table} : t ∈ turns Table.renamedFrom prev.tables next.tables →
    ∀ n ∈ t.names, plan.reached.table? n = t.outcome? n
  untouched {n : String} : (∀ t ∈ turns Table.renamedFrom prev.tables next.tables, n ∉ t.names) →
    plan.reached.table? n = prev.canonical.table? n

theorem Planned.of_tableSteps
    (h : tableSteps config ⟨prev.canonical, [], []⟩ prev.tables next.tables = .ok plan) :
    Planned prev next plan := by
  rw [tableSteps, follow_eq_ok_iff] at h
  obtain ⟨honoured, hrun⟩ := h
  have hind := Changes.independent_turns honoured
  have hfits {t : Turn Table} := (Changes.mem_turns_iff (t := t) honoured).1
  refine ⟨honoured, ?_, ?_, ?_⟩
  · have hstart := Runs.of_start isLocal_tableTurn hind hrun
    exact hstart.append_eq (f := Plan.statements) fun a b t ht hab =>
      (TableTurn.outcome hab.1 honoured (hfits ht) hab.2).1
  · intro t ht n hn
    obtain ⟨a, b, hab, hfinds, hend⟩ := Runs.exists_step isLocal_tableTurn hind hrun ht
    exact (hend n hn).trans ((TableTurn.outcome hab honoured (hfits ht) hfinds).2 n hn)
  · intro n hn
    exact Runs.view_eq_of_untouched isLocal_tableTurn hrun hn

end Plan

end Schemata
