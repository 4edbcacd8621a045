import Schemata.Migration.Plan
import Schemata.Proofs.Migration.Turn

/-!
# Planning the columns of a table

What planning does to a table when its columns go from one map to the next. A turn of a column
emits statements that depend on the turn alone, and changes the table by a function that cannot
fail: the only thing that can is the gate of a removal. So the columns are planned exactly if the
markers are honoured and nothing is removed without leave, and the table that is reached is found
turn by turn.

## Main definitions

* `Turn.columnStatements`, `Turn.alter`, `Turn.Permitted`: the statements of a turn, what it does to
  the table, and the leave it needs
* `columnStatements`, `alterColumns`: the same for all columns of a table
* `Plan.Takes`: a plan with further statements and another table under a name

## Main results

* `exists_columnSteps_iff`: when the columns can be planned, and what is planned then
* `takes_of_columnSteps`: what a successful planning of columns does
* `field?_alterColumns_eq_iff`: when it makes of a table what it has in the next schema
-/

namespace Schemata

open Changes (Turn turns MarkersHonoured)

/-- The field can become another one without a statement: they are equal, or both are virtual. -/
def Field.CanBecome (before after : Field) : Prop :=
  before = after ∨ before.isVirtual = true ∧ after.isVirtual = true

namespace Changes.Turn

/-- The statements of a turn of a column of a table. -/
def columnStatements (table : String) : Turn Column → List Statement
  | create name next => (Plan.addition? table name next.field).getD []
  | move source target prev _ => (Plan.renaming? table source target prev.field).getD []
  | remove name prev => (Plan.removal? table name prev.field).getD []
  | keep _ _ _ => []

/-- A table whose column has changed its contents; only virtual ones can change. -/
def alterContents (name : String) (prev next : Column) (table : Table) : Table :=
  if prev.field = next.field then table
  else if prev.field.isVirtual && next.field.isVirtual then table.insertColumn name next.canonical
  else table

/-- What a turn of a column does to the table. There are no statements for constraints. -/
def alter (table : Table) : Turn Column → Table
  | create name next =>
      if next.field.kind = .constraint then table else table.insertColumn name next.canonical
  | move source target prev next =>
      alterContents target prev next
        (if prev.field.kind = .constraint then table else Plan.moveColumn source target table)
  | remove name prev => if prev.field.kind = .constraint then table else table.eraseColumn name
  | keep name prev next => alterContents name prev next table

/-- A column may be removed if it is virtual or its name says that it is deprecated. -/
def Permitted (config : MigrationConfig) : Turn Column → Prop
  | remove name prev => prev.field.isVirtual = true ∨ config.isDeprecated name = true
  | _ => True

end Changes.Turn

/-- The statements that take the columns of a table from one map to the next. -/
def columnStatements (table : String) (prev next : OrderedMap Column) : List Statement :=
  (turns Column.renamedFrom prev next).flatMap (Turn.columnStatements table)

/-- The table after the turns of its columns. -/
def alterColumns (prev next : OrderedMap Column) (table : Table) : Table :=
  (turns Column.renamedFrom prev next).foldl Turn.alter table

namespace Plan

variable {config : MigrationConfig} {plan plan' plan'' : Plan} {name : String}
variable {table table' : Table} {ss ss' : List Statement}

/-- The second plan has further statements, another table under the name, and all else as the
first. -/
structure Takes (plan plan' : Plan) (ss : List Statement) (name : String) (table : Table) :
    Prop where
  statements : plan'.statements = plan.statements ++ ss
  reached (other : String) :
    plan'.reached.table? other = if name = other then some table else plan.reached.table? other

theorem Takes.table_eq (h : Takes plan plan' ss name table) :
    plan'.reached.table? name = some table := by
  simp [h.reached]

theorem Takes.trans (h : Takes plan plan' ss name table)
    (h' : Takes plan' plan'' ss' name table') : Takes plan plan'' (ss ++ ss') name table' where
  statements := by rw [h'.statements, h.statements, List.append_assoc]
  reached other := by
    rw [h'.reached, h.reached]
    split <;> rfl

theorem Takes.refl (h : plan.reached.table? name = some table) : Takes plan plan [] name table where
  statements := (List.append_nil _).symm
  reached other := by
    split
    · rename_i heq
      exact heq ▸ h
    · rfl

/-- A note is no statement. -/
theorem Takes.remark (h : plan.reached.table? name = some table) (note : Note) :
    Takes plan (plan.remark note) [] name table :=
  ⟨(Takes.refl h).statements, (Takes.refl h).reached⟩

/-- A table that is there can be changed. -/
theorem updateTable_eq_ok (h : plan.reached.table? name = some table) (update : Table → Table) :
    ∃ plan', plan.updateTable name update = .ok plan' ∧
      Takes plan plan' [] name (update table) := by
  refine ⟨{ plan with reached := plan.reached.insertTable name (update table) }, ?_, ?_⟩
  · simp [updateTable, Schema.updateTable?, h]
  · exact ⟨(List.append_nil _).symm, fun other => Schema.table?_insertTable ..⟩

theorem updateTable_emit (h : plan.reached.table? name = some table) (update : Table → Table) :
    ∃ plan', (plan.emit ss).updateTable name update = .ok plan' ∧
      Takes plan plan' ss name (update table) := by
  have hemit : (plan.emit ss).reached.table? name = some table := h
  obtain ⟨plan', hupdate, htakes⟩ := updateTable_eq_ok hemit update
  exact ⟨plan', hupdate, by simpa [emit] using htakes.statements, htakes.reached⟩

theorem exists_gate_iff {qualified : String} :
    (∃ u, gate config name qualified = .ok u) ↔ config.isDeprecated name = true := by
  unfold gate
  split <;> simp_all

/-! ### One turn -/

theorem addition?_eq_none_iff (column : String) (field : Field) :
    addition? name column field = none ↔ field.kind = .constraint := by
  cases field <;> simp [addition?, Field.kind]

theorem renaming?_eq_none_iff (source target : String) (field : Field) :
    renaming? name source target field = none ↔ field.kind = .constraint := by
  cases field <;> simp [renaming?, Field.kind]

theorem removal?_eq_none_iff (column : String) (field : Field) :
    removal? name column field = none ↔ field.kind = .constraint := by
  cases field <;> simp [removal?, Field.kind]

/-- A step emits its statements and changes the table; where there are none it leaves a note. -/
theorem emit_or_remark (h : plan.reached.table? name = some table)
    {outcome : Option (List Statement)} {field : Field}
    (houtcome : outcome = none ↔ field.kind = .constraint) (note : Note)
    (update : Table → Table) :
    ∃ plan', (match outcome with
        | none => Except.ok (plan.remark note)
        | some ss => (plan.emit ss).updateTable name update) = .ok plan' ∧
      Takes plan plan' (outcome.getD []) name
        (if field.kind = .constraint then table else update table) := by
  cases outcome with
  | none =>
    rw [if_pos (houtcome.1 rfl)]
    exact ⟨_, rfl, .remark h note⟩
  | some ss =>
    rw [if_neg fun hkind => by simpa using houtcome.2 hkind]
    exact updateTable_emit h update

/-- The contents of a column are changed without a statement. -/
theorem columnStep_change (config : MigrationConfig)
    (h : plan.reached.table? name = some table) (column : String) (prev next : Column) :
    ∃ plan', columnStep config name plan (.change column prev next) = .ok plan' ∧
      Takes plan plan' [] name (Turn.alterContents column prev next table) := by
  simp only [columnStep, Turn.alterContents]
  split_ifs
  · exact ⟨plan, rfl, .refl h⟩
  · exact updateTable_eq_ok h _
  · exact ⟨_, rfl, .remark h _⟩
  · exact ⟨_, rfl, .remark h _⟩

/-- Removing a column needs leave, and then it is a step like the others. -/
theorem columnStep_remove_iff {column : String} {prev : Column} :
    columnStep config name plan (.remove column prev) = .ok plan' ↔
      (Turn.remove column prev).Permitted config ∧
        (match removal? name column prev.field with
        | none => Except.ok (plan.remark (.constraintDropped ⟨name, column⟩))
        | some ss => (plan.emit ss).updateTable name (·.eraseColumn column)) = .ok plan' := by
  cases hvirtual : prev.field.isVirtual with
  | true =>
    simp only [columnStep, Turn.Permitted, hvirtual, Bool.not_true, Bool.false_eq_true, ↓reduceIte,
      true_or, true_and]
    rfl
  | false =>
    simp only [columnStep, Turn.Permitted, hvirtual, Bool.not_false, ↓reduceIte, bind_eq_ok_iff,
      exists_and_right, exists_gate_iff, Bool.false_eq_true, false_or]
    rfl

/-- A turn that is permitted succeeds: it emits its statements and alters the table. -/
theorem columnTurn_ok {t : Turn Column} (h : plan.reached.table? name = some table)
    (hpermitted : t.Permitted config) :
    ∃ plan', t.steps.foldlM (columnStep config name) plan = .ok plan' ∧
      Takes plan plan' (t.columnStatements name) name (t.alter table) := by
  cases t with
  | create column next =>
    simp only [Turn.steps, List.foldlM_cons, List.foldlM_nil, bind_pure]
    exact emit_or_remark h (addition?_eq_none_iff column next.field) _ _
  | move source target prev next =>
    obtain ⟨middle, hrename, htakes⟩ := emit_or_remark h
      (renaming?_eq_none_iff source target prev.field) (.constraintRenamed ⟨name, source⟩)
      (moveColumn source target)
    -- The contents are changed under the new name, without a statement.
    obtain ⟨plan', hchange, htakes'⟩ := columnStep_change config htakes.table_eq target prev next
    simp only [Turn.steps, List.foldlM_cons, List.foldlM_nil, bind_pure, bind_eq_ok_iff]
    have hall := htakes.trans htakes'
    rw [List.append_nil] at hall
    exact ⟨plan', ⟨middle, hrename, hchange⟩, hall⟩
  | remove column prev =>
    obtain ⟨plan', hstep, htakes⟩ := emit_or_remark h (removal?_eq_none_iff column prev.field)
      (.constraintDropped ⟨name, column⟩) (·.eraseColumn column)
    simp only [Turn.steps, List.foldlM_cons, List.foldlM_nil, bind_pure]
    exact ⟨plan', columnStep_remove_iff.2 ⟨hpermitted, hstep⟩, htakes⟩
  | keep column prev next =>
    simp only [Turn.steps, List.foldlM_cons, List.foldlM_nil, bind_pure]
    exact columnStep_change config h column prev next

/-- A turn that succeeds is permitted. -/
theorem permitted_of_columnTurn {t : Turn Column}
    (h : t.steps.foldlM (columnStep config name) plan = .ok plan') : t.Permitted config := by
  cases t with
  | remove column prev =>
    simp only [Turn.steps, List.foldlM_cons, List.foldlM_nil, bind_pure] at h
    exact (columnStep_remove_iff.1 h).1
  | create _ _ | move _ _ _ _ | keep _ _ _ => trivial

/-! ### All columns -/

/-- The columns are planned exactly if the markers are honoured and each turn succeeds. -/
theorem follow_eq_ok_iff {α : Type} {step : Plan → Change α → Except MigrationError Plan}
    {qualify : String → String} {marker : α → Option String} {prev next : OrderedMap α} :
    follow step qualify plan (.between marker prev next) = .ok plan' ↔
      MarkersHonoured marker prev next ∧
        Runs (fun a t b => t.steps.foldlM step a = .ok b) plan (turns marker prev next) plan' := by
  rw [← runs_foldlM_ok_iff, follow, bind_eq_ok_iff]
  constructor
  · rintro ⟨middle, hsteps, hfault⟩
    cases hbetween : (Changes.between marker prev next).fault with
    | some fault => simp [hbetween] at hfault
    | none =>
      rw [hbetween] at hfault
      obtain rfl : middle = plan' := by simpa [pure, Except.pure] using hfault
      have honoured := Changes.fault_between_eq_none_iff.1 hbetween
      rw [Changes.steps_between honoured, foldlM_flatMap] at hsteps
      exact ⟨honoured, hsteps⟩
  · rintro ⟨honoured, hsteps⟩
    rw [← foldlM_flatMap, ← Changes.steps_between honoured] at hsteps
    refine ⟨plan', hsteps, ?_⟩
    rw [Changes.fault_between_eq_none_iff.2 honoured]
    rfl

/-- Turns that are permitted succeed, one after the other. -/
theorem exists_columnTurns {ts : List (Turn Column)} (h : plan.reached.table? name = some table)
    (hpermitted : ∀ t ∈ ts, t.Permitted config) :
    ∃ plan', Runs (fun a t b => t.steps.foldlM (columnStep config name) a = .ok b) plan ts plan' ∧
      Takes plan plan' (ts.flatMap (Turn.columnStatements name)) name
        (ts.foldl Turn.alter table) := by
  induction ts generalizing plan table with
  | nil => exact ⟨plan, .nil plan, .refl h⟩
  | cons t ts ih =>
    obtain ⟨middle, hturn, htakes⟩ := columnTurn_ok h (hpermitted t List.mem_cons_self)
    obtain ⟨plan', hrest, htakes'⟩ :=
      ih htakes.table_eq fun t' ht' => hpermitted t' (List.mem_cons_of_mem _ ht')
    exact ⟨plan', .cons hturn hrest, htakes.trans htakes'⟩

variable {prev next : OrderedMap Column}

/-- The columns of a table that is there are planned exactly if the markers are honoured and
nothing is removed without leave. -/
theorem exists_columnSteps_iff (h : plan.reached.table? name = some table) :
    (∃ plan', columnSteps config name plan prev next = .ok plan') ↔
      MarkersHonoured Column.renamedFrom prev next ∧
        ∀ t ∈ turns Column.renamedFrom prev next, t.Permitted config := by
  simp only [columnSteps, follow_eq_ok_iff, exists_and_left]
  refine and_congr_right fun _ => ?_
  constructor
  · rintro ⟨plan', hrun⟩ t ht
    obtain ⟨a, b, hturn⟩ := hrun.exists_of_mem ht
    exact permitted_of_columnTurn hturn
  · intro hpermitted
    obtain ⟨plan', hrun, -⟩ := exists_columnTurns h hpermitted
    exact ⟨plan', hrun⟩

/-- What the columns of a table are planned to be. -/
theorem takes_of_columnSteps (h : plan.reached.table? name = some table)
    (hsteps : columnSteps config name plan prev next = .ok plan') :
    Takes plan plan' (columnStatements name prev next) name (alterColumns prev next table) := by
  obtain ⟨-, hpermitted⟩ := (exists_columnSteps_iff h).1 ⟨plan', hsteps⟩
  obtain ⟨plan'', hrun, htakes⟩ := exists_columnTurns h hpermitted
  -- Planning is a function, so the plan that exists is the one that is reached.
  rw [columnSteps, follow_eq_ok_iff, ← runs_foldlM_ok_iff] at hsteps
  rw [← runs_foldlM_ok_iff, hsteps.2] at hrun
  cases hrun
  exact htakes

theorem table?_updateTable_of_ne {other : String} (hne : name ≠ other) {update : Table → Table}
    (hupdate : plan.updateTable name update = .ok plan') :
    plan'.reached.table? other = plan.reached.table? other := by
  unfold updateTable Schema.updateTable? at hupdate
  cases htable : plan.reached.table? name with
  | none => simp [htable] at hupdate
  | some table =>
    simp only [htable, Option.map_some, Except.ok.injEq] at hupdate
    simp [← hupdate, Schema.table?_insertTable, hne]

theorem table?_emit_or_remark_of_ne {other : String} (hne : name ≠ other)
    {outcome : Option (List Statement)} {note : Note} {update : Table → Table}
    (hstep : (match outcome with
      | none => Except.ok (plan.remark note)
      | some ss => (plan.emit ss).updateTable name update) = .ok plan') :
    plan'.reached.table? other = plan.reached.table? other := by
  cases outcome with
  | none =>
    cases hstep
    rfl
  | some ss =>
    have hupdate : (plan.emit ss).updateTable name update = .ok plan' := hstep
    rw [table?_updateTable_of_ne hne hupdate]
    rfl

/-- A step of the columns of a table leaves the other tables alone. -/
theorem table?_columnStep_of_ne {other : String} (hne : name ≠ other) {change : Change Column}
    (hstep : columnStep config name plan change = .ok plan') :
    plan'.reached.table? other = plan.reached.table? other := by
  cases change with
  | create column next => exact table?_emit_or_remark_of_ne hne hstep
  | rename source target prev => exact table?_emit_or_remark_of_ne hne hstep
  | remove column prev =>
    exact table?_emit_or_remark_of_ne hne (columnStep_remove_iff.1 hstep).2
  | change column prev next =>
    simp only [columnStep] at hstep
    split_ifs at hstep
    · cases hstep
      rfl
    · exact table?_updateTable_of_ne hne hstep
    · cases hstep
      rfl
    · cases hstep
      rfl

/-- Planning the columns of a table leaves the other tables alone. -/
theorem table?_columnSteps_of_ne {other : String} (hne : name ≠ other)
    (hsteps : columnSteps config name plan prev next = .ok plan') :
    plan'.reached.table? other = plan.reached.table? other := by
  rw [columnSteps, follow_eq_ok_iff] at hsteps
  refine hsteps.2.invariant (P := fun a => a.reached.table? other = plan.reached.table? other)
    (fun a b t _ hturn ha => ?_) rfl
  exact (runs_foldlM_ok_iff.1 hturn).invariant
    (P := fun a => a.reached.table? other = plan.reached.table? other)
    (fun a' b' change _ hstep ha' => (table?_columnStep_of_ne hne hstep).trans ha') ha

end Plan

/-! ### The fields that are reached -/

section Fields

variable {prev next table : Table} {column source target name : String}

theorem field?_moveColumn {field : Field} (h : table.field? source = some field) :
    (Plan.moveColumn source target table).field? name =
      if target = name then some field else if source = name then none else table.field? name := by
  obtain ⟨c, hc, rfl⟩ := Option.map_eq_some_iff.1 h
  simp only [Plan.moveColumn, hc, Table.field?_insertColumn, Table.field?_eraseColumn]

theorem field?_moveColumn_of_ne (hsource : source ≠ name) (htarget : target ≠ name) :
    (Plan.moveColumn source target table).field? name = table.field? name := by
  unfold Plan.moveColumn
  split
  · rfl
  · simp [Table.field?_insertColumn, Table.field?_eraseColumn, hsource, htarget]

theorem field?_alterContents {before after : Column} :
    (Turn.alterContents column before after table).field? name =
      if column = name ∧ before.field ≠ after.field ∧
          before.field.isVirtual = true ∧ after.field.isVirtual = true then some after.field
      else table.field? name := by
  unfold Turn.alterContents
  split_ifs <;> simp_all [Table.field?_insertColumn, Column.canonical]

/-- A turn changes the fields of its own names only. -/
theorem isLocal_alter :
    IsLocal Table.field? Turn.names fun (a : Table) (t : Turn Column) b => t.alter a = b := by
  rintro a t b rfl name hname
  cases t with
  | create column after =>
    have hne : column ≠ name := by simpa [Turn.names, eq_comm] using hname
    simp only [Turn.alter]
    split_ifs
    · rfl
    · simp [Table.field?_insertColumn, hne]
  | move source target before after =>
    obtain ⟨hsource, htarget⟩ : source ≠ name ∧ target ≠ name := by
      simpa [Turn.names, eq_comm] using hname
    simp only [Turn.alter, field?_alterContents, htarget, false_and, ↓reduceIte]
    split_ifs
    · rfl
    · exact field?_moveColumn_of_ne hsource htarget
  | remove column before =>
    have hne : column ≠ name := by simpa [Turn.names, eq_comm] using hname
    simp only [Turn.alter]
    split_ifs
    · rfl
    · simp [Table.field?_eraseColumn, hne]
  | keep column before after =>
    have hne : column ≠ name := by simpa [Turn.names, eq_comm] using hname
    simp [Turn.alter, field?_alterContents, hne]

theorem runs_alter (ts : List (Turn Column)) (table : Table) :
    Runs (fun a t b => Turn.alter a t = b) table ts (ts.foldl Turn.alter table) := by
  induction ts generalizing table with
  | nil => exact .nil table
  | cons t ts ih => exact .cons rfl (ih _)

/-- What a turn makes of its names is what they are to be: no constraint is added, moved or
removed, and contents differ between virtual fields only. -/
def Changes.Turn.Reproduces : Turn Column → Prop
  | create _ after => after.field.kind ≠ .constraint
  | move _ _ before after =>
      before.field.kind ≠ .constraint ∧ before.field.CanBecome after.field
  | remove _ before => before.field.kind ≠ .constraint
  | keep _ before after => before.field.CanBecome after.field

theorem Field.CanBecome.eq_or_virtual {before after : Field} (hne : before ≠ after) :
    before.CanBecome after ↔ before.isVirtual = true ∧ after.isVirtual = true := by
  simp [CanBecome, hne]

/-- The contents of a column are what they are to be exactly if the change is possible. -/
theorem field?_alterContents_eq_iff {before after : Column}
    (htable : table.field? column = some before.field) :
    (Turn.alterContents column before after table).field? column = some after.field ↔
      before.field.CanBecome after.field := by
  rw [field?_alterContents, htable]
  by_cases heq : before.field = after.field
  · simp [heq, Field.CanBecome]
  · rw [Field.CanBecome.eq_or_virtual heq]
    split_ifs with h
    · simp [h]
    · simp_all

/-- A column that moves has its field under its new name and none under its old one exactly if it is
no constraint and the change of its contents is possible. -/
theorem field?_alter_move_iff {before after : Column} (hne : target ≠ source)
    (hsource : table.field? source = some before.field) :
    (((Turn.move source target before after).alter table).field? source = none ∧
        ((Turn.move source target before after).alter table).field? target = some after.field) ↔
      before.field.kind ≠ .constraint ∧ before.field.CanBecome after.field := by
  simp only [Turn.alter]
  by_cases hkind : before.field.kind = .constraint
  · -- Neither the constraint nor its contents move.
    have hvirtual : before.field.isVirtual = false := by
      simp [Field.isVirtual, hkind, FieldKind.isVirtual]
    simp [hkind, field?_alterContents, hvirtual, hsource]
  · have hmoved : (Plan.moveColumn source target table).field? target = some before.field := by
      simp [field?_moveColumn hsource]
    rw [if_neg hkind, field?_alterContents_eq_iff hmoved]
    simp [hkind, field?_alterContents, field?_moveColumn hsource, hne]

/-- A turn makes of its names what the next table has exactly if it is one that reproduces. -/
theorem field?_alter_eq_iff
    (honoured : MarkersHonoured Column.renamedFrom prev.columns next.columns)
    {t : Turn Column} (hfits : t.Fits Column.renamedFrom prev.columns next.columns)
    (htable : ∀ c ∈ t.names, table.field? c = prev.field? c) :
    (∀ c ∈ t.names, (t.alter table).field? c = next.field? c) ↔ t.Reproduces := by
  cases t with
  | create column after =>
    obtain ⟨⟨-, -, hprev⟩, hafter, -⟩ := hfits
    have hnone : table.field? column = none := by
      rw [htable column (by simp [Turn.names]), Table.field?_eq_none_iff.2 hprev]
    simp only [Turn.names, List.forall_mem_singleton, Turn.alter, Turn.Reproduces,
      Table.field?_of_find? hafter]
    split_ifs with hkind
    · simp [hnone, hkind]
    · simp [Table.field?_insertColumn, Column.canonical, hkind]
  | move source target before after =>
    have hmoves := hfits.moves
    obtain ⟨harrives, hafter, -, hbefore⟩ := hfits
    -- The new name is to have the field, and the old one is to have none.
    have hne : target ≠ source := (honoured.ne hmoves harrives).symm
    have hsource : table.field? source = some before.field := by
      rw [htable source (by simp [Turn.names]), Table.field?_of_find? hbefore]
    have hgone : next.field? source = none := Table.field?_eq_none_iff.2 (honoured.gone hmoves)
    rw [Turn.Reproduces, ← field?_alter_move_iff hne hsource]
    simp [Turn.names, Table.field?_of_find? hafter, hgone]
  | remove column before =>
    obtain ⟨⟨-, -, hnext⟩, hbefore, -⟩ := hfits
    have hsome : table.field? column = some before.field := by
      rw [htable column (by simp [Turn.names]), Table.field?_of_find? hbefore]
    simp only [Turn.names, List.forall_mem_singleton, Turn.alter, Turn.Reproduces,
      Table.field?_eq_none_iff.2 hnext]
    split_ifs with hkind
    · simp [hsome, hkind]
    · simp [Table.field?_eraseColumn, hkind]
  | keep column before after =>
    obtain ⟨-, hbefore, hafter⟩ := hfits
    have hsome : table.field? column = some before.field := by
      rw [htable column (by simp [Turn.names]), Table.field?_of_find? hbefore]
    simp only [Turn.names, List.forall_mem_singleton, Turn.alter, Turn.Reproduces,
      Table.field?_of_find? hafter]
    exact field?_alterContents_eq_iff hsome

/-- The columns become those of the next table exactly if every turn reproduces and the columns
that no turn speaks of are the same in both. -/
theorem field?_alterColumns_eq_iff
    (honoured : MarkersHonoured Column.renamedFrom prev.columns next.columns)
    (htable : ∀ c, table.field? c = prev.field? c) :
    (∀ c, (alterColumns prev.columns next.columns table).field? c = next.field? c) ↔
      (∀ t ∈ turns Column.renamedFrom prev.columns next.columns, t.Reproduces) ∧
        ∀ c, isReserved c = true →
          (∀ target, ¬Changes.Moves Column.renamedFrom prev.columns next.columns c target) →
            prev.field? c = next.field? c := by
  have hrun := runs_alter (turns Column.renamedFrom prev.columns next.columns) table
  have hind := Changes.independent_turns honoured
  -- No other turn speaks of the names of a turn, so it can be judged by itself.
  have hstep {t : Turn Column} (ht : t ∈ turns Column.renamedFrom prev.columns next.columns) :
      (∀ c ∈ t.names, (alterColumns prev.columns next.columns table).field? c = next.field? c) ↔
        t.Reproduces := by
    obtain ⟨a, _, rfl, hstart, hend⟩ := hrun.exists_step isLocal_alter hind ht
    rw [← field?_alter_eq_iff honoured ((Changes.mem_turns_iff honoured).1 ht)
      fun c hc => (hstart c hc).trans (htable c)]
    exact forall₂_congr fun c hc => by rw [← hend c hc]; rfl
  have huntouched (c : String)
      (hc : ∀ t ∈ turns Column.renamedFrom prev.columns next.columns, c ∉ t.names) :
      (alterColumns prev.columns next.columns table).field? c = prev.field? c :=
    (hrun.view_eq_of_untouched isLocal_alter hc).trans (htable c)
  have hmissing (c : String) (hprev : c ∉ prev.columns.names) (hnext : c ∉ next.columns.names) :
      prev.field? c = next.field? c := by
    rw [Table.field?_eq_none_iff.2 hprev, Table.field?_eq_none_iff.2 hnext]
  rw [Changes.forall_eq_iff_of_turns honoured huntouched hmissing]
  exact and_congr_left' (forall₂_congr fun t ht => hstep ht)

end Fields

end Schemata
