import Schemata.Proofs.Migration.Acceptance
import Schemata.Proofs.Migration.Traversal

/-!
# The account never loses track

While planning, an account is kept of what each statement does to the database. A step looks up in
it what it is about to change, and where it finds nothing it does nothing. So an account that had
lost track of a table or a column would show only at the end, as a schema that is not the one asked
for. It never does: whatever planning comes to, an old name has what it had in the previous schema,
and a new one is free.

This holds at each step of a traversal, also of one that fails later on. The steps before it are
those of other turns, which speak of other names, or the renaming right before a change of contents.

## Main definitions

* `Change.names`, `Change.Finds`: the names that a change is about, and what it finds under them
* `Plan.Meets`, `Plan.ComesTo`: the changes that following a traversal comes to, on one level and on
  both
* `Plan.Follows`: the steps that keep to the names of their changes

## Main results

* `Changes.exists_turns`: every traversal takes turns that speak of different names
* `Plan.Meets.exists_turn`: the names of a turn are at first as they were at the start
* `Plan.Meets.finds`: what a change finds that a traversal comes to
* `migrate_keeps_track`: nothing is lost and nothing overwritten
-/

namespace Schemata

open Changes (Turn)

/-- The names that a change is about. -/
def Change.names {α : Type} : Change α → List String
  | create name _ | remove name _ | change name _ _ => [name]
  | rename source target _ => [source, target]

/-- What a change finds if nothing has been lost: `old` shows what there was at the start under a
name, and `now` what there is where the change is made. A new name is free, and an old one has what
it had. Contents are there to be changed unless they belong to an entity that does not move. -/
def Change.Finds {α β : Type} (image : α → β) (movable : α → Prop) (old now : String → Option β) :
    Change α → Prop
  | create name _ => now name = none
  | rename source target prev =>
      old source = some (image prev) ∧ now source = some (image prev) ∧ now target = none
  | remove name prev => old name = some (image prev) ∧ now name = some (image prev)
  | change name prev _ => movable prev → now name = some (image prev)

/-! ### The turns of a traversal -/

namespace Changes

variable {α : Type} {marker : α → Option String} {prev next : OrderedMap α}
variable {es : List (String × α)} {e : String × α} {taken : List String} {name : String}

theorem Turn.mem_names_of_mem_steps {t : Turn α} {change : Change α} (hchange : change ∈ t.steps)
    (hname : name ∈ change.names) : name ∈ t.names := by
  cases t with
  | move source target before entity =>
    rcases List.mem_cons.1 hchange with rfl | hchange
    · exact hname
    · obtain rfl := List.mem_singleton.1 hchange
      exact List.mem_cons_of_mem _ hname
  | create _ _ | remove _ _ | keep _ _ _ =>
    obtain rfl := List.mem_singleton.1 hchange
    exact hname

/-- The turn of a new entity speaks of its name and of the one in its marker. -/
theorem Turn.mem_names_of_arrival? {t : Turn α} (h : Turn.arrival? marker prev e = some t)
    (hname : name ∈ t.names) : name = e.1 ∨ marker e.2 = some name := by
  obtain ⟨-, rfl⟩ | ⟨source, before, hmarker, -, rfl⟩ := Turn.arrival?_eq_some_iff.1 h
  · exact .inl (List.mem_singleton.1 hname)
  · rcases List.mem_cons.1 hname with rfl | hname
    · exact .inr hmarker
    · exact .inl (List.mem_singleton.1 hname)

/-- New entities whose markers can be honoured have turns that speak of different names. -/
theorem independent_arrivals (hes : es.Sublist (newcomers prev next))
    (h : (additions marker prev next taken es).fault = none) :
    Independent Turn.names (es.filterMap (Turn.arrival? marker prev)) := by
  obtain ⟨hsources, hmarkers⟩ := fault_additions_eq_none_iff.1 h
  have hnames : es.Pairwise fun e e' => e.1 ≠ e'.1 := by
    rw [← select_added] at hes
    exact (pairwise_select NameDiff.nodup_added).sublist hes
  -- A name that is new is not the old name of another entity.
  have hfresh {e e' : String × α} (he : e ∈ es) (he' : e' ∈ es) : marker e'.2 ≠ some e.1 := by
    intro hmarker
    exact (mem_newcomers_iff.1 (hes.subset he)).1.2.2 (hsources e' he' _ hmarker).1
  rw [Independent, List.pairwise_filterMap]
  refine (hnames.and hmarkers).imp_of_mem fun {e e'} he he' hne t ht t' ht' n hn hn' => ?_
  rcases Turn.mem_names_of_arrival? ht hn with rfl | hmarker
  · rcases Turn.mem_names_of_arrival? ht' hn' with heq | hmarker'
    · exact hne.1 heq
    · exact hfresh he he' hmarker'
  · rcases Turn.mem_names_of_arrival? ht' hn' with rfl | hmarker'
    · exact hfresh he' he hmarker
    · exact hne.2 n hmarker hmarker'

variable (marker prev next) in
/-- Every traversal takes turns that fit the two maps and speak of different names, whether or not
it comes to its end. -/
theorem exists_turns : ∃ ts : List (Turn α),
    (between marker prev next).steps = ts.flatMap Turn.steps ∧ Independent Turn.names ts ∧
      ∀ t ∈ ts, t.Fits marker prev next := by
  cases hfault : (between marker prev next).fault with
  | none =>
    have honoured := fault_between_eq_none_iff.1 hfault
    exact ⟨turns marker prev next, steps_between honoured, independent_turns honoured,
      fun t => (mem_turns_iff honoured).1⟩
  | some fault =>
    -- Only the entities before the one with the fault have had their turns.
    rw [between_of_fault hfault]
    rw [fault_between] at hfault
    obtain ⟨before, e, after, hnew, hbefore, hblames⟩ := exists_blames takenBy_nil hfault
    have hes : before.Sublist (newcomers prev next) := hnew ▸ List.sublist_append_left before _
    refine ⟨before.filterMap (Turn.arrival? marker prev), ?_, independent_arrivals hes hbefore,
      fun t => fits_of_mem_arrivals fun e he => hes.subset he⟩
    rw [hnew, additions_of_blames takenBy_nil hbefore hblames]
    exact steps_additions hbefore

/-- The contents that change belong to an entity that keeps its name or has just moved. -/
theorem exists_source_of_change_mem {before entity : α}
    (h : .change name before entity ∈ (between marker prev next).steps) :
    ∃ source, (isReserved source = false ∧ source = name ∨ Moves marker prev next source name) ∧
      prev.find? source = some before := by
  obtain ⟨ts, hsteps, -, hfits⟩ := exists_turns marker prev next
  rw [hsteps, List.mem_flatMap] at h
  obtain ⟨t, ht, hchange⟩ := h
  have hfit := hfits t ht
  cases t with
  | create _ _ | remove _ _ => simp [Turn.steps] at hchange
  | move source target _ _ =>
    obtain ⟨rfl, rfl, rfl⟩ : name = target ∧ _ := by simpa [Turn.steps] using hchange
    exact ⟨source, .inr hfit.moves, hfit.2.2.2⟩
  | keep _ _ _ =>
    obtain ⟨rfl, rfl, rfl⟩ : name = _ ∧ _ := by simpa [Turn.steps] using hchange
    exact ⟨name, .inl ⟨hfit.1, rfl⟩, hfit.2.1⟩

end Changes

/-! ### The changes that planning comes to -/

namespace Plan

/-- Following the changes comes to one of them, where it finds the second account: the ones before
it succeed and lead there. -/
def Meets {α : Type} (step : Plan → Change α → Except MigrationError Plan) (plan : Plan)
    (changes : Changes α) (change : Change α) (found : Plan) : Prop :=
  ∃ before after, changes.steps = before ++ change :: after ∧ before.foldlM step plan = .ok found

/-- The steps keep to their changes: what is shown under other names stays, and what moves is shown
under its new name as under its old one. -/
structure Follows {α β : Type} (step : Plan → Change α → Except MigrationError Plan)
    (view : Plan → String → Option β) (image : α → β) (movable : α → Prop) : Prop where
  /-- A step changes nothing under names that are not those of its change. -/
  isLocal : IsLocal view Change.names fun a change b => step a change = .ok b
  /-- A renaming takes what there is under the old name to the new one. -/
  moves {a b : Plan} {source target : String} {prev : α} :
    step a (.rename source target prev) = .ok b → movable prev →
      view a source = some (image prev) → view b target = some (image prev)

section

variable {α β : Type} {step : Plan → Change α → Except MigrationError Plan}
variable {view : Plan → String → Option β} {image : α → β} {movable : α → Prop}
variable {marker : α → Option String} {prev next : OrderedMap α} {plan found : Plan}
variable {change : Change α}

/-- A change that following a traversal comes to is of a turn whose names are, when it is its turn,
as they were at the start. -/
theorem Meets.exists_turn (hfollows : Follows step view image movable)
    (h : Meets step plan (.between marker prev next) change found) :
    ∃ (t : Turn α) (begun left : List (Change α)) (middle : Plan), t.Fits marker prev next ∧
      t.steps = begun ++ change :: left ∧ begun.foldlM step middle = .ok found ∧
        ∀ n ∈ t.names, view middle n = view plan n := by
  obtain ⟨before, after, hsplit, hrun⟩ := h
  obtain ⟨ts, hsteps, hind, hfits⟩ := Changes.exists_turns marker prev next
  rw [hsteps] at hsplit
  obtain ⟨done, t, rest, begun, left, rfl, ht, rfl, -⟩ := exists_of_flatMap_eq_append_cons hsplit
  rw [List.foldlM_append, bind_eq_ok_iff] at hrun
  obtain ⟨middle, hdone, hbegun⟩ := hrun
  refine ⟨t, begun, left, middle, hfits t (by simp), ht, hbegun, fun n hn => ?_⟩
  -- The turns before this one speak of other names.
  refine (runs_foldlM_ok_iff.1 hdone).view_eq_of_untouched hfollows.isLocal ?_
  intro change hchange hn'
  obtain ⟨t', ht', hmem⟩ := List.mem_flatMap.1 hchange
  exact (List.pairwise_append.1 hind).2.2 t' ht' t List.mem_cons_self
    (Turn.mem_names_of_mem_steps hmem hn') hn

/-- A change that following a traversal comes to finds its old name as it was at the start, and its
new name free. -/
theorem Meets.finds (hfollows : Follows step view image movable)
    (hstart : ∀ n, view plan n = (prev.find? n).map image)
    (h : Meets step plan (.between marker prev next) change found) :
    change.Finds image movable (view plan) (view found) := by
  obtain ⟨t, begun, left, middle, hfit, ht, hbegun, hmiddle⟩ := h.exists_turn hfollows
  have hfree {n : String} (hn : n ∈ t.names) (hprev : n ∉ prev.names) : view middle n = none := by
    rw [hmiddle n hn, hstart, OrderedMap.find?_eq_none_iff.2 hprev, Option.map_none]
  have hold {n : String} {a : α} (hprev : prev.find? n = some a) :
      view plan n = some (image a) := by
    rw [hstart, hprev, Option.map_some]
  have hkept {n : String} {a : α} (hn : n ∈ t.names) (hprev : prev.find? n = some a) :
      view middle n = some (image a) :=
    (hmiddle n hn).trans (hold hprev)
  cases t with
  | create name entity =>
    obtain ⟨rfl, rfl⟩ : begun = [] ∧ change = .create name entity := by
      cases begun <;> simp_all [Turn.steps]
    cases hbegun
    exact hfree (by simp [Turn.names]) hfit.1.2.2
  | move source target before entity =>
    have hsource : view middle source = some (image before) :=
      hkept (by simp [Turn.names]) hfit.2.2.2
    cases begun with
    | nil =>
      obtain ⟨rfl, -⟩ : change = .rename source target before ∧ _ := by
        simpa [Turn.steps, eq_comm] using ht
      cases hbegun
      exact ⟨hold hfit.2.2.2, hsource, hfree (by simp [Turn.names]) hfit.1.2.2⟩
    | cons first begun =>
      -- The entity has just been renamed.
      obtain ⟨rfl, rfl, rfl⟩ : first = .rename source target before ∧ begun = [] ∧
          change = .change target before entity := by
        cases begun <;> simp_all [Turn.steps]
      have hrename : step middle (.rename source target before) = .ok found := by
        simpa using hbegun
      exact fun hmovable => hfollows.moves hrename hmovable hsource
  | remove name before =>
    obtain ⟨rfl, rfl⟩ : begun = [] ∧ change = .remove name before := by
      cases begun <;> simp_all [Turn.steps]
    cases hbegun
    exact ⟨hold hfit.2.1, hkept (by simp [Turn.names]) hfit.2.1⟩
  | keep name before entity =>
    obtain ⟨rfl, rfl⟩ : begun = [] ∧ change = .change name before entity := by
      cases begun <;> simp_all [Turn.steps]
    cases hbegun
    exact fun _ => hkept (by simp [Turn.names]) hfit.2.1

/-- Following changes fails at one of them that it comes to, or with their fault. -/
theorem exists_of_follow_eq_error {qualify : String → String} {changes : Changes α}
    {e : MigrationError} (h : follow step qualify plan changes = .error e) :
    (∃ change found, Meets step plan changes change found ∧ step found change = .error e) ∨
      ∃ name source problem, e = .invalidRename name source problem := by
  rw [follow, bind_eq_error_iff] at h
  rcases h with hsteps | ⟨a, -, hfault⟩
  · obtain ⟨before, change, after, found, hsplit, hbefore, hstep⟩ :=
      exists_of_foldlM_eq_error hsteps
    exact .inl ⟨change, found, ⟨before, after, hsplit, hbefore⟩, hstep⟩
  · cases hnone : changes.fault with
    | none =>
      rw [hnone] at hfault
      cases hfault
    | some fault =>
      rw [hnone] at hfault
      cases hfault
      exact .inr ⟨_, _, _, rfl⟩

end

/-! ### The steps of the columns -/

section Columns

variable {config : MigrationConfig} {plan plan' found : Plan} {name : String} {table : Table}
variable {change : Change Column} {e : MigrationError}

/-- What a change of a column makes of the table, if it is made. -/
def alterTable : Change Column → Table → Table
  | .create column next => (·.insertColumn column next.canonical)
  | .rename source target _ => moveColumn source target
  | .remove column _ => (·.eraseColumn column)
  | .change column _ next => (·.insertColumn column next.canonical)

theorem field?_alterTable_of_not_mem {column : String} (h : column ∉ change.names) :
    (alterTable change table).field? column = table.field? column := by
  cases change with
  | create other _ | change other _ _ =>
    have hne : other ≠ column := by simpa [Change.names, eq_comm] using h
    exact (Table.field?_insertColumn ..).trans (if_neg hne)
  | rename source target _ =>
    obtain ⟨hsource, htarget⟩ : source ≠ column ∧ target ≠ column := by
      simpa [Change.names, eq_comm] using h
    exact field?_moveColumn_of_ne hsource htarget
  | remove other _ =>
    have hne : other ≠ column := by simpa [Change.names, eq_comm] using h
    exact (Table.field?_eraseColumn ..).trans (if_neg hne)

theorem reached_of_updateTable {update : Table → Table}
    (h : plan.updateTable name update = .ok plan') :
    plan.reached.updateTable? name update = some plan'.reached := by
  unfold updateTable at h
  split at h
  · cases h
  · rename_i hreached
    cases h
    exact hreached

theorem reached_of_emit_or_remark {outcome : Option (List Statement)} {note : Note}
    {update : Table → Table}
    (h : (match outcome with
      | none => Except.ok (plan.remark note)
      | some ss => (plan.emit ss).updateTable name update) = .ok plan') :
    outcome = none ∧ plan'.reached = plan.reached ∨
      plan.reached.updateTable? name update = some plan'.reached := by
  cases outcome with
  | none =>
    cases h
    exact .inl ⟨rfl, rfl⟩
  | some ss =>
    have halter : (plan.emit ss).reached.updateTable? name update = some plan'.reached :=
      reached_of_updateTable h
    exact .inr halter

/-- A step of a column leaves the account as it is, or it alters the table there. -/
theorem reached_of_columnStep (h : columnStep config name plan change = .ok plan') :
    plan'.reached = plan.reached ∨
      plan.reached.updateTable? name (alterTable change) = some plan'.reached := by
  cases change with
  | create column next => exact (reached_of_emit_or_remark h).imp_left And.right
  | rename source target prev => exact (reached_of_emit_or_remark h).imp_left And.right
  | remove column prev =>
    exact (reached_of_emit_or_remark (columnStep_remove_iff.1 h).2).imp_left And.right
  | change column prev next =>
    simp only [columnStep] at h
    split_ifs at h
    · exact .inl (by cases h; rfl)
    · exact .inr (reached_of_updateTable h)
    · exact .inl (by cases h; rfl)
    · exact .inl (by cases h; rfl)

/-- The table is still there after a step of its columns. -/
theorem exists_table_of_columnStep (h : columnStep config name plan change = .ok plan')
    (htable : ∃ table, plan.reached.table? name = some table) :
    ∃ table, plan'.reached.table? name = some table := by
  rcases reached_of_columnStep h with hsame | halter
  · rwa [hsame]
  · obtain ⟨table, -, heq⟩ := Option.map_eq_some_iff.1 halter
    exact ⟨_, by rw [← heq, Schema.table?_insertTable, if_pos rfl]⟩

theorem Meets.exists_table {changes : Changes Column}
    (h : Meets (columnStep config name) plan changes change found)
    (htable : plan.reached.table? name = some table) :
    ∃ current, found.reached.table? name = some current := by
  obtain ⟨before, after, -, hrun⟩ := h
  exact (runs_foldlM_ok_iff.1 hrun).invariant
    (P := fun a => ∃ current, a.reached.table? name = some current)
    (fun _ _ _ _ hstep => exists_table_of_columnStep hstep) ⟨table, htable⟩

theorem field?_of_updateTable? {schema schema' : Schema} {update : Table → Table}
    (h : schema.updateTable? name update = some schema') (column : String) :
    ∃ current, schema.table? name = some current ∧
      schema.field? ⟨name, column⟩ = current.field? column ∧
      schema'.field? ⟨name, column⟩ = (update current).field? column := by
  obtain ⟨current, hcurrent, rfl⟩ := Option.map_eq_some_iff.1 h
  refine ⟨current, hcurrent, Schema.field?_of_find? hcurrent column, ?_⟩
  rw [Schema.field?_insertTable, if_pos rfl]

/-- The steps of the columns keep to their columns. Constraints do not move. -/
theorem follows_columnStep (config : MigrationConfig) (name : String) :
    Follows (columnStep config name) (fun plan column => plan.reached.field? ⟨name, column⟩)
      Column.field fun column => column.field.kind ≠ .constraint where
  isLocal := by
    intro a change b hstep column hcolumn
    change b.reached.field? ⟨name, column⟩ = a.reached.field? ⟨name, column⟩
    rcases reached_of_columnStep hstep with hsame | halter
    · rw [hsame]
    · obtain ⟨current, -, hbefore, hafter⟩ := field?_of_updateTable? halter column
      rw [hbefore, hafter, field?_alterTable_of_not_mem hcolumn]
  moves := by
    intro a b source target prev hstep hkind hsource
    rcases reached_of_emit_or_remark hstep with ⟨hnone, -⟩ | halter
    -- Only a constraint is renamed without a statement.
    · exact absurd ((renaming?_eq_none_iff ..).1 hnone) hkind
    · obtain ⟨current, hcurrent, -, hafter⟩ := field?_of_updateTable? halter target
      rw [Schema.field?_of_find? hcurrent] at hsource
      rw [hafter, field?_moveColumn hsource, if_pos rfl]

/-- A step of the columns of a table that is there fails only for want of leave. -/
theorem exists_of_columnStep_eq_error (htable : plan.reached.table? name = some table)
    (h : columnStep config name plan change = .error e) :
    ∃ qualified, e = .unsafeDrop qualified := by
  cases change with
  | create column next =>
    obtain ⟨plan', hok, -⟩ := emit_or_remark htable (addition?_eq_none_iff column next.field)
      (.constraintAdded ⟨name, column⟩) (·.insertColumn column next.canonical)
    exact absurd (hok.symm.trans h) (by simp)
  | rename source target prev =>
    obtain ⟨plan', hok, -⟩ := emit_or_remark htable (renaming?_eq_none_iff source target prev.field)
      (.constraintRenamed ⟨name, source⟩) (moveColumn source target)
    exact absurd (hok.symm.trans h) (by simp)
  | remove column prev =>
    by_cases hpermitted : (Turn.remove column prev).Permitted config
    · obtain ⟨plan', hok, -⟩ := emit_or_remark htable (removal?_eq_none_iff column prev.field)
        (.constraintDropped ⟨name, column⟩) (·.eraseColumn column)
      exact absurd ((columnStep_remove_iff.2 ⟨hpermitted, hok⟩).symm.trans h) (by simp)
    · obtain ⟨hvirtual, hdeprecated⟩ := not_or.1 hpermitted
      simp only [columnStep, gate, hvirtual, hdeprecated] at h
      cases h
      exact ⟨_, rfl⟩
  | change column prev next =>
    obtain ⟨plan', hok, -⟩ := columnStep_change config htable column prev next
    exact absurd (hok.symm.trans h) (by simp)

end Columns

/-! ### The steps of the tables -/

section Tables

variable {config : MigrationConfig} {plan found : Plan} {e : MigrationError}

/-- The steps of the tables keep to their tables. -/
theorem follows_tableStep (config : MigrationConfig) :
    Follows (tableStep config) (fun plan name => plan.reached.table? name) Table.canonical
      fun _ => True where
  isLocal := by
    intro a change b hstep name hname
    cases change with
    | create other next =>
      have hne : other ≠ name := by simpa [Change.names, eq_comm] using hname
      cases hstep
      exact (Schema.table?_insertTable ..).trans (if_neg hne)
    | rename source target prev =>
      obtain ⟨hsource, htarget⟩ : source ≠ name ∧ target ≠ name := by
        simpa [Change.names, eq_comm] using hname
      cases hstep
      exact table?_moveTable_of_ne _ hsource htarget
    | remove other prev =>
      have hne : other ≠ name := by simpa [Change.names, eq_comm] using hname
      obtain ⟨-, -, hb⟩ := bind_eq_ok_iff.1 hstep
      cases hb
      exact (Schema.table?_eraseTable ..).trans (if_neg hne)
    | change other prev next =>
      have hne : other ≠ name := by simpa [Change.names, eq_comm] using hname
      exact table?_columnSteps_of_ne hne hstep
  moves := by
    intro a b source target prev hstep _ hsource
    cases hstep
    exact (table?_moveTable _ hsource).trans (if_pos rfl)

/-- A step of a table that is there fails only for want of leave, or at a marker of its columns. -/
theorem exists_of_tableStep_eq_error {change : Change Table}
    (hfinds : ∀ name before after, change = .change name before after →
      ∃ table, plan.reached.table? name = some table)
    (h : tableStep config plan change = .error e) :
    (∃ qualified, e = .unsafeDrop qualified) ∨
      ∃ name source problem, e = .invalidRename name source problem := by
  cases change with
  | create name next => cases h
  | rename source target prev => cases h
  | remove name prev =>
    by_cases hdeprecated : config.isDeprecated name = true
    · simp only [tableStep, gate, if_pos hdeprecated] at h
      cases h
    · simp only [tableStep, gate, if_neg hdeprecated] at h
      cases h
      exact .inl ⟨_, rfl⟩
  | change name prev next =>
    obtain ⟨table, htable⟩ := hfinds name prev next rfl
    rw [tableStep, columnSteps] at h
    -- The table stays while its columns change, so each of their steps finds it.
    rcases exists_of_follow_eq_error h with ⟨change, found, hmeets, hstep⟩ | hinvalid
    · obtain ⟨current, hcurrent⟩ := hmeets.exists_table htable
      exact .inl (exists_of_columnStep_eq_error hcurrent hstep)
    · exact .inr hinvalid

end Tables

/-! ### Both levels -/

/-- Something that is done about a table, or about a column of a table. -/
inductive Operation
  | table (change : Change Table)
  | column (table : String) (change : Change Column)

/-- Planning the migration comes to the operation, where it finds the account: it is one of the
changes of the tables, or of the columns of a table that is changed. -/
inductive ComesTo (config : MigrationConfig) (prev next : Schema) : Operation → Plan → Prop
  | table {change : Change Table} {found : Plan} :
    Meets (tableStep config) ⟨prev.canonical, [], []⟩
        (.between Table.renamedFrom prev.tables next.tables) change found →
      ComesTo config prev next (.table change) found
  | column {name : String} {before after : Table} {change : Change Column} {start found : Plan} :
    ComesTo config prev next (.table (.change name before after)) start →
      Meets (columnStep config name) start
          (.between Column.renamedFrom before.columns after.columns) change found →
        ComesTo config prev next (.column name change) found

namespace Operation

/-- What planning does about it. -/
def step (config : MigrationConfig) (plan : Plan) : Operation → Except MigrationError Plan
  | table change => tableStep config plan change
  | column name change => columnStep config name plan change

/-- The operation finds the tables and columns that it is about as they are in the previous schema,
and new names free. The columns are those of the table that goes on, which is there. -/
def Finds (prev next reached : Schema) : Operation → Prop
  | table change =>
      change.Finds Table.canonical (fun _ => True) prev.canonical.table? reached.table?
  | column name change =>
      ∃ source, Continues prev next source name ∧ name ∈ reached.tables.names ∧
        change.Finds Column.field (fun column => column.field.kind ≠ .constraint)
          (fun column => prev.field? ⟨source, column⟩) fun column => reached.field? ⟨name, column⟩

/-- What the operation is not about stays as it is. -/
def Keeps (before after : Schema) : Operation → Prop
  | table change => ∀ name ∉ change.names, after.table? name = before.table? name
  | column name change =>
      (∀ other ≠ name, after.table? other = before.table? other) ∧
        ∀ column ∉ change.names, after.field? ⟨name, column⟩ = before.field? ⟨name, column⟩

theorem keeps_of_step {config : MigrationConfig} {plan plan' : Plan} {op : Operation}
    (h : op.step config plan = .ok plan') : op.Keeps plan.reached plan'.reached := by
  cases op with
  | table change => exact fun name hname => (follows_tableStep config).isLocal _ _ _ h name hname
  | column name change =>
    exact ⟨fun other hother => table?_columnStep_of_ne hother.symm h,
      fun column hcolumn => (follows_columnStep config name).isLocal _ _ _ h column hcolumn⟩

end Operation

section Tracking

variable {config : MigrationConfig} {prev next : Schema} {found : Plan} {e : MigrationError}

theorem Meets.finds_table {change : Change Table}
    (h : Meets (tableStep config) ⟨prev.canonical, [], []⟩
      (.between Table.renamedFrom prev.tables next.tables) change found) :
    change.Finds Table.canonical (fun _ => True) prev.canonical.table? found.reached.table? :=
  h.finds (follows_tableStep config) prev.table?_canonical

/-- An operation that planning comes to finds what it is about. -/
theorem ComesTo.finds {op : Operation} (h : ComesTo config prev next op found) :
    op.Finds prev next found.reached := by
  cases h with
  | table hmeets => exact hmeets.finds_table
  | @column name before after change start _ htable hcolumn =>
    cases htable with
    | table hmeets =>
      have hstart : start.reached.table? name = some before.canonical := hmeets.finds_table trivial
      obtain ⟨_, _, hsteps, -⟩ := hmeets
      obtain ⟨source, hcontinues, hbefore⟩ := Changes.exists_source_of_change_mem (by
        rw [hsteps]
        exact List.mem_append_right _ List.mem_cons_self)
      -- The table had its columns in the previous schema, under the name that it had there.
      have hfield (column : String) :
          prev.field? ⟨source, column⟩ = start.reached.field? ⟨name, column⟩ := by
        rw [Schema.field?_of_find? hbefore, Schema.field?_of_find? hstart,
          Table.field?_canonical]
      refine ⟨source, hcontinues, Schema.mem_names_iff_table?.2 (hcolumn.exists_table hstart), ?_⟩
      simp only [hfield]
      refine hcolumn.finds (follows_columnStep config name) fun column => ?_
      rw [Schema.field?_of_find? hstart, Table.field?_canonical]
      rfl

/-- Planning fails only for want of leave, or at a marker. -/
theorem exists_of_tableSteps_eq_error
    (h : tableSteps config ⟨prev.canonical, [], []⟩ prev.tables next.tables = .error e) :
    (∃ qualified, e = .unsafeDrop qualified) ∨
      ∃ name source problem, e = .invalidRename name source problem := by
  rw [tableSteps] at h
  rcases exists_of_follow_eq_error h with ⟨change, found, hmeets, hstep⟩ | hinvalid
  · refine exists_of_tableStep_eq_error (fun name before after hchange => ?_) hstep
    subst hchange
    exact ⟨before.canonical, hmeets.finds_table trivial⟩
  · exact .inr hinvalid

end Tracking

end Plan

theorem exists_of_requireValid_eq_error {schema : Schema} {e : MigrationError}
    (h : requireValid schema = .error e) : ∃ violation, e = .invalid violation := by
  unfold requireValid at h
  split at h
  · cases h
  · cases h
    exact ⟨_, rfl⟩

/-- Whatever planning comes to, the account has what it needs: the table whose columns change is
there, what is renamed, removed or changed is what it was in the previous schema, and new names are
free. So nothing else is overwritten, and planning never ends because a table is lost. -/
theorem migrate_keeps_track (config : MigrationConfig) (prev next : Schema) :
    (∀ op found, Plan.ComesTo config prev next op found →
      op.Finds prev next found.reached ∧
        ∀ after, op.step config found = .ok after → op.Keeps found.reached after.reached) ∧
    ∀ table notes, migrate config prev next ≠ .error (.divergent (.lostTable table) notes) := by
  refine ⟨fun op found h => ⟨h.finds, fun after => Plan.Operation.keeps_of_step⟩, ?_⟩
  intro table notes h
  simp only [migrate, bind_eq_error_iff] at h
  rcases h with hprev | ⟨_, -, hnext | ⟨_, -, hsteps | ⟨plan, -, hreached⟩⟩⟩
  · obtain ⟨violation, heq⟩ := exists_of_requireValid_eq_error hprev
    cases heq
  · obtain ⟨violation, heq⟩ := exists_of_requireValid_eq_error hnext
    cases heq
  · rcases Plan.exists_of_tableSteps_eq_error hsteps with ⟨_, heq⟩ | ⟨_, _, _, heq⟩ <;> cases heq
  -- The schema that is reached may depart from the next one, but it has lost no table on the way.
  · split at hreached <;> cases hreached

/-- A table with an index. -/
def Schema.withIndexOfX : Schema :=
  ⟨.ofList [("old", ⟨.ofList [("x", ⟨.integer "", none⟩), ("by_x", ⟨.index "x", none⟩)], none⟩)]⟩

/-- The same under new names, and a further table whose marker speaks of no table. -/
def Schema.withStrayMarker : Schema :=
  ⟨.ofList
    [("new", ⟨.ofList [("y", ⟨.integer "", some "x"⟩), ("by_y", ⟨.index "y", some "by_x"⟩)],
        some "old"⟩),
      ("stray", ⟨.ofList [("z", ⟨.integer "", none⟩)], some "lost"⟩)]⟩

/-- Planning comes to the column whose table has just been renamed, though a marker fails later on.
The column is there as it was, its new name is free, and renaming it leaves the index alone. -/
theorem migrate_keeps_track_stray :
    let operation : Plan.Operation := .column "new" (.rename "x" "y" ⟨.integer "", none⟩)
    ∃ found after, Plan.ComesTo {} .withIndexOfX .withStrayMarker operation found ∧
      found.statements = [.renameTable "old" "new"] ∧
      operation.Finds .withIndexOfX .withStrayMarker found.reached ∧
      operation.step {} found = .ok after ∧
      after.reached.field? ⟨"new", "by_x"⟩ = found.reached.field? ⟨"new", "by_x"⟩ ∧
      migrate {} .withIndexOfX .withStrayMarker =
        .error (.invalidRename "stray" "lost" .noSource) := by
  intro operation
  obtain ⟨found, hcomes, hstatements, after, hafter⟩ : ∃ found,
      Plan.ComesTo {} .withIndexOfX .withStrayMarker operation found ∧
        found.statements = [.renameTable "old" "new"] ∧
        ∃ after, operation.step {} found = .ok after :=
    ⟨_, .column (.table ⟨[.rename "old" "new" _], _, rfl, rfl⟩) ⟨[], _, rfl, rfl⟩, rfl, _, rfl⟩
  obtain ⟨htrack, -⟩ := migrate_keeps_track {} .withIndexOfX .withStrayMarker
  obtain ⟨hfinds, hkeeps⟩ := htrack operation found hcomes
  exact ⟨found, after, hcomes, hstatements, hfinds, hafter,
    (hkeeps after hafter).2 "by_x" (by decide), by decide⟩

end Schemata
