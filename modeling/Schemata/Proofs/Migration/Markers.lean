import Schemata.Proofs.Migration.Acceptance

/-!
# Which markers are read

A marker counts on an entity that is new: a table of a name that the previous schema does not have,
or a column of a name that the table before does not have. A marker anywhere else is idle. It may
be there from a renaming that has been done, it may be missing or name anything, and the outcome is
the same, be it a migration or a failure.

Idle markers travel with their entities through the whole of planning. That they come to nothing is
shown for the two traversals at once: they take the same steps, as far as anything can be seen of a
step by the function that follows it, and where a step goes on to columns, it is the columns' own
traversals that are compared.

## Main definitions

* `Changes.SameArrivals`: what is new has the same markers in two maps
* `Changes.LookAlike`: the steps between the maps of two pairs look the same
* `UpToIdleMarkers`: two pairs of schemas are the same but for idle markers

## Main results

* `Changes.LookAlike.between`: traversals that look alike take steps that look the same, and end
  with the same fault
* `migrate_eq_of_idleMarkers`: idle markers make no difference
-/

namespace Schemata

universe u v

open Changes (Arrives Moves)

/-! ### Traversals that look alike -/

namespace Changes

variable {α : Type u} {β : Type v} {marker : α → Option String} {view : Change α → β}

/-- The new entities have the same markers in both of the next maps. -/
def SameArrivals (marker : α → Option String) (prev next next' : OrderedMap α) : Prop :=
  ∀ name, Arrives prev next name → (next.find? name).bind marker = (next'.find? name).bind marker

instance {prev next next' : OrderedMap α} : Decidable (SameArrivals marker prev next next') :=
  decidable_of_iff (∀ name ∈ next.names, Arrives prev next name →
      (next.find? name).bind marker = (next'.find? name).bind marker)
    ⟨fun h name harrives => h name harrives.2.1 harrives, fun h name _ => h name⟩

/-- What can be seen of the steps is the same, and so are the old names that they take and the
fault that ends them. -/
structure SameView (view : Change α → β) (c c' : Changes α) : Prop where
  fault : c.fault = c'.fault
  sources : sources c.steps = sources c'.steps
  steps : c.steps.map view = c'.steps.map view

/-- Two pairs of maps have the same names, their new entities have the same markers, and nothing of
what else tells their entities apart can be seen in a step from the one map to the other. -/
structure LookAlike (marker : α → Option String) (view : Change α → β)
    (prev next prev' next' : OrderedMap α) : Prop where
  names_prev : prev.names = prev'.names
  names_next : next.names = next'.names
  arrivals : SameArrivals marker prev next next'
  create {name : String} {entity entity' : α} : next.find? name = some entity →
    next'.find? name = some entity' → view (.create name entity) = view (.create name entity')
  rename {source target : String} {before before' : α} : prev.find? source = some before →
    prev'.find? source = some before' →
      view (.rename source target before) = view (.rename source target before')
  remove {name : String} {before before' : α} : prev.find? name = some before →
    prev'.find? name = some before' → view (.remove name before) = view (.remove name before')
  change {source target : String} {before before' entity entity' : α} :
    isReserved source = false ∧ source = target ∨ Moves marker prev next source target →
      prev.find? source = some before → prev'.find? source = some before' →
        next.find? target = some entity → next'.find? target = some entity' →
          view (.change target before entity) = view (.change target before' entity')

section Select

variable {map map' : OrderedMap α} {names : List String}

theorem find?_of_names_eq (hnames : map.names = map'.names) {name : String} {entity : α}
    (h : map.find? name = some entity) : ∃ entity', map'.find? name = some entity' :=
  OrderedMap.mem_names_iff.1 (hnames ▸ OrderedMap.mem_names_of_find? h)

theorem find?_eq_none_of_names_eq (hnames : map.names = map'.names) {name : String}
    (h : map.find? name = none) : map'.find? name = none :=
  OrderedMap.find?_eq_none_iff.2 (hnames ▸ OrderedMap.find?_eq_none_iff.1 h)

theorem contains_eq_of_names_eq (hnames : map.names = map'.names) (name : String) :
    map.contains name = map'.contains name := by
  rw [Bool.eq_iff_iff, OrderedMap.contains_iff, OrderedMap.contains_iff, hnames]

/-- What is made of the selected entities is the same if it is for each name. -/
theorem filterMap_select_congr {f f' : String × α → Option β} (hnames : map.names = map'.names)
    (h : ∀ name ∈ names, ∀ {entity entity'}, map.find? name = some entity →
      map'.find? name = some entity' → f (name, entity) = f' (name, entity')) :
    (select map names).filterMap f = (select map' names).filterMap f' := by
  rw [select, select, List.filterMap_filterMap, List.filterMap_filterMap]
  apply List.filterMap_congr
  intro name hname
  cases hentity : map.find? name with
  | none => rw [find?_eq_none_of_names_eq hnames hentity]; rfl
  | some entity =>
    obtain ⟨entity', hentity'⟩ := find?_of_names_eq hnames hentity
    rw [hentity']
    exact h name hname hentity hentity'

theorem select_cons {name : String} {entity : α} (h : map.find? name = some entity) :
    select map (name :: names) = (name, entity) :: select map names := by
  simp [select, h]

end Select

section

variable {prev next prev' next' : OrderedMap α} {taken : List String}

/-- An old name can be taken in both pairs of maps or in none of them, and for the same reason. -/
theorem renameSource_cases (taken : List String) (hprev : prev.names = prev'.names)
    (hnext : next.names = next'.names) (source : String) :
    (∃ problem, renameSource prev next taken source = .error problem ∧
      renameSource prev' next' taken source = .error problem) ∨
    ∃ before before', prev.find? source = some before ∧ prev'.find? source = some before' ∧
      renameSource prev next taken source = .ok before ∧
        renameSource prev' next' taken source = .ok before' := by
  unfold renameSource
  rw [← contains_eq_of_names_eq hnext]
  cases hbefore : prev.find? source with
  | none =>
    rw [find?_eq_none_of_names_eq hprev hbefore]
    exact .inl ⟨.noSource, rfl, rfl⟩
  | some before =>
    obtain ⟨before', hbefore'⟩ := find?_of_names_eq hprev hbefore
    rw [hbefore']
    cases next.contains source with
    | true => exact .inl ⟨.sourceKept, rfl, rfl⟩
    | false =>
      cases htaken : taken.contains source with
      | true => exact .inl ⟨.sourceTaken, rfl, rfl⟩
      | false => exact .inr ⟨before, before', rfl, rfl, rfl, rfl⟩

/-- New entities that look alike are added by steps that do. -/
theorem LookAlike.additions (h : LookAlike marker view prev next prev' next')
    {names : List String} (hnames : ∀ name ∈ names, Arrives prev next name) :
    SameView view (additions marker prev next taken (select next names))
      (additions marker prev' next' taken (select next' names)) := by
  induction names generalizing taken with
  | nil => exact ⟨rfl, rfl, rfl⟩
  | cons name rest ih =>
    have ih {taken : List String} :
        SameView view (Changes.additions marker prev next taken (select next rest))
          (Changes.additions marker prev' next' taken (select next' rest)) :=
      ih fun n hn => hnames n (List.mem_cons_of_mem _ hn)
    have harrives := hnames name List.mem_cons_self
    obtain ⟨entity, hentity⟩ := OrderedMap.mem_names_iff.1 harrives.2.1
    obtain ⟨entity', hentity'⟩ := find?_of_names_eq h.names_next hentity
    have hmarker : marker entity = marker entity' := by
      simpa [hentity, hentity'] using h.arrivals name harrives
    rw [select_cons hentity, select_cons hentity']
    simp only [Changes.additions]
    rw [← hmarker]
    cases hsource : marker entity with
    | none =>
      refine ⟨ih.fault, ih.sources, ?_⟩
      simp only [List.map_cons]
      rw [h.create hentity hentity', ih.steps]
    | some source =>
      have hmoves : Moves marker prev next source name :=
        moves_iff.2 ⟨entity, harrives, hentity, hsource⟩
      obtain ⟨problem, hproblem, hproblem'⟩ | ⟨before, before', hbefore, hbefore', hok, hok'⟩ :=
        renameSource_cases taken h.names_prev h.names_next source
      · -- The fault ends the steps of both, and it is the same.
        simp only [hproblem, hproblem']
        exact ⟨rfl, rfl, rfl⟩
      · simp only [hok, hok']
        refine ⟨ih.fault, congrArg (source :: ·) ih.sources, ?_⟩
        simp only [List.map_cons]
        rw [h.rename hbefore hbefore', h.change (.inr hmoves) hbefore hbefore' hentity hentity',
          ih.steps]

/-- Traversals that look alike take steps that look the same, and end with the same fault. -/
theorem LookAlike.between (h : LookAlike marker view prev next prev' next') :
    (between marker prev next).fault = (between marker prev' next').fault ∧
      (between marker prev next).steps.map view = (between marker prev' next').steps.map view := by
  have hadded : SameView view
      (Changes.additions marker prev next []
        (select next (NameDiff.between prev.names next.names).added))
      (Changes.additions marker prev' next' []
        (select next' (NameDiff.between prev.names next.names).added)) :=
    h.additions fun _ => arrives_iff_mem_added.1
  unfold Changes.between
  rw [← h.names_prev, ← h.names_next]
  simp only [← hadded.fault, ← hadded.sources]
  split
  · exact ⟨hadded.fault, hadded.steps⟩
  · refine ⟨rfl, ?_⟩
    simp only [List.map_append, hadded.steps, List.map_map, List.map_filterMap]
    congr 1
    · congr 1
      -- Which names are removed is the same, so only the steps are left to compare.
      rw [← List.filterMap_eq_map, List.filterMap_filter, List.filterMap_filter]
      apply filterMap_select_congr h.names_prev
      intro name _ before before' hbefore hbefore'
      simp only [Function.comp_apply, h.remove hbefore hbefore']
    · apply filterMap_select_congr h.names_next
      intro name hname entity entity' hentity hentity'
      have hcommon := NameDiff.mem_common_iff.1 hname
      obtain ⟨before, hbefore⟩ := OrderedMap.mem_names_iff.1 hcommon.2.1
      obtain ⟨before', hbefore'⟩ := find?_of_names_eq h.names_prev hbefore
      simp only [hbefore, hbefore', Option.map_some,
        h.change (.inl ⟨hcommon.1, rfl⟩) hbefore hbefore' hentity hentity']

end

end Changes

/-! ### What markers do not touch -/

section Images

variable {α : Type u} {β : Type v} {f : α → β} {m m' : OrderedMap α}

theorem OrderedMap.names_eq_of_map_eq (h : m.map f = m'.map f) : m.names = m'.names := by
  rw [← names_map f m, h, names_map]

theorem OrderedMap.eq_of_map_eq (h : m.map f = m'.map f) {name : String} {a a' : α}
    (ha : m.find? name = some a) (ha' : m'.find? name = some a') : f a = f a' := by
  have hfind := congrArg (fun image => image.find? name) h
  simpa [ha, ha'] using hfind

theorem OrderedMap.contains_map (f : α → β) (m : OrderedMap α) (name : String) :
    (m.map f).contains name = m.contains name := by
  rw [contains, find?_map, Option.isSome_map, contains]

end Images

/-- Tables that differ in markers only have the same fields under the same names. -/
theorem Table.field_eq_of_canonical_eq {table table' : Table}
    (h : table.canonical = table'.canonical) {name : String} {column column' : Column}
    (hcolumn : table.columns.find? name = some column)
    (hcolumn' : table'.columns.find? name = some column') : column.field = column'.field := by
  have hfields : table.field? name = table'.field? name := by
    rw [← field?_canonical, h, field?_canonical]
  rw [field?_of_find? hcolumn, field?_of_find? hcolumn'] at hfields
  exact Option.some.inj hfields

/-- The checks of a schema do not read markers. -/
theorem Schema.checks_canonical (schema : Schema) : schema.canonical.checks = schema.checks := by
  have hatom (relation : ColumnRef) (side : Endpoint) (target : ColumnRef) :
      schema.canonical.endpointAtom relation side target =
        schema.endpointAtom relation side target := by
    rw [endpointAtom, endpointAtom, table?_canonical]
    cases schema.table? target.table <;> simp
  have hfield (table : Table) (name : ColumnRef) (field : Field) :
      schema.canonical.fieldCheck table.canonical name field =
        schema.fieldCheck table name field := by
    cases field with
    | relation relation => simp only [fieldCheck, relationCheck, hatom]
    | aliasTo target =>
      simp only [fieldCheck, aliasCheck, Table.canonical, OrderedMap.contains_map]
    | atom a => rfl
    | index definition => rfl
    | constraint definition => rfl
  have hentries : schema.canonical.tables.entries =
      schema.tables.entries.map fun e => (e.1, e.2.canonical) := rfl
  have hcolumns (table : Table) : table.canonical.columns.entries =
      table.columns.entries.map fun e => (e.1, e.2.canonical) := rfl
  unfold checks
  simp only [hentries, List.flatMap_map, hcolumns, hfield, Column.canonical]

/-- A schema is valid or not, and for the same reason, whatever its markers are. -/
theorem requireValid_eq_of_canonical_eq {schema schema' : Schema}
    (h : schema.canonical = schema'.canonical) : requireValid schema = requireValid schema' := by
  have hchecks : schema.checks = schema'.checks := by
    rw [← Schema.checks_canonical schema, h, Schema.checks_canonical]
  simp only [requireValid, Schema.validate, Schema.violation?, hchecks]

/-! ### Planning -/

namespace Plan

variable {config : MigrationConfig}

theorem follow_congr {α : Type} {step : Plan → Change α → Except MigrationError Plan}
    {qualify : String → String} {changes changes' : Changes α}
    (hfault : changes.fault = changes'.fault)
    (hsteps : changes.steps.map (fun change plan => step plan change) =
      changes'.steps.map fun change plan => step plan change) (plan : Plan) :
    follow step qualify plan changes = follow step qualify plan changes' := by
  have hfold (steps : List (Change α)) : steps.foldlM step plan =
      (steps.map fun change plan => step plan change).foldlM (fun plan run => run plan) plan := by
    rw [List.foldlM_map]
  unfold follow
  rw [hfold, hfold, hsteps, hfault]

/-- The columns of a table are planned the same way, whatever their idle markers are. -/
theorem columnSteps_eq_of_canonical_eq {before before' after after' : Table}
    (hbefore : before.canonical = before'.canonical) (hafter : after.canonical = after'.canonical)
    (harrivals :
      Changes.SameArrivals Column.renamedFrom before.columns after.columns after'.columns)
    (table : String) (plan : Plan) :
    columnSteps config table plan before.columns after.columns =
      columnSteps config table plan before'.columns after'.columns := by
  have hcolumns := congrArg Table.columns hbefore
  have hcolumns' := congrArg Table.columns hafter
  have hsteps : Changes.LookAlike Column.renamedFrom
      (fun change plan => columnStep config table plan change)
      before.columns after.columns before'.columns after'.columns := by
    refine ⟨OrderedMap.names_eq_of_map_eq hcolumns, OrderedMap.names_eq_of_map_eq hcolumns',
      harrivals, ?_, ?_, ?_, ?_⟩
    · intro name next next' hnext hnext'
      have hfield := Table.field_eq_of_canonical_eq hafter hnext hnext'
      funext plan
      simp only [columnStep, hfield, Column.canonical]
    · intro source target prev prev' hprev hprev'
      have hfield := Table.field_eq_of_canonical_eq hbefore hprev hprev'
      funext plan
      simp only [columnStep, hfield]
    · intro name prev prev' hprev hprev'
      have hfield := Table.field_eq_of_canonical_eq hbefore hprev hprev'
      funext plan
      simp only [columnStep, hfield]
    · intro source target prev prev' next next' _ hprev hprev' hnext hnext'
      have hfield := Table.field_eq_of_canonical_eq hbefore hprev hprev'
      have hfield' := Table.field_eq_of_canonical_eq hafter hnext hnext'
      funext plan
      simp only [columnStep, hfield, hfield', Column.canonical]
  exact follow_congr hsteps.between.1 hsteps.between.2 plan

end Plan

/-! ### Schemas -/

/-- Two pairs of schemas are the same but for idle markers: those of the previous schemas, and
those of the next ones that are not on a table that is new, nor on a column that is new in a table
that stays or moves. -/
structure UpToIdleMarkers (prev next prev' next' : Schema) : Prop where
  /-- The previous schemas differ in markers only. -/
  canonical_prev : prev.canonical = prev'.canonical
  /-- So do the next ones. -/
  canonical_next : next.canonical = next'.canonical
  /-- New tables have the same markers. -/
  tables : Changes.SameArrivals Table.renamedFrom prev.tables next.tables next'.tables
  /-- New columns have the same markers, in a table that continues one. -/
  columns {source target : String} {before after after' : Table} :
    Continues prev next source target → prev.table? source = some before →
      next.table? target = some after → next'.table? target = some after' →
        Changes.SameArrivals Column.renamedFrom before.columns after.columns after'.columns

section Pairs

variable {config : MigrationConfig} {prev next prev' next' : Schema}

/-- The tables are planned the same way, whatever the idle markers are. -/
theorem UpToIdleMarkers.tableSteps_eq (h : UpToIdleMarkers prev next prev' next') (plan : Plan) :
    Plan.tableSteps config plan prev.tables next.tables =
      Plan.tableSteps config plan prev'.tables next'.tables := by
  have htables := congrArg Schema.tables h.canonical_prev
  have htables' := congrArg Schema.tables h.canonical_next
  have hsteps : Changes.LookAlike Table.renamedFrom
      (fun change plan => Plan.tableStep config plan change)
      prev.tables next.tables prev'.tables next'.tables := by
    refine ⟨OrderedMap.names_eq_of_map_eq htables, OrderedMap.names_eq_of_map_eq htables',
      h.tables, ?_, ?_, ?_, ?_⟩
    · intro name after after' hafter hafter'
      have hcanonical : after.canonical = after'.canonical :=
        OrderedMap.eq_of_map_eq htables' hafter hafter'
      have hcreating : Statement.creating name after = Statement.creating name after' := by
        rw [← Statement.creating_canonical, hcanonical, Statement.creating_canonical]
      funext plan
      simp only [Plan.tableStep, hcreating, hcanonical]
    · intro source target before before' _ _
      rfl
    · intro name before before' _ _
      rfl
    · intro source target before before' after after' hcontinues hbefore hbefore' hafter hafter'
      funext plan
      exact Plan.columnSteps_eq_of_canonical_eq (OrderedMap.eq_of_map_eq htables hbefore hbefore')
        (OrderedMap.eq_of_map_eq htables' hafter hafter')
        (h.columns hcontinues hbefore hafter hafter') target plan
  exact Plan.follow_congr hsteps.between.1 hsteps.between.2 plan

/-- Markers are read only where a renaming can happen: idle markers make no difference to the
migration, or to the failure where there is none. -/
theorem migrate_eq_of_idleMarkers (h : UpToIdleMarkers prev next prev' next') :
    migrate config prev next = migrate config prev' next' := by
  unfold migrate
  rw [requireValid_eq_of_canonical_eq h.canonical_prev,
    requireValid_eq_of_canonical_eq h.canonical_next, h.canonical_prev, h.canonical_next,
    h.tableSteps_eq]

end Pairs

/-- It can be tested whether two pairs of schemas are the same but for idle markers: the names that
the conditions speak of are names of tables and columns. -/
instance {prev next prev' next' : Schema} : Decidable (UpToIdleMarkers prev next prev' next') :=
  decidable_of_iff
    (prev.canonical = prev'.canonical ∧ next.canonical = next'.canonical ∧
      Changes.SameArrivals Table.renamedFrom prev.tables next.tables next'.tables ∧
      ∀ source ∈ prev.tables.names, ∀ target ∈ next.tables.names,
        Continues prev next source target → ∀ before ∈ prev.table? source,
          ∀ after ∈ next.table? target, ∀ after' ∈ next'.table? target,
            Changes.SameArrivals Column.renamedFrom before.columns after.columns after'.columns)
    ⟨fun ⟨hprev, hnext, htables, hcolumns⟩ => ⟨hprev, hnext, htables,
        fun hcontinues hbefore hafter hafter' => hcolumns _ (OrderedMap.mem_names_of_find? hbefore)
          _ (OrderedMap.mem_names_of_find? hafter) hcontinues _ hbefore _ hafter _ hafter'⟩,
      fun h => ⟨h.canonical_prev, h.canonical_next, h.tables,
        fun _ _ _ _ hcontinues _ hbefore _ hafter _ hafter' =>
          h.columns hcontinues hbefore hafter hafter'⟩⟩

/-- Two tables, with markers of renamings that have been done. -/
def Schema.withStaleMarkers : Schema :=
  ⟨.ofList
    [("kept", ⟨.ofList [("x", ⟨.integer "", some "w"⟩)], some "past"⟩),
      ("old", ⟨.ofList [("y", ⟨.integer "", some "x"⟩), ("__seen", ⟨.integer "", none⟩)], none⟩)]⟩

/-- The one table is renamed, and so is its column; there is a further column and a further table;
and there are markers on all of them. -/
def Schema.withIdleMarkers : Schema :=
  ⟨.ofList
    [("kept", ⟨.ofList [("x", ⟨.integer "", some "y"⟩), ("same", ⟨.aliasTo "x", none⟩)],
        some "old"⟩),
      ("new", ⟨.ofList [("z", ⟨.integer "", some "y"⟩), ("__seen", ⟨.integer "", some "y"⟩)],
        some "old"⟩),
      ("fresh", ⟨.ofList [("y", ⟨.integer "", some "old"⟩)], none⟩)]⟩

/-- The same, with those markers only that are of a table or a column that is renamed. -/
def Schema.withoutIdleMarkers : Schema :=
  ⟨.ofList
    [("kept", ⟨.ofList [("x", ⟨.integer "", none⟩), ("same", ⟨.aliasTo "x", none⟩)], none⟩),
      ("new", ⟨.ofList [("z", ⟨.integer "", some "y"⟩), ("__seen", ⟨.integer "", none⟩)],
        some "old"⟩),
      ("fresh", ⟨.ofList [("y", ⟨.integer "", none⟩)], none⟩)]⟩

/-- Neither what the previous schema carries nor what is idle in the next one makes a difference;
the two markers that are not idle do. -/
theorem migrate_eq_of_idleMarkers_stale :
    UpToIdleMarkers .withStaleMarkers .withIdleMarkers Schema.withStaleMarkers.canonical
        .withoutIdleMarkers ∧
      migrate {} .withStaleMarkers .withIdleMarkers =
        migrate {} Schema.withStaleMarkers.canonical .withoutIdleMarkers ∧
      (migrate {} .withStaleMarkers .withIdleMarkers).map Migration.statements = .ok
        [.renameTable "old" "new", .renameColumn "new" "y" "z",
          .createTable "fresh" [("y", ⟨"INTEGER", .number, ""⟩)] []] ∧
      migrate {} .withStaleMarkers Schema.withoutIdleMarkers.canonical =
        .error (.unsafeDrop "old") := by
  have hidle : UpToIdleMarkers .withStaleMarkers .withIdleMarkers
      Schema.withStaleMarkers.canonical .withoutIdleMarkers := by
    decide
  exact ⟨hidle, migrate_eq_of_idleMarkers hidle, by decide, by decide⟩

end Schemata
