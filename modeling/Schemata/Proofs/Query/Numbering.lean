import Schemata.Proofs.Query.Lookup

/-!
# The numbers of table instances

Table instances are numbered in the order in which they are entered, and the numbering goes on
through nested steps, through failures at any depth and from one query to the next. A number is taken
at the moment an instance is entered and at no other: what fails before that takes none, and what
fails after it gives none back.

For this it does not matter what is done between two entries. Whatever a computation does, if it
changes the state by entering instances only, it goes on with the numbers where it was, and it may
catch failures of its parts on the way. The steps of programs are such computations.

That no two nodes of a query have one alias does not follow from the numbering alone, as a field can
be replaced by a later one of the same name. It is counted: a step adds to a selection at most the
aliases that it takes.

## Main definitions

* `Build.ByEntering`: computations that change the state by entering instances only
* `BuildState.Advances`: a state has entered further instances under the next aliases
* `Node.instanceAliases`, `Selection.instanceAliases`: the aliases of all nodes of a query
* `AliasSupply.serve`: the aliases that users of one supply get, who ask for one at a time

## Main results

* `Build.ByEntering.advances`: such computations number the instances that they enter
* `Step.run_byEntering`, `Program.build_byEntering`: steps and programs are such computations
* `Program.count_instanceAliases_le`: a query has an alias at most as often as it was taken
* `buildAll_numbered`: the aliases of all queries of one supply
-/

namespace Schemata

/-! ### Supplies -/

namespace AliasSupply

variable {supply : AliasSupply}

/-- The supply after so many further aliases have been handed out. -/
def after (supply : AliasSupply) (count : Nat) : AliasSupply :=
  { supply with used := supply.used + count }

@[simp] theorem after_zero (supply : AliasSupply) : supply.after 0 = supply := rfl

theorem after_after (supply : AliasSupply) (m n : Nat) :
    (supply.after m).after n = supply.after (m + n) := by
  simp [after, Nat.add_assoc]

theorem take_eq_map_range (supply : AliasSupply) (count : Nat) :
    supply.take count = (List.range count).map fun i => (supply.after i).fresh := by
  induction count generalizing supply with
  | zero => rfl
  | succ count ih =>
    rw [take, ih, List.range_succ_eq_map, List.map_cons, List.map_map]
    refine congrArg (supply.fresh :: ·) (List.map_congr_left fun i _ => ?_)
    simp [advance, after, Nat.add_comm, Nat.add_left_comm]

/-- The next aliases and those after them. -/
theorem take_add (supply : AliasSupply) (m n : Nat) :
    supply.take (m + n) = supply.take m ++ (supply.after m).take n := by
  simp only [take_eq_map_range, List.range_add, List.map_append, List.map_map, after_after,
    Function.comp_def]

/-- What users of one supply get, if each of them asks for one alias at a time, in this order. -/
def serve {ι : Type} (supply : AliasSupply) : List ι → List (ι × String)
  | [] => []
  | user :: rest => (user, supply.fresh) :: supply.advance.serve rest

/-- In whatever order the users ask, they get the next aliases in that order. -/
theorem map_snd_serve {ι : Type} (supply : AliasSupply) (users : List ι) :
    (supply.serve users).map Prod.snd = supply.take users.length := by
  induction users generalizing supply with
  | nil => rfl
  | cons user rest ih => rw [serve, List.map_cons, ih, List.length_cons, take]

end AliasSupply

/-! ### Computations that enter instances -/

/-- The second state is reached from the first by entering the instances, under the next aliases. -/
structure BuildState.Advances (state state' : BuildState) (later : List Handle) : Prop where
  entered_eq : state'.entered = state.entered ++ later
  supply_eq : state'.supply = state.supply.after later.length
  aliases_eq : later.map Handle.instanceAlias = state.supply.take later.length

namespace BuildState

variable {state state' state'' : BuildState} {later later' : List Handle}

theorem Advances.refl (state : BuildState) : state.Advances state [] :=
  ⟨(List.append_nil _).symm, rfl, rfl⟩

theorem Advances.trans (h : state.Advances state' later) (h' : state'.Advances state'' later') :
    state.Advances state'' (later ++ later') where
  entered_eq := by rw [h'.entered_eq, h.entered_eq, List.append_assoc]
  supply_eq := by rw [h'.supply_eq, h.supply_eq, AliasSupply.after_after, List.length_append]
  aliases_eq := by
    rw [List.map_append, h.aliases_eq, h'.aliases_eq, h.supply_eq, List.length_append,
      AliasSupply.take_add]

/-- Entering one instance. -/
theorem Advances.single (state : BuildState) (name : String) (table : Table) :
    state.Advances ⟨state.supply.advance, state.entered ++ [⟨name, table, state.supply.fresh⟩]⟩
      [⟨name, table, state.supply.fresh⟩] :=
  ⟨rfl, rfl, rfl⟩

end BuildState

namespace Build

variable {α β : Type} {schema : Schema} {state : BuildState}

/-- The computation changes the state by entering instances only. It may fail, and it may go on after
a failure. -/
inductive ByEntering (schema : Schema) : {α : Type} → Build α → Prop
  | pure {α : Type} (a : α) : ByEntering schema (Pure.pure a : Build α)
  | fail {α : Type} (e : QueryError) : ByEntering schema (throw e : Build α)
  | enter (name : String) : ByEntering schema (Schemata.enter schema name)
  | bind {α β : Type} {x : Build α} {f : α → Build β} (hx : ByEntering schema x)
      (hf : ∀ a, ByEntering schema (f a)) : ByEntering schema (x >>= f)
  | recover {α : Type} {x : Build α} {handler : QueryError → Build α} (hx : ByEntering schema x)
      (hhandler : ∀ e, ByEntering schema (handler e)) : ByEntering schema (tryCatch x handler)

/-- What comes after a computation is done with its result, and not at all if it fails. -/
theorem run_bind (x : Build α) (f : α → Build β) (state : BuildState) :
    (x >>= f).run.run state = match x.run.run state with
      | (.ok a, middle) => (f a).run.run middle
      | (.error e, middle) => (.error e, middle) := by
  change ExceptT.bindCont f (x.run.run state).1 (x.run.run state).2 = _
  cases x.run.run state with
  | mk result middle => cases result <;> rfl

/-- A failure that is caught leaves the state as it is at that moment. -/
theorem run_tryCatch (x : Build α) (handler : QueryError → Build α) (state : BuildState) :
    (tryCatch x handler).run.run state = match x.run.run state with
      | (.ok a, middle) => (.ok a, middle)
      | (.error e, middle) => (handler e).run.run middle := by
  rw [ExceptT.run_tryCatch, StateT.run_bind]
  cases x.run.run state with
  | mk result middle => cases result <;> rfl

theorem run_lift (e : Except QueryError α) (state : BuildState) :
    (liftExcept e : Build α).run.run state = (e, state) := by
  cases e <;> rfl

theorem run_enter (schema : Schema) (name : String) (state : BuildState) :
    (Schemata.enter schema name).run.run state = match schema.table? name with
      | none => (.error (.unknownTable name), state)
      | some table => (.ok ⟨name, table, state.supply.fresh⟩,
          ⟨state.supply.advance, state.entered ++ [⟨name, table, state.supply.fresh⟩]⟩) := by
  unfold Schemata.enter
  cases schema.table? name <;> rfl

/-- Whatever such a computation comes to, the instances that it has entered have the next aliases. -/
theorem ByEntering.advances {x : Build α} (h : ByEntering schema x) (state : BuildState) :
    ∃ later, state.Advances (x.run.run state).2 later := by
  induction h generalizing state with
  | pure a => exact ⟨[], .refl state⟩
  | fail e => exact ⟨[], .refl state⟩
  | enter name =>
    rw [run_enter]
    cases schema.table? name with
    | none => exact ⟨[], .refl state⟩
    | some table => exact ⟨_, .single state name table⟩
  | @bind _ _ x f _ _ ihx ihf =>
    obtain ⟨later, hfirst⟩ := ihx state
    rw [run_bind]
    match hrun : x.run.run state with
    | (.error e, middle) =>
      rw [hrun] at hfirst
      exact ⟨later, hfirst⟩
    | (.ok a, middle) =>
      rw [hrun] at hfirst
      obtain ⟨later', hrest⟩ := ihf a middle
      exact ⟨later ++ later', hfirst.trans hrest⟩
  | @recover _ x handler _ _ ihx ihhandler =>
    obtain ⟨later, hfirst⟩ := ihx state
    rw [run_tryCatch]
    match hrun : x.run.run state with
    | (.ok a, middle) =>
      rw [hrun] at hfirst
      exact ⟨later, hfirst⟩
    | (.error e, middle) =>
      rw [hrun] at hfirst
      obtain ⟨later', hrest⟩ := ihhandler e middle
      exact ⟨later ++ later', hfirst.trans hrest⟩

theorem ByEntering.lift (e : Except QueryError α) :
    ByEntering schema (liftExcept e : Build α) := by
  cases e with
  | error e => exact .fail e
  | ok a => exact .pure a

end Build

mutual

/-- A step changes the state by entering instances only. -/
theorem Step.run_byEntering {schema : Schema} : ∀ (step : Step) (handle : Handle)
    (outer : List Handle) (selection : Selection),
    Build.ByEntering schema (step.run schema handle outer selection)
  | .column field name levels => by
    intro handle outer selection
    rw [Step.run]
    exact .bind (.lift _) fun _ => .pure _
  | .leaf field fixed => by
    intro handle outer selection
    rw [Step.run]
    exact .pure _
  | .expr field template => by
    intro handle outer selection
    rw [Step.run]
    exact .bind (.lift _) fun _ => .pure _
  | .relation field name steps levels => by
    intro handle outer selection
    rw [Step.run]
    refine .bind (.lift _) fun _ => .bind (.enter _) fun _ => ?_
    exact .bind (Step.runAll_byEntering steps _ _ _) fun _ => .pure _
  | .build field table cardinality steps => by
    intro handle outer selection
    rw [Step.run]
    exact .bind (.enter _) fun _ => .bind (Step.runAll_byEntering steps _ _ _) fun _ => .pure _
  | .filter template => by
    intro handle outer selection
    rw [Step.run]
    exact .bind (.lift _) fun _ => .pure _
  | .orderBy template => by
    intro handle outer selection
    rw [Step.run]
    exact .bind (.lift _) fun _ => .pure _
  | .groupBy template => by
    intro handle outer selection
    rw [Step.run]
    exact .bind (.lift _) fun _ => .pure _
  | .limit n => by
    intro handle outer selection
    rw [Step.run]
    exact .pure _

/-- So do steps one after the other. -/
theorem Step.runAll_byEntering {schema : Schema} : ∀ (steps : List Step) (handle : Handle)
    (outer : List Handle) (selection : Selection),
    Build.ByEntering schema (Step.runAll schema handle outer selection steps)
  | [] => by
    intro handle outer selection
    rw [Step.runAll]
    exact .pure _
  | step :: rest => by
    intro handle outer selection
    rw [Step.runAll]
    exact .bind (Step.run_byEntering step _ _ _) fun _ => Step.runAll_byEntering rest _ _ _

end

theorem Program.build_byEntering (schema : Schema) (program : Program) :
    Build.ByEntering schema (program.build schema) :=
  .bind (.enter _) fun _ => Step.runAll_byEntering _ _ _ _

/-! ### When a number is taken -/

section Entries

variable {schema : Schema} {state : BuildState}

/-- What comes after an instance has been entered does not give its number back. -/
theorem Build.advances_of_enter {α : Type} {name : String} {table : Table} (state : BuildState)
    (htable : schema.table? name = some table) {f : Handle → Build α}
    (hf : ∀ handle, Build.ByEntering schema (f handle)) :
    ∃ later, state.Advances ((enter schema name >>= f).run.run state).2
      (⟨name, table, state.supply.fresh⟩ :: later) := by
  have hentered := BuildState.Advances.single state name table
  obtain ⟨later, hrest⟩ := (hf ⟨name, table, state.supply.fresh⟩).advances
    ⟨state.supply.advance, state.entered ++ [⟨name, table, state.supply.fresh⟩]⟩
  rw [Build.run_bind, Build.run_enter, htable]
  exact ⟨later, hentered.trans hrest⟩

/-- A query on a table that is not there takes no number. -/
theorem Program.run_build_of_unknown {program : Program}
    (h : schema.table? program.table = none) :
    (program.build schema).run.run state = (.error (.unknownTable program.table), state) := by
  rw [Program.build, Build.run_bind, Build.run_enter, h]

/-- The relation that a step goes along, and the column that it starts from. -/
def Step.link (schema : Schema) (handle : Handle) (outer : List Handle) (name : String)
    (levels : Nat) : Except QueryError (Relation × Leaf) :=
  (enclosing handle outer levels).join schema name

variable {handle : Handle} {outer : List Handle} {selection : Selection} {field name : String}
variable {steps : List Step} {levels : Nat}

/-- A relation that cannot be gone along takes no number. -/
theorem Step.run_relation_of_error {e : QueryError}
    (h : Step.link schema handle outer name levels = .error e) :
    ((Step.relation field name steps levels).run schema handle outer selection).run.run state =
      (.error e, state) := by
  rw [link] at h
  rw [Step.run, Build.run_bind, Build.run_lift, h]

/-- A relation that can be gone along takes the next number, whatever becomes of the steps inside. -/
theorem Step.advances_relation {link : Relation} {source : Leaf}
    (h : Step.link schema handle outer name levels = .ok (link, source)) :
    ∃ table later, schema.table? link.destination.table = some table ∧ state.Advances
      (((Step.relation field name steps levels).run schema handle outer
        selection).run.run state).2
      (⟨link.destination.table, table, state.supply.fresh⟩ :: later) := by
  obtain ⟨declared, -, -, hsome⟩ := Handle.join_eq_ok_iff.1 h
  -- The destination is looked up beforehand, so its table is there when it is to be entered.
  obtain ⟨table, htable⟩ : ∃ table, schema.table? link.destination.table = some table := by
    cases htable : schema.table? link.destination.table with
    | none => simp [Schema.field?, htable] at hsome
    | some table => exact ⟨table, rfl⟩
  rw [Step.link] at h
  rw [Step.run, Build.run_bind, Build.run_lift, h]
  obtain ⟨later, hlater⟩ := Build.advances_of_enter state htable fun inner =>
    .bind (Step.runAll_byEntering steps inner (handle :: outer) (.of inner)) fun related => .pure
      (selection.setField field ((related.joinedBy (.equals (.column source)
        (.column ⟨inner.instanceAlias, link.destination.column⟩))).toNode link.cardinality))
  exact ⟨table, later, htable, hlater⟩

end Entries

/-! ### The aliases in a query -/

mutual

/-- The aliases of the relations in a node, each as often as it occurs. -/
def Node.instanceAliases : Node → List String
  | .leaf _ | .expr _ => []
  | .relation _ rows fields => rows.instanceAlias :: Node.fieldAliases fields

/-- The aliases of the relations in fields, each as often as it occurs. -/
def Node.fieldAliases : List (String × Node) → List String
  | [] => []
  | (_, node) :: rest => node.instanceAliases ++ Node.fieldAliases rest

end

/-- The aliases of all relations in a query, its root included. -/
def Selection.instanceAliases (selection : Selection) : List String :=
  selection.rows.instanceAlias :: Node.fieldAliases selection.fields

/-- The aliases of all instances that have been entered. -/
def BuildState.aliases (state : BuildState) : List String :=
  state.entered.map Handle.instanceAlias

section Counts

variable {schema : Schema} {name : String} {state state' : BuildState}

/-- A field that is written brings its own aliases, and may take those of another one away. -/
theorem count_fieldAliases_set_le (fields : List (String × Node)) (field : String) (node : Node) :
    (Node.fieldAliases (Entries.set fields field node)).count name ≤
      (Node.fieldAliases fields).count name + node.instanceAliases.count name := by
  induction fields with
  | nil => simp [Entries.set, Node.fieldAliases]
  | cons e rest ih =>
    obtain ⟨declared, known⟩ := e
    by_cases hsame : declared = field
    · simp only [Entries.set, hsame, ↓reduceIte, Node.fieldAliases, List.count_append]
      omega
    · simp only [Entries.set, hsame, ↓reduceIte, Node.fieldAliases, List.count_append]
      omega

/-- Of an alias, the selection has no more than before and than have been taken since. -/
def Selection.Gains (name : String) (before after : Selection) (state state' : BuildState) : Prop :=
  after.instanceAliases.count name + state.aliases.count name ≤
    before.instanceAliases.count name + state'.aliases.count name

theorem Selection.Gains.trans {before middle after : Selection} {state'' : BuildState}
    (h : before.Gains name middle state state') (h' : middle.Gains name after state' state'') :
    before.Gains name after state state'' := by
  unfold Gains at *
  omega

theorem Selection.gains_setField {selection : Selection} {field : String} {node : Node}
    (h : node.instanceAliases.count name + state.aliases.count name ≤ state'.aliases.count name) :
    selection.Gains name (selection.setField field node) state state' := by
  have hset : (Node.fieldAliases (Entries.set selection.fields field node)).count name ≤
      (Node.fieldAliases selection.fields).count name + node.instanceAliases.count name :=
    count_fieldAliases_set_le selection.fields field node
  simp only [Gains, instanceAliases, setField, List.count_cons]
  omega

theorem Selection.Gains.refl (selection : Selection) (state : BuildState) :
    selection.Gains name selection state state :=
  Nat.le_refl _

/-- What is selected from an instance that has been entered has aliases that were taken since. -/
theorem Selection.Gains.of_enter {table : String} {inner : Handle} {related : Selection}
    {middle : BuildState} (henter : (enter schema table).run.run state = (.ok inner, middle))
    (h : (Selection.of inner).Gains name related middle state') :
    related.instanceAliases.count name + state.aliases.count name ≤ state'.aliases.count name := by
  obtain ⟨declared, -, -, rfl⟩ := Build.run_enter_eq_ok_iff.1 henter
  simp only [Gains, BuildState.aliases, List.map_append, List.count_append, List.map_cons,
    List.map_nil, Selection.of, instanceAliases, Node.fieldAliases] at h ⊢
  omega

mutual

/-- Of every alias, a step adds no more to a selection than it takes. -/
theorem Step.run_gains : ∀ (step : Step) (handle : Handle) (outer : List Handle)
    (before after : Selection) (state state' : BuildState),
    (step.run schema handle outer before).run.run state = (.ok after, state') →
    before.Gains name after state state'
  | .column field source levels => by
    intro handle outer before after state state' hrun
    obtain ⟨leaf, -, rfl, rfl⟩ := Step.run_column_eq_ok_iff.1 hrun
    apply Selection.gains_setField
    simp [Node.instanceAliases]
  | .leaf field fixed => by
    intro handle outer before after state state' hrun
    obtain ⟨rfl, rfl⟩ := Step.run_leaf_eq_ok_iff.1 hrun
    apply Selection.gains_setField
    simp [Node.instanceAliases]
  | .expr field template => by
    intro handle outer before after state state' hrun
    obtain ⟨computed, -, rfl, rfl⟩ := Step.run_expr_eq_ok_iff.1 hrun
    apply Selection.gains_setField
    simp [Node.instanceAliases]
  | .relation field source steps levels => by
    intro handle outer before after state state' hrun
    obtain ⟨link, leaf, -, inner, _, henter, related, hsteps, rfl⟩ :=
      Step.run_relation_eq_ok_iff.1 hrun
    apply Selection.gains_setField
    -- The join in front of the other conditions leaves the alias of the rows alone.
    have hcount := Selection.Gains.of_enter henter (Step.runAll_gains steps _ _ _ _ _ _ hsteps)
    exact hcount
  | .build field table cardinality steps => by
    intro handle outer before after state state' hrun
    obtain ⟨inner, _, henter, built, hsteps, rfl⟩ := Step.run_build_eq_ok_iff.1 hrun
    apply Selection.gains_setField
    exact Selection.Gains.of_enter henter (Step.runAll_gains steps _ _ _ _ _ _ hsteps)
  | .filter template => by
    intro handle outer before after state state' hrun
    obtain ⟨computed, -, rfl, rfl⟩ := Step.run_filter_eq_ok_iff.1 hrun
    exact .refl before state
  | .orderBy template => by
    intro handle outer before after state state' hrun
    obtain ⟨computed, -, rfl, rfl⟩ := Step.run_orderBy_eq_ok_iff.1 hrun
    exact .refl before state
  | .groupBy template => by
    intro handle outer before after state state' hrun
    obtain ⟨computed, -, rfl, rfl⟩ := Step.run_groupBy_eq_ok_iff.1 hrun
    exact .refl before state
  | .limit n => by
    intro handle outer before after state state' hrun
    obtain ⟨rfl, rfl⟩ := Step.run_limit_eq_ok_iff.1 hrun
    exact .refl before state

/-- So do steps one after the other. -/
theorem Step.runAll_gains : ∀ (steps : List Step) (handle : Handle) (outer : List Handle)
    (before after : Selection) (state state' : BuildState),
    (Step.runAll schema handle outer before steps).run.run state = (.ok after, state') →
    before.Gains name after state state'
  | [] => by
    intro handle outer before after state state' hrun
    obtain ⟨rfl, rfl⟩ := Step.runAll_nil_eq_ok_iff.1 hrun
    exact .refl before state
  | step :: rest => by
    intro handle outer before after state state' hrun
    obtain ⟨middle, _, hstep, hrun⟩ := Step.runAll_cons_eq_ok_iff.1 hrun
    exact (Step.run_gains step _ _ _ _ _ _ hstep).trans
      (Step.runAll_gains rest _ _ _ _ _ _ hrun)

end

/-- A query has an alias at most as often as it was taken for it. -/
theorem Program.count_instanceAliases_le {program : Program} {selection : Selection}
    (h : (program.build schema).run.run state = (.ok selection, state')) :
    selection.instanceAliases.count name + state.aliases.count name ≤
      state'.aliases.count name := by
  obtain ⟨root, _, henter, hsteps⟩ := Build.run_bind_eq_ok_iff.1 h
  exact Selection.Gains.of_enter henter (Step.runAll_gains _ _ _ _ _ _ _ hsteps)

end Counts

/-! ### Queries one after the other -/

/-- The first aliases with a start. -/
def AliasSupply.first (start : String) (count : Nat) : List String :=
  (List.range count).map fun i => start ++ Nat.repr (i + 1)

theorem AliasSupply.take_eq_first (start : String) (count : Nat) :
    (AliasSupply.mk start 0).take count = first start count := by
  rw [take_eq_map_range, first]
  refine List.map_congr_left fun i _ => ?_
  rw [after, fresh, Nat.zero_add]

namespace BuildOutcome

/-- The aliases of the instances that were entered, in order. -/
def enteredAliases (outcome : BuildOutcome) : List String :=
  outcome.entered.map Handle.instanceAlias

/-- The aliases of all relations in the query; none if there is no query. -/
def instanceAliases (outcome : BuildOutcome) : List String :=
  match outcome.result with
  | .ok selection => selection.instanceAliases
  | .error _ => []

end BuildOutcome

section Sequences

variable {schema : Schema}

/-- What a query has taken from the supply, the next one does not find there. -/
theorem buildAll_cons (supply : AliasSupply) (program : Program) (rest : List Program) :
    schema.buildAll supply (program :: rest) =
      ⟨((program.build schema).run.run ⟨supply, []⟩).1,
        ((program.build schema).run.run ⟨supply, []⟩).2.entered⟩ ::
          schema.buildAll ((program.build schema).run.run ⟨supply, []⟩).2.supply rest :=
  rfl

/-- The queries of one supply are entered under its aliases, one after the other. -/
theorem exists_enteredAliases_eq_take (programs : List Program) (supply : AliasSupply) :
    ∃ count, (schema.buildAll supply programs).flatMap BuildOutcome.enteredAliases =
      supply.take count := by
  induction programs generalizing supply with
  | nil => exact ⟨0, rfl⟩
  | cons program rest ih =>
    obtain ⟨later, hlater⟩ := (program.build_byEntering schema).advances ⟨supply, []⟩
    obtain ⟨count, hcount⟩ := ih (supply.after later.length)
    refine ⟨later.length + count, ?_⟩
    have hentered := hlater.entered_eq
    rw [List.nil_append] at hentered
    rw [buildAll_cons, List.flatMap_cons, hlater.supply_eq, hcount, AliasSupply.take_add,
      ← hlater.aliases_eq, BuildOutcome.enteredAliases, hentered]

/-- The queries have an alias at most as often as it was entered for them. -/
theorem count_instanceAliases_le (name : String) (programs : List Program) (supply : AliasSupply) :
    ((schema.buildAll supply programs).flatMap BuildOutcome.instanceAliases).count name ≤
      ((schema.buildAll supply programs).flatMap BuildOutcome.enteredAliases).count name := by
  induction programs generalizing supply with
  | nil => exact Nat.le_refl _
  | cons program rest ih =>
    rw [buildAll_cons, List.flatMap_cons, List.flatMap_cons, List.count_append, List.count_append]
    refine Nat.add_le_add ?_ (ih _)
    match hrun : (program.build schema).run.run ⟨supply, []⟩ with
    | (.error e, state) => simp [BuildOutcome.instanceAliases]
    | (.ok selection, state) =>
      exact Nat.le_of_add_right_le (Program.count_instanceAliases_le hrun)

end Sequences

/-- Aliases are handed out without gap or repetition. Whatever programs are built one after the
other, and whatever becomes of each of them, the instances are entered under the start followed by
1, 2, 3 and so on, in that order, and no two relations of the queries have the same alias. The same
holds of every computation that enters instances, also if it catches failures. A query takes no
number if its table is not there, nor does a relation that cannot be gone along, and both take the
next number otherwise and keep it, whatever becomes of the steps inside. And in whatever order users
of one supply ask for aliases, they get the first ones, each of them once. The numbers are without
bound here: of a counter of 64 bits this speaks as long as it has counted fewer than 2^64 aliases. -/
theorem buildAll_numbered {schema : Schema} {start : String} :
    (∀ programs,
      (∃ count, (schema.buildAll ⟨start, 0⟩ programs).flatMap BuildOutcome.enteredAliases =
        AliasSupply.first start count) ∧
      ((schema.buildAll ⟨start, 0⟩ programs).flatMap BuildOutcome.instanceAliases).Nodup) ∧
    (∀ {α : Type} (x : Build α), Build.ByEntering schema x →
      ∃ count, (x.run.run ⟨⟨start, 0⟩, []⟩).2.aliases = AliasSupply.first start count) ∧
    (∀ (program : Program) (state : BuildState),
      (schema.table? program.table = none →
        (program.build schema).run.run state = (.error (.unknownTable program.table), state)) ∧
      ∀ table, schema.table? program.table = some table →
        ∃ later, state.Advances ((program.build schema).run.run state).2
          (⟨program.table, table, state.supply.fresh⟩ :: later)) ∧
    (∀ handle outer selection field name steps levels (state : BuildState),
      (∀ e, Step.link schema handle outer name levels = .error e →
        ((Step.relation field name steps levels).run schema handle outer selection).run.run state =
          (.error e, state)) ∧
      ∀ link source, Step.link schema handle outer name levels = .ok (link, source) →
        ∃ table later, schema.table? link.destination.table = some table ∧ state.Advances
          (((Step.relation field name steps levels).run schema handle outer
            selection).run.run state).2
          (⟨link.destination.table, table, state.supply.fresh⟩ :: later)) ∧
    ∀ {ι : Type} (users : List ι),
      ((AliasSupply.mk start 0).serve users).map Prod.snd = AliasSupply.first start users.length ∧
        (((AliasSupply.mk start 0).serve users).map Prod.snd).Nodup := by
  have hnodup (count : Nat) : (AliasSupply.first start count).Nodup := by
    rw [← AliasSupply.take_eq_first]
    exact AliasSupply.nodup_take _ count
  refine ⟨?_, ?_, ?_, ?_, ?_⟩
  · intro programs
    obtain ⟨count, hcount⟩ := exists_enteredAliases_eq_take programs ⟨start, 0⟩
    rw [AliasSupply.take_eq_first] at hcount
    refine ⟨⟨count, hcount⟩, ?_⟩
    -- The queries have an alias no more often than it was entered, and that is once at most.
    apply List.nodup_iff_count_le_one.2
    intro name
    refine Nat.le_trans (count_instanceAliases_le name programs ⟨start, 0⟩) ?_
    rw [hcount]
    exact List.nodup_iff_count_le_one.1 (hnodup count) name
  · intro α x hx
    obtain ⟨later, hlater⟩ := hx.advances ⟨⟨start, 0⟩, []⟩
    refine ⟨later.length, ?_⟩
    rw [BuildState.aliases, hlater.entered_eq, List.nil_append, hlater.aliases_eq,
      AliasSupply.take_eq_first]
  · intro program state
    refine ⟨Program.run_build_of_unknown, fun table htable => ?_⟩
    exact Build.advances_of_enter _ htable fun handle => Step.runAll_byEntering _ _ _ _
  · intro handle outer selection field name steps levels state
    exact ⟨fun e => Step.run_relation_of_error, fun link source => Step.advances_relation⟩
  · intro ι users
    have hserved := AliasSupply.map_snd_serve ⟨start, 0⟩ users
    rw [AliasSupply.take_eq_first] at hserved
    exact ⟨hserved, hserved ▸ hnodup users.length⟩

/-- The users with their posts, of which a column is asked for that there is not. -/
def usersWithTitles : Program where
  table := "User"
  steps := [.column "name" "name", .relation "posts" "posts" [.column "title" "title"]]

/-- A query that is built, one that fails inside a relation, one without a table, and one more: the
numbers go on from one to the next. -/
theorem buildAll_numbered_failing :
    (usersAndPosts.buildAll ⟨"t1", 0⟩
        [usersWithPosts, usersWithTitles, ⟨"Tag", []⟩, ⟨"Post", []⟩]).flatMap
          BuildOutcome.enteredAliases = ["t11", "t12", "t13", "t14", "t15", "t16"] ∧
      ((usersAndPosts.buildAll ⟨"t1", 0⟩
        [usersWithPosts, usersWithTitles, ⟨"Tag", []⟩, ⟨"Post", []⟩]).flatMap
          BuildOutcome.instanceAliases).Nodup ∧
      ((Program.mk "Tag" []).build usersAndPosts).run.run ⟨⟨"t1", 5⟩, []⟩ =
        (.error (.unknownTable "Tag"), ⟨⟨"t1", 5⟩, []⟩) ∧
      ∃ table later, usersAndPosts.table? "User" = some table ∧
        (BuildState.mk ⟨"t1", 3⟩ []).Advances
          ((usersWithTitles.build usersAndPosts).run.run ⟨⟨"t1", 3⟩, []⟩).2
          (⟨"User", table, "t14"⟩ :: later) := by
  obtain ⟨hprograms, -, hbuild, -⟩ := @buildAll_numbered usersAndPosts "t1"
  refine ⟨by decide +kernel, (hprograms _).2, (hbuild _ _).1 (by decide), ?_⟩
  obtain ⟨table, htable⟩ : ∃ table, usersAndPosts.table? "User" = some table := ⟨_, rfl⟩
  obtain ⟨later, hlater⟩ := (hbuild usersWithTitles ⟨⟨"t1", 3⟩, []⟩).2 table htable
  exact ⟨table, later, htable, hlater⟩

end Schemata
