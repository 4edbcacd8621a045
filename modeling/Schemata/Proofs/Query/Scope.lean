import Schemata.Proofs.Locality
import Schemata.Proofs.Query.Steps
import Schemata.Proofs.Schema.Validity
import Schemata.Text.Alphabetic

/-!
# Scopes of built queries

A column in a query is a pair of names: the alias of a table instance and a column. Nothing in such
a pair shows whether there is an instance of that alias around it, and whether its table stores a
column of that name; a wrong pair makes a statement that is well-formed and selects wrong rows. So
what is said here of built queries is said place by place, with the instances that lie around the
place: a relation and a query of its own add one to those of their parent. Out of a query of its own,
too, a step can look into the instances around it; one whose steps do not is made of its own
instances alone.

The nodes that steps add are described beside the steps, in the same recursion. For a step that
opens an instance this includes how the rows of the instance are picked: by the join of the
relation, and then by the conditions of the steps inside, in their order.

## Main definitions

* `Schema.Names`: a table or column is called so
* `Handle.IsInstance`: an instance of a table, with an alias that names nothing in the schema
* `Leaf.IsStoredIn`, `Expression.InScope`: columns that are stored in the instances around them
* `Step.Adds`, `Selection.IsMadeBy`: the node that a step adds, and the selection that steps make
* `Step.Takes`, `Step.TakeInTurn`: what a step, and what steps in turn do to a selection
* `Step.IsPlain`: no column is written by hand
* `Step.StaysInside`: no step looks further out than so many instances
* `Node.IsWithin`: the columns of a node are of the rows around them

## Main results

* `not_names_fresh`: no alias names a table or column of a valid schema
* `Step.runAll_append`: steps that stay inside do the same whatever lies around them
* `Step.run_takes`, `Step.runAll_takes`: what a step does, and what steps do one after the other
* `Selection.IsMadeBy.isWithin`: the columns of what steps make are of the rows around them
* `Program.build_scoped`: the queries that are built on valid schemas
-/

namespace Schemata

/-! ### Instances and their aliases -/

/-- A table or a column of the schema is called so. -/
def Schema.Names (schema : Schema) (name : String) : Prop :=
  (∃ table, schema.table? name = some table) ∨
    ∃ ref field, schema.field? ref = some field ∧ ref.column = name

/-- The handle is an instance of the table, under an alias that names nothing in the schema. -/
structure Handle.IsInstance (schema : Schema) (tableName : String) (handle : Handle) : Prop where
  /-- It is an instance of the table of this name. -/
  name_eq : handle.tableName = tableName
  /-- The table is that of the schema. -/
  table_eq : schema.table? handle.tableName = some handle.table
  /-- The alias names nothing else. -/
  not_names : ¬schema.Names handle.instanceAlias

/-- No letter is a digit. -/
theorem not_isDigit_of_isAlpha {c : Char} (h : c.isAlpha) : ¬c.isDigit := by
  have hletter := Text.isAlpha_iff.1 h
  intro hdigit
  obtain ⟨hlow, hhigh⟩ := Text.isDigit_iff.1 hdigit
  omega

/-- An alias ends in a digit, and no identifier does. -/
theorem not_isIdentifier_fresh (supply : AliasSupply) : ¬isIdentifier supply.fresh := by
  intro h
  obtain ⟨digit, hdigit⟩ := List.exists_mem_of_ne_nil (Nat.toDigits 10 (supply.used + 1))
    (by simp [Nat.toDigits_ne_nil])
  have hmem : digit ∈ supply.fresh.toList := by
    simp [AliasSupply.fresh, Nat.repr, hdigit]
  have hisDigit : digit.isDigit := Nat.isDigit_of_mem_toDigits (by decide) (by decide) hdigit
  rcases isIdentifier_chars h digit hmem with halpha | rfl
  · exact not_isDigit_of_isAlpha halpha hisDigit
  · exact absurd hisDigit (by decide)

/-- No alias names a table or column of a valid schema. -/
theorem not_names_fresh {schema : Schema} (hvalid : schema.IsValid) (supply : AliasSupply) :
    ¬schema.Names supply.fresh := by
  rintro (⟨table, htable⟩ | ⟨ref, field, hfield, hname⟩)
  · exact not_isIdentifier_fresh supply (hvalid.table_name htable)
  · exact not_isIdentifier_fresh supply (hname ▸ hvalid.column_name hfield)

/-! ### Columns in scope -/

/-- The leaf is a stored column of the instance. -/
def Leaf.IsStoredIn (schema : Schema) (handle : Handle) (leaf : Leaf) : Prop :=
  leaf.instanceAlias = handle.instanceAlias ∧
    ∃ a, schema.field? ⟨handle.tableName, leaf.column⟩ = some (.atom a)

/-- Every column of the expression is a stored column of one of the instances. -/
def Expression.InScope (schema : Schema) (scope : List Handle) (expr : Expression) : Prop :=
  ∀ leaf, .column leaf ∈ expr.parts → ∃ handle ∈ scope, leaf.IsStoredIn schema handle

/-- The expressions of the clauses. -/
def Rows.expressions (rows : Rows) : List Expression :=
  rows.filters ++ rows.orderBy.toList ++ rows.groupBy.toList

theorem Rows.mem_expressions {rows : Rows} {expr : Expression} :
    expr ∈ rows.expressions ↔
      expr ∈ rows.filters ∨ rows.orderBy = some expr ∨ rows.groupBy = some expr := by
  simp [expressions]

namespace Handle

variable {schema : Schema} {handle : Handle} {tableName : String}

theorem IsInstance.field?_eq (h : handle.IsInstance schema tableName) (name : String) :
    schema.field? (handle.ref name) = handle.table.field? name := by
  rw [Schema.field?, ref, h.table_eq, Option.bind_some]

/-- Following aliases ends at a column that is none. -/
theorem field?_of_follow {start current resolved : String} {field : Field} {fuel : Nat}
    (h : handle.follow start current fuel = .ok (resolved, field)) :
    handle.table.field? resolved = some field ∧ ∀ target, field ≠ .aliasTo target := by
  induction fuel generalizing current with
  | zero => cases h
  | succ fuel ih =>
    rw [follow] at h
    split at h
    · cases h
    · exact ih h
    · cases h
      exact ⟨‹_›, ‹_›⟩

/-- A stored column leads to itself. -/
theorem column_of_field? {name : String} {a : Atom}
    (h : handle.table.field? name = some (.atom a)) :
    handle.column name = .ok ⟨handle.instanceAlias, name⟩ := by
  rw [column, resolve, follow, h]
  rfl

/-- What a name leads to as a stored column is one. -/
theorem IsInstance.isStoredIn (hinstance : handle.IsInstance schema tableName) {name : String}
    {leaf : Leaf} (h : handle.column name = .ok leaf) : leaf.IsStoredIn schema handle := by
  obtain ⟨⟨resolved, field⟩, hresolve, h⟩ := bind_eq_ok_iff.1 h
  cases field with
  | atom a =>
    cases h
    exact ⟨rfl, a, (hinstance.field?_eq resolved).trans (field?_of_follow hresolve).1⟩
  | _ => cases h

/-- A relation that a name leads to joins two stored columns, if the schema is valid. -/
theorem IsInstance.join_spec (hvalid : schema.IsValid)
    (hinstance : handle.IsInstance schema tableName) {name : String} {link : Relation}
    {source : Leaf} (h : handle.join schema name = .ok (link, source)) :
    (∃ declared, handle.resolve name = .ok (declared, .relation link)) ∧
      source = ⟨handle.instanceAlias, link.source.column⟩ ∧ source.IsStoredIn schema handle ∧
      ∃ a, schema.field? link.destination = some (.atom a) := by
  obtain ⟨⟨declared, field⟩, hresolve, h⟩ := bind_eq_ok_iff.1 h
  cases field with
  | relation r =>
    obtain ⟨leaf, hleaf, h⟩ := bind_eq_ok_iff.1 h
    have hfield := (hinstance.field?_eq declared).trans (field?_of_follow hresolve).1
    obtain ⟨htable, a, b, hsource, hdestination, -⟩ := hvalid.joins hfield
    have hself : handle.table.field? r.source.column = some (.atom a) := by
      rw [← hinstance.field?_eq, ref, ← hsource]
      exact congrArg schema.field? (ColumnRef.mk.injEq .. ▸ ⟨htable.symm, rfl⟩)
    rw [column_of_field? hself] at hleaf
    cases hleaf
    have hstored := hinstance.isStoredIn (column_of_field? hself)
    have hexists : (schema.field? r.destination).isNone = false := by simp [hdestination]
    rw [hexists] at h
    cases h
    exact ⟨⟨declared, hresolve⟩, rfl, hstored, b, hdestination⟩
  | _ => cases h

end Handle

/-! ### Columns by name -/

/-- The template has no columns but those by name. -/
def Template.IsPlain (template : Template) : Prop := ∀ leaf, Operand.part (.column leaf) ∉ template

mutual

/-- The step adds no column that is written by hand. -/
def Step.IsPlain : Step → Prop
  | .leaf _ _ => False
  | .expr _ template | .filter template | .orderBy template | .groupBy template => template.IsPlain
  | .relation _ _ steps _ | .build _ _ _ steps => Step.ArePlain steps
  | .column _ _ _ | .limit _ => True

/-- None of the steps adds a column that is written by hand. -/
def Step.ArePlain : List Step → Prop
  | [] => True
  | step :: rest => step.IsPlain ∧ Step.ArePlain rest

end

/-- No column of the template is looked up further out than so many levels. -/
def Template.StaysInside (depth : Nat) (template : Template) : Prop :=
  ∀ name levels, Operand.column name levels ∈ template → levels ≤ depth

mutual

/-- The step, and those inside it, look no further out than so many levels from where it stands. -/
def Step.StaysInside (depth : Nat) : Step → Prop
  | .column _ _ levels => levels ≤ depth
  | .expr _ template | .filter template | .orderBy template | .groupBy template =>
    template.StaysInside depth
  | .relation _ _ steps levels => levels ≤ depth ∧ Step.StayInside (depth + 1) steps
  | .build _ _ _ steps => Step.StayInside (depth + 1) steps
  | .leaf _ _ | .limit _ => True

/-- None of the steps looks further out than so many levels. -/
def Step.StayInside (depth : Nat) : List Step → Prop
  | [] => True
  | step :: rest => step.StaysInside depth ∧ Step.StayInside depth rest

end

/-- A computation on a list depends on what it does with the elements. -/
theorem mapM_congr_of_mem {ε α β : Type} {f g : α → Except ε β} {xs : List α}
    (h : ∀ x ∈ xs, f x = g x) : xs.mapM f = xs.mapM g := by
  induction xs with
  | nil => rfl
  | cons x rest ih =>
    rw [List.mapM_cons, List.mapM_cons, h x (by simp), ih fun y hy => h y (by simp [hy])]

section Inside

variable {schema : Schema}

theorem Template.resolve_append {handle : Handle} {outer : List Handle} {template : Template}
    (h : template.StaysInside outer.length) (around : List Handle) :
    template.resolve handle (outer ++ around) = template.resolve handle outer := by
  have hoperands : ∀ operand ∈ template,
      operand.resolve handle (outer ++ around) = operand.resolve handle outer := by
    intro operand hmem
    cases operand with
    | part fixed => rfl
    | column name levels =>
      rw [Operand.resolve, Operand.resolve, enclosing_append (h name levels hmem)]
  rw [resolve, resolve, mapM_congr_of_mem hoperands]

mutual

/-- A step that stays inside does the same whatever lies around. -/
theorem Step.run_append (around : List Handle) : ∀ (step : Step) (handle : Handle)
    (outer : List Handle) (before : Selection), step.StaysInside outer.length →
    step.run schema handle (outer ++ around) before = step.run schema handle outer before
  | .column field name levels => by
    intro handle outer before h
    rw [Step.run, Step.run, enclosing_append h]
  | .leaf field fixed => fun _ _ _ _ => by rw [Step.run, Step.run]
  | .expr field template => by
    intro handle outer before h
    rw [Step.run, Step.run, Template.resolve_append h]
  | .relation field name steps levels => by
    intro handle outer before h
    have hsteps (inner : Handle) := Step.runAll_append around steps inner (handle :: outer)
      (.of inner) h.2
    simp only [List.cons_append] at hsteps
    simp only [Step.run, enclosing_append h.1, hsteps]
  | .build field table cardinality steps => by
    intro handle outer before h
    have hsteps (inner : Handle) := Step.runAll_append around steps inner (handle :: outer)
      (.of inner) h
    simp only [List.cons_append] at hsteps
    simp only [Step.run, hsteps]
  | .filter template | .orderBy template | .groupBy template => by
    intro handle outer before h
    rw [Step.run, Step.run, Template.resolve_append h]
  | .limit n => fun _ _ _ _ => by rw [Step.run, Step.run]

/-- So do steps one after the other. -/
theorem Step.runAll_append (around : List Handle) : ∀ (steps : List Step) (handle : Handle)
    (outer : List Handle) (before : Selection), Step.StayInside outer.length steps →
    Step.runAll schema handle (outer ++ around) before steps =
      Step.runAll schema handle outer before steps
  | [] => fun _ _ _ _ => by rw [Step.runAll, Step.runAll]
  | step :: rest => by
    intro handle outer before h
    have hrest (middle : Selection) := Step.runAll_append around rest handle outer middle h.2
    simp only [Step.runAll, Step.run_append around step handle outer before h.1, hrest]

end

/-- Steps that look at none but the innermost instance could as well be taken with no other around. -/
theorem Step.runAll_of_stayInside {steps : List Step} (h : Step.StayInside 0 steps)
    (inner : Handle) (outer : List Handle) (before : Selection) :
    Step.runAll schema inner outer before steps = Step.runAll schema inner [] before steps :=
  Step.runAll_append outer steps inner [] before h

end Inside

/-! ### What steps make -/

/-- The field that a step adds, if it adds one. -/
def Step.field? : Step → Option String
  | .column field _ _ | .leaf field _ | .expr field _ | .relation field _ _ _
  | .build field _ _ _ => some field
  | .filter _ | .orderBy _ | .groupBy _ | .limit _ => none

/-- The condition that a step adds, if it adds one. -/
def Step.condition? : Step → Option Template
  | .filter template => some template
  | _ => none

/-- The join of a row of the parent with the rows that a relation reaches from it. -/
def Relation.joinOf (link : Relation) (parent inner : Handle) : Expression :=
  .equals (.column ⟨parent.instanceAlias, link.source.column⟩)
    (.column ⟨inner.instanceAlias, link.destination.column⟩)

/-- The rows are those of the innermost instance of the scope: their conditions are those of the
steps, in order, and every column in a clause is in scope. -/
structure Rows.ArePickedBy (schema : Schema) (handle : Handle) (outer : List Handle)
    (steps : List Step) (rows : Rows) : Prop where
  /-- The rows have the alias of the instance. -/
  alias_eq : rows.instanceAlias = handle.instanceAlias
  /-- The rows are of the table of the instance. -/
  table_eq : rows.table = handle.tableName
  /-- The conditions are those of the steps. -/
  filters_eq :
    (steps.filterMap Step.condition?).mapM (Template.resolve handle outer) = .ok rows.filters
  /-- The columns of the clauses are stored columns of instances around them. -/
  inScope : ∀ expr ∈ rows.expressions, expr.InScope schema (handle :: outer)

mutual

/-- The node is what a step adds inside an instance and those around it. -/
inductive Step.Adds (schema : Schema) : Handle → List Handle → Step → Node → Prop
  /-- A column of the instance, or of one around it. -/
  | column {handle : Handle} {outer : List Handle} {field name : String} {levels : Nat}
      {leaf : Leaf} (hcolumn : (enclosing handle outer levels).column name = .ok leaf)
      (hstored : leaf.IsStoredIn schema (enclosing handle outer levels)) :
      Step.Adds schema handle outer (.column field name levels) (.leaf leaf)
  /-- An expression of columns in scope. -/
  | expr {handle : Handle} {outer : List Handle} {field : String} {template : Template}
      {computed : Expression} (hresolve : template.resolve handle outer = .ok computed)
      (hscope : computed.InScope schema (handle :: outer)) :
      Step.Adds schema handle outer (.expr field template) (.expr computed)
  /-- The rows that a relation reaches from the instance, or from one around it: those that are
  joined with its row and meet the conditions of the steps inside. -/
  | relation {handle parent inner : Handle} {outer : List Handle} {field name declared : String}
      {levels : Nat} {link : Relation} {steps : List Step} {related : Selection}
      (hparent : enclosing handle outer levels = parent)
      (hreach : parent.resolve name = .ok (declared, .relation link))
      (hinner : inner.IsInstance schema link.destination.table)
      (hjoin : (link.joinOf parent inner).InScope schema [parent, inner])
      (hrelated : Selection.IsMadeBy schema inner (handle :: outer) steps related) :
      Step.Adds schema handle outer (.relation field name steps levels)
        ((related.joinedBy (link.joinOf parent inner)).toNode link.cardinality)
  /-- A query of its own. If no step inside looks out of it, then no instance around it matters. -/
  | build {handle inner : Handle} {outer : List Handle} {field table : String}
      {cardinality : Cardinality} {steps : List Step} {built : Selection}
      (hinner : inner.IsInstance schema table)
      (hbuilt : Selection.IsMadeBy schema inner (handle :: outer) steps built)
      (hown : Step.StayInside 0 steps → Selection.IsMadeBy schema inner [] steps built) :
      Step.Adds schema handle outer (.build field table cardinality steps)
        (built.toNode cardinality)

/-- The nodes are what steps add, one after the other. -/
inductive Step.AddInTurn (schema : Schema) :
    Handle → List Handle → List Step → List (String × Node) → Prop
  /-- No steps add nothing. -/
  | nil {handle : Handle} {outer : List Handle} : Step.AddInTurn schema handle outer [] []
  /-- A step that sets a clause adds nothing. -/
  | clause {handle : Handle} {outer : List Handle} {step : Step} {steps : List Step}
      {nodes : List (String × Node)} (hfield : step.field? = none)
      (hnodes : Step.AddInTurn schema handle outer steps nodes) :
      Step.AddInTurn schema handle outer (step :: steps) nodes
  /-- Every other step adds a node. -/
  | field {handle : Handle} {outer : List Handle} {step : Step} {steps : List Step}
      {name : String} {node : Node} {nodes : List (String × Node)}
      (hfield : step.field? = some name) (hnode : Step.Adds schema handle outer step node)
      (hnodes : Step.AddInTurn schema handle outer steps nodes) :
      Step.AddInTurn schema handle outer (step :: steps) ((name, node) :: nodes)

/-- The selection is what steps make of the rows of an instance: its fields are the nodes that they
add, of which a later one replaces an earlier one of the same name in its place. -/
inductive Selection.IsMadeBy (schema : Schema) :
    Handle → List Handle → List Step → Selection → Prop
  | of {handle : Handle} {outer : List Handle} {steps : List Step}
      {nodes : List (String × Node)} {rows : Rows}
      (hnodes : Step.AddInTurn schema handle outer steps nodes)
      (hrows : rows.ArePickedBy schema handle outer steps) :
      Selection.IsMadeBy schema handle outer steps ⟨rows, (OrderedMap.ofList nodes).entries⟩

end

/-! ### Steps that are taken -/

/-- What was computed for a list was computed for its elements. -/
theorem exists_mem_of_mapM_ok {ε α β : Type} {f : α → Except ε β} {xs : List α} {ys : List β}
    (h : xs.mapM f = .ok ys) : ∀ y ∈ ys, ∃ x ∈ xs, f x = .ok y := by
  induction xs generalizing ys with
  | nil =>
    cases h
    simp
  | cons x rest ih =>
    rw [List.mapM_cons] at h
    obtain ⟨first, hfirst, h⟩ := bind_eq_ok_iff.1 h
    obtain ⟨others, hothers, h⟩ := bind_eq_ok_iff.1 h
    cases h
    intro y hy
    rcases List.mem_cons.1 hy with rfl | hy
    · exact ⟨x, by simp, hfirst⟩
    · obtain ⟨x', hx', heq⟩ := ih hothers y hy
      exact ⟨x', List.mem_cons_of_mem _ hx', heq⟩

section Runs

variable {schema : Schema} {handle : Handle} {outer : List Handle} {state state' : BuildState}

/-- The instances of a scope are instances of their tables. -/
def Handle.AreInstances (schema : Schema) (scope : List Handle) : Prop :=
  ∀ h ∈ scope, h.IsInstance schema h.tableName

theorem Handle.AreInstances.cons {scope : List Handle} {inner : Handle} {name : String}
    (hinner : inner.IsInstance schema name) (hscope : Handle.AreInstances schema scope) :
    Handle.AreInstances schema (inner :: scope) := by
  intro h hh
  rcases List.mem_cons.1 hh with rfl | hh
  · exact ⟨rfl, hinner.table_eq, hinner.not_names⟩
  · exact hscope h hh

/-- Columns by name become stored columns of the instances that they are looked up in. -/
theorem Template.inScope_of_resolve {template : Template} {computed : Expression}
    (hplain : template.IsPlain) (hscope : Handle.AreInstances schema (handle :: outer))
    (h : template.resolve handle outer = .ok computed) :
    computed.InScope schema (handle :: outer) := by
  obtain ⟨parts, hparts, h⟩ := bind_eq_ok_iff.1 h
  cases h
  intro leaf hleaf
  obtain ⟨operand, hoperand, hresolve⟩ := exists_mem_of_mapM_ok hparts _ hleaf
  cases operand with
  | part fixed =>
    cases hresolve
    exact absurd hoperand (hplain leaf)
  | column name levels =>
    obtain ⟨resolved, hcolumn, hresolve⟩ := bind_eq_ok_iff.1 hresolve
    cases hresolve
    have hmem := enclosing_mem handle outer levels
    exact ⟨_, hmem, (hscope _ hmem).isStoredIn hcolumn⟩

/-- What one step does to a selection. -/
structure Step.Takes (schema : Schema) (handle : Handle) (outer : List Handle) (step : Step)
    (before after : Selection) : Prop where
  /-- The alias stays. -/
  alias_eq : after.rows.instanceAlias = before.rows.instanceAlias
  /-- The table stays. -/
  table_eq : after.rows.table = before.rows.table
  /-- A field is written, or none. -/
  fields_eq : (step.field? = none ∧ after.fields = before.fields) ∨
    ∃ name node, step.field? = some name ∧ step.Adds schema handle outer node ∧
      after.fields = Entries.set before.fields name node
  /-- A condition is added at the end, or none. -/
  filters_eq : ∃ added,
    step.condition?.toList.mapM (Template.resolve handle outer) = .ok added ∧
      after.rows.filters = before.rows.filters ++ added
  /-- Every column in the clauses is from before or in scope. -/
  inScope : ∀ expr ∈ after.rows.expressions,
    expr ∈ before.rows.expressions ∨ expr.InScope schema (handle :: outer)

/-- What steps in turn do to a selection. -/
structure Step.TakeInTurn (schema : Schema) (handle : Handle) (outer : List Handle)
    (steps : List Step) (before after : Selection) : Prop where
  /-- The alias stays. -/
  alias_eq : after.rows.instanceAlias = before.rows.instanceAlias
  /-- The table stays. -/
  table_eq : after.rows.table = before.rows.table
  /-- The fields are written one after the other. -/
  fields_eq : ∃ nodes, Step.AddInTurn schema handle outer steps nodes ∧
    after.fields = nodes.foldl (fun fields e => Entries.set fields e.1 e.2) before.fields
  /-- The conditions are added at the end, in their order. -/
  filters_eq : ∃ added,
    (steps.filterMap Step.condition?).mapM (Template.resolve handle outer) = .ok added ∧
      after.rows.filters = before.rows.filters ++ added
  /-- Every column in the clauses is from before or in scope. -/
  inScope : ∀ expr ∈ after.rows.expressions,
    expr ∈ before.rows.expressions ∨ expr.InScope schema (handle :: outer)

theorem Step.TakeInTurn.nil (selection : Selection) :
    Step.TakeInTurn schema handle outer [] selection selection where
  alias_eq := rfl
  table_eq := rfl
  fields_eq := ⟨[], .nil, rfl⟩
  filters_eq := ⟨[], rfl, (List.append_nil _).symm⟩
  inScope := fun _ h => .inl h

/-- A step and those after it. -/
theorem Step.TakeInTurn.cons {step : Step} {steps : List Step} {before middle after : Selection}
    (hstep : step.Takes schema handle outer before middle)
    (hsteps : Step.TakeInTurn schema handle outer steps middle after) :
    Step.TakeInTurn schema handle outer (step :: steps) before after where
  alias_eq := hsteps.alias_eq.trans hstep.alias_eq
  table_eq := hsteps.table_eq.trans hstep.table_eq
  fields_eq := by
    obtain ⟨nodes, hnodes, hfields⟩ := hsteps.fields_eq
    rcases hstep.fields_eq with ⟨hnone, hkept⟩ | ⟨name, node, hsome, hnode, hset⟩
    · exact ⟨nodes, .clause hnone hnodes, by rw [hfields, hkept]⟩
    · exact ⟨(name, node) :: nodes, .field hsome hnode hnodes, by rw [hfields, hset]; rfl⟩
  filters_eq := by
    obtain ⟨first, hfirst, hbefore⟩ := hstep.filters_eq
    obtain ⟨others, hothers, hmiddle⟩ := hsteps.filters_eq
    refine ⟨first ++ others, ?_, by rw [hmiddle, hbefore, List.append_assoc]⟩
    have hsplit : (step :: steps).filterMap Step.condition? =
        step.condition?.toList ++ steps.filterMap Step.condition? := by
      cases h : step.condition? <;> simp [h]
    rw [hsplit, List.mapM_append, hfirst, hothers]
    rfl
  inScope := by
    intro expr hexpr
    rcases hsteps.inScope expr hexpr with hexpr | hexpr
    · exact hstep.inScope expr hexpr
    · exact .inr hexpr

/-- Steps that begin without fields and clauses make a selection. -/
theorem Step.TakeInTurn.isMadeBy {steps : List Step} {selection : Selection}
    (h : Step.TakeInTurn schema handle outer steps (.of handle) selection) :
    Selection.IsMadeBy schema handle outer steps selection := by
  obtain ⟨nodes, hnodes, hfields⟩ := h.fields_eq
  obtain ⟨added, hadded, hfilters⟩ := h.filters_eq
  have hentries : ∀ (es : List (String × Node)) (m : OrderedMap Node),
      (es.foldl (fun m e => m.insert e.1 e.2) m).entries =
        es.foldl (fun fields e => Entries.set fields e.1 e.2) m.entries := by
    intro es
    induction es with
    | nil => exact fun _ => rfl
    | cons e rest ih => exact fun m => ih (m.insert e.1 e.2)
  have hrows : selection.rows.ArePickedBy schema handle outer steps := by
    refine ⟨h.alias_eq, h.table_eq, ?_, fun expr hexpr => ?_⟩
    · rw [hadded, hfilters]
      rfl
    · rcases h.inScope expr hexpr with hexpr | hexpr
      · simp [Selection.of, Rows.expressions] at hexpr
      · exact hexpr
  obtain ⟨rows, fields⟩ := selection
  have hwritten : fields = (OrderedMap.ofList nodes).entries :=
    hfields.trans (hentries nodes .empty).symm
  subst hwritten
  exact .of hnodes hrows

/-- A step that adds a field does nothing else. -/
theorem Step.takes_field {step : Step} {name : String} {node : Node} (selection : Selection)
    (hfield : step.field? = some name) (hcondition : step.condition? = none)
    (hnode : step.Adds schema handle outer node) :
    step.Takes schema handle outer selection (selection.setField name node) where
  alias_eq := rfl
  table_eq := rfl
  fields_eq := .inr ⟨name, node, hfield, hnode, rfl⟩
  filters_eq := ⟨[], by rw [hcondition]; rfl, (List.append_nil _).symm⟩
  inScope := fun _ h => .inl h

/-- The aliases of the instances entered name nothing in the schema. -/
def BuildState.NamesNothing (schema : Schema) (state : BuildState) : Prop :=
  ∀ entered ∈ state.entered, ¬schema.Names entered.instanceAlias

/-- What is entered is an instance of the table, in a valid schema. -/
theorem isInstance_of_enter (hvalid : schema.IsValid) {name : String} {inner : Handle}
    (h : (enter schema name).run.run state = (.ok inner, state')) :
    inner.IsInstance schema name ∧
      (state.NamesNothing schema → state'.NamesNothing schema) := by
  obtain ⟨table, htable, rfl, rfl⟩ := Build.run_enter_eq_ok_iff.1 h
  have hfresh := not_names_fresh hvalid state.supply
  refine ⟨⟨rfl, htable, hfresh⟩, fun hstate entered hentered => ?_⟩
  rcases List.mem_append.1 hentered with hentered | hentered
  · exact hstate entered hentered
  · rw [List.mem_singleton.1 hentered]
    exact hfresh

/-- The join of a relation is between the two instances, of which each stores its side. -/
theorem Relation.joinOf_inScope {link : Relation} {parent inner : Handle} {a b : Atom}
    (hsource : schema.field? ⟨parent.tableName, link.source.column⟩ = some (.atom a))
    (hdestination : schema.field? link.destination = some (.atom b))
    (hinner : inner.tableName = link.destination.table) :
    (link.joinOf parent inner).InScope schema [parent, inner] := by
  intro leaf hleaf
  have hsides : leaf = ⟨parent.instanceAlias, link.source.column⟩ ∨
      leaf = ⟨inner.instanceAlias, link.destination.column⟩ := by
    simpa [joinOf, Expression.equals, Expression.binary] using hleaf
  rcases hsides with rfl | rfl
  · exact ⟨parent, by simp, rfl, a, hsource⟩
  · refine ⟨inner, by simp, rfl, b, ?_⟩
    rw [hinner]
    exact hdestination

mutual

/-- A step that succeeds on a valid schema adds what it is to add, and no alias that it takes names
anything in the schema. -/
theorem Step.run_takes (hvalid : schema.IsValid) : ∀ (step : Step), step.IsPlain →
    ∀ (handle : Handle) (outer : List Handle) (before after : Selection)
      (state state' : BuildState), Handle.AreInstances schema (handle :: outer) →
      (step.run schema handle outer before).run.run state = (.ok after, state') →
      step.Takes schema handle outer before after ∧
        (state.NamesNothing schema → state'.NamesNothing schema)
  | .column field name levels, _ => by
    intro handle outer before after state state' hscope hrun
    obtain ⟨leaf, hcolumn, rfl, rfl⟩ := Step.run_column_eq_ok_iff.1 hrun
    have hstored := (hscope _ (enclosing_mem handle outer levels)).isStoredIn hcolumn
    exact ⟨Step.takes_field before rfl rfl (.column hcolumn hstored), id⟩
  | .leaf _ _, hplain => absurd hplain id
  | .expr field template, hplain => by
    intro handle outer before after state state' hscope hrun
    obtain ⟨computed, hresolve, rfl, rfl⟩ := Step.run_expr_eq_ok_iff.1 hrun
    have hinScope := Template.inScope_of_resolve hplain hscope hresolve
    exact ⟨Step.takes_field before rfl rfl (.expr hresolve hinScope), id⟩
  | .relation field name steps levels, hplain => by
    intro handle outer before after state state' hscope hrun
    obtain ⟨link, source, hjoin, inner, _, henter, related, hsteps, rfl⟩ :=
      Step.run_relation_eq_ok_iff.1 hrun
    -- The new instance stands in front of all others, whichever of them the relation starts from.
    have hparent := hscope _ (enclosing_mem handle outer levels)
    obtain ⟨⟨declared, hreach⟩, rfl, hsource, hdestination⟩ := hparent.join_spec hvalid hjoin
    obtain ⟨hinner, hentered⟩ := isInstance_of_enter hvalid henter
    obtain ⟨htake, hnames⟩ :=
      Step.runAll_takes hvalid steps hplain _ _ _ _ _ _ (hscope.cons hinner) hsteps
    obtain ⟨-, a, hsource⟩ := hsource
    obtain ⟨b, hdestination⟩ := hdestination
    have hjoinScope := Relation.joinOf_inScope hsource hdestination hinner.name_eq
    have hadds : Step.Adds schema handle outer (.relation field name steps levels) _ :=
      .relation rfl hreach hinner hjoinScope htake.isMadeBy
    exact ⟨Step.takes_field before rfl rfl hadds, fun h => hnames (hentered h)⟩
  | .build field table cardinality steps, hplain => by
    intro handle outer before after state state' hscope hrun
    obtain ⟨inner, _, henter, built, hsteps, rfl⟩ := Step.run_build_eq_ok_iff.1 hrun
    obtain ⟨hinner, hentered⟩ := isInstance_of_enter hvalid henter
    obtain ⟨htake, hnames⟩ :=
      Step.runAll_takes hvalid steps hplain _ _ _ _ _ _ (hscope.cons hinner) hsteps
    -- Steps that do not look out of the query could as well be taken with nothing around it.
    have hown (hinside : Step.StayInside 0 steps) :
        Selection.IsMadeBy schema inner [] steps built := by
      rw [Step.runAll_of_stayInside hinside] at hsteps
      have hscope : Handle.AreInstances schema [inner] :=
        .cons hinner (by simp [Handle.AreInstances])
      exact (Step.runAll_takes hvalid steps hplain _ _ _ _ _ _ hscope hsteps).1.isMadeBy
    exact ⟨Step.takes_field before rfl rfl (.build hinner htake.isMadeBy hown),
      fun h => hnames (hentered h)⟩
  | .filter template, hplain => by
    intro handle outer before after state state' hscope hrun
    obtain ⟨computed, hresolve, rfl, rfl⟩ := Step.run_filter_eq_ok_iff.1 hrun
    have hinScope := Template.inScope_of_resolve hplain hscope hresolve
    have hadded : [template].mapM (Template.resolve handle outer) = .ok [computed] := by
      rw [List.mapM_cons, hresolve]
      rfl
    refine ⟨⟨rfl, rfl, .inl ⟨rfl, rfl⟩, ⟨[computed], hadded, rfl⟩, fun expr hexpr => ?_⟩, id⟩
    -- Besides the condition at the end, every expression is where it was.
    rcases Rows.mem_expressions.1 hexpr with hexpr | hexpr
    · rcases List.mem_append.1 hexpr with hexpr | hexpr
      · exact .inl (Rows.mem_expressions.2 (.inl hexpr))
      · obtain rfl := List.mem_singleton.1 hexpr
        exact .inr hinScope
    · exact .inl (Rows.mem_expressions.2 (.inr hexpr))
  | .orderBy template, hplain => by
    intro handle outer before after state state' hscope hrun
    obtain ⟨computed, hresolve, rfl, rfl⟩ := Step.run_orderBy_eq_ok_iff.1 hrun
    have hinScope := Template.inScope_of_resolve hplain hscope hresolve
    refine ⟨⟨rfl, rfl, .inl ⟨rfl, rfl⟩, ⟨[], rfl, (List.append_nil _).symm⟩,
      fun expr hexpr => ?_⟩, id⟩
    rcases Rows.mem_expressions.1 hexpr with hexpr | hexpr | hexpr
    · exact .inl (Rows.mem_expressions.2 (.inl hexpr))
    · obtain rfl := Option.some.inj hexpr
      exact .inr hinScope
    · exact .inl (Rows.mem_expressions.2 (.inr (.inr hexpr)))
  | .groupBy template, hplain => by
    intro handle outer before after state state' hscope hrun
    obtain ⟨computed, hresolve, rfl, rfl⟩ := Step.run_groupBy_eq_ok_iff.1 hrun
    have hinScope := Template.inScope_of_resolve hplain hscope hresolve
    refine ⟨⟨rfl, rfl, .inl ⟨rfl, rfl⟩, ⟨[], rfl, (List.append_nil _).symm⟩,
      fun expr hexpr => ?_⟩, id⟩
    rcases Rows.mem_expressions.1 hexpr with hexpr | hexpr | hexpr
    · exact .inl (Rows.mem_expressions.2 (.inl hexpr))
    · exact .inl (Rows.mem_expressions.2 (.inr (.inl hexpr)))
    · obtain rfl := Option.some.inj hexpr
      exact .inr hinScope
  | .limit n, _ => by
    intro handle outer before after state state' _ hrun
    obtain ⟨rfl, rfl⟩ := Step.run_limit_eq_ok_iff.1 hrun
    exact ⟨⟨rfl, rfl, .inl ⟨rfl, rfl⟩, ⟨[], rfl, (List.append_nil _).symm⟩,
      fun _ hexpr => .inl hexpr⟩, id⟩

/-- Steps that succeed on a valid schema make a selection of what each of them adds. -/
theorem Step.runAll_takes (hvalid : schema.IsValid) : ∀ (steps : List Step), Step.ArePlain steps →
    ∀ (handle : Handle) (outer : List Handle) (before after : Selection)
      (state state' : BuildState), Handle.AreInstances schema (handle :: outer) →
      (Step.runAll schema handle outer before steps).run.run state = (.ok after, state') →
      Step.TakeInTurn schema handle outer steps before after ∧
        (state.NamesNothing schema → state'.NamesNothing schema)
  | [], _ => by
    intro handle outer before after state state' _ hrun
    obtain ⟨rfl, rfl⟩ := Step.runAll_nil_eq_ok_iff.1 hrun
    exact ⟨.nil before, id⟩
  | step :: rest, hplain => by
    intro handle outer before after state state' hscope hrun
    obtain ⟨middle, _, hstep, hrun⟩ := Step.runAll_cons_eq_ok_iff.1 hrun
    obtain ⟨htakes, hnames⟩ := Step.run_takes hvalid step hplain.1 _ _ _ _ _ _ hscope hstep
    obtain ⟨htake, hnames'⟩ := Step.runAll_takes hvalid rest hplain.2 _ _ _ _ _ _ hscope hrun
    exact ⟨.cons htakes htake, fun h => hnames' (hnames h)⟩

end

end Runs

/-! ### Columns and the rows around them -/

/-- Every column of the expression is of rows under one of the aliases. -/
def Expression.IsWithin (aliases : List String) (expr : Expression) : Prop :=
  ∀ leaf, .column leaf ∈ expr.parts → leaf.instanceAlias ∈ aliases

mutual

/-- Every column in the node is of the rows that it is selected from or of rows around them, up to
those around the node, of which these are the aliases. -/
def Node.IsWithin (aliases : List String) : Node → Prop
  | .leaf column => column.instanceAlias ∈ aliases
  | .expr computed => computed.IsWithin aliases
  | .relation _ rows fields =>
    (∀ expr ∈ rows.expressions, expr.IsWithin (rows.instanceAlias :: aliases)) ∧
      Node.AreWithin (rows.instanceAlias :: aliases) fields

/-- So are the columns in the fields. -/
def Node.AreWithin (aliases : List String) : List (String × Node) → Prop
  | [] => True
  | (_, node) :: rest => node.IsWithin aliases ∧ Node.AreWithin aliases rest

end

theorem Node.areWithin_iff {aliases : List String} {fields : List (String × Node)} :
    Node.AreWithin aliases fields ↔ ∀ e ∈ fields, e.2.IsWithin aliases := by
  induction fields with
  | nil => simp [AreWithin]
  | cons e rest ih => simp [AreWithin, ih]

section Within

variable {schema : Schema} {handle : Handle} {outer scope : List Handle}

/-- A column that is in scope is of one of the instances. -/
theorem Expression.InScope.isWithin {expr : Expression} {aliases : List String}
    (h : expr.InScope schema scope)
    (hscope : ∀ owner ∈ scope, owner.instanceAlias ∈ aliases) : expr.IsWithin aliases := by
  intro leaf hleaf
  obtain ⟨owner, howner, halias, -⟩ := h leaf hleaf
  exact halias ▸ hscope owner howner

theorem Selection.IsMadeBy.alias_eq {steps : List Step} {selection : Selection}
    (h : Selection.IsMadeBy schema handle outer steps selection) :
    selection.rows.instanceAlias = handle.instanceAlias := by
  cases h with
  | of _ hrows => exact hrows.alias_eq

theorem Rows.ArePickedBy.isWithin {steps : List Step} {rows : Rows}
    (h : rows.ArePickedBy schema handle outer steps) {expr : Expression}
    (hexpr : expr ∈ rows.expressions) :
    expr.IsWithin (rows.instanceAlias :: outer.map Handle.instanceAlias) := by
  refine (h.inScope expr hexpr).isWithin fun owner howner => ?_
  rw [h.alias_eq]
  exact List.mem_map_of_mem (f := Handle.instanceAlias) howner

mutual

/-- The columns of what a step adds are of the rows around them. -/
theorem Step.Adds.isWithin {handle : Handle} {outer : List Handle} {step : Step} {node : Node} :
    Step.Adds schema handle outer step node →
      node.IsWithin ((handle :: outer).map Handle.instanceAlias)
  | .column _ hstored => by
    rw [Node.IsWithin, hstored.1]
    exact List.mem_map_of_mem (enclosing_mem handle outer _)
  | .expr _ hscope => by
    rw [Node.IsWithin]
    exact hscope.isWithin fun owner howner => List.mem_map_of_mem howner
  | .relation rfl _ _ hjoin hrelated => by
    obtain ⟨hclauses, hfields⟩ := hrelated.isWithin .many
    rw [hrelated.alias_eq] at hclauses hfields
    simp only [Selection.joinedBy, Selection.onRows, Selection.toNode, Node.IsWithin,
      hrelated.alias_eq]
    refine ⟨fun expr hexpr => ?_, hfields⟩
    rcases Rows.mem_expressions.1 hexpr with hexpr | hexpr
    · rcases List.mem_cons.1 hexpr with rfl | hexpr
      · -- The join is between the parent, one of those around, and the instance itself.
        refine hjoin.isWithin fun owner howner => ?_
        rcases List.mem_cons.1 howner with rfl | howner
        · exact List.mem_cons_of_mem _ (List.mem_map_of_mem (enclosing_mem handle outer _))
        · obtain rfl := List.mem_singleton.1 howner
          exact List.mem_cons_self
      · exact hclauses expr (Rows.mem_expressions.2 (.inl hexpr))
    · exact hclauses expr (Rows.mem_expressions.2 (.inr hexpr))
  | .build _ hbuilt _ => hbuilt.isWithin _

theorem Step.AddInTurn.isWithin {handle : Handle} {outer : List Handle} {steps : List Step}
    {nodes : List (String × Node)} : Step.AddInTurn schema handle outer steps nodes →
      ∀ e ∈ nodes, e.2.IsWithin ((handle :: outer).map Handle.instanceAlias)
  | .nil => by simp
  | .clause _ hnodes => hnodes.isWithin
  | .field _ hnode hnodes => by
    intro e he
    rcases List.mem_cons.1 he with rfl | he
    · exact hnode.isWithin
    · exact hnodes.isWithin e he

/-- So are those of what steps make. -/
theorem Selection.IsMadeBy.isWithin {handle : Handle} {outer : List Handle} {steps : List Step}
    {selection : Selection} (cardinality : Cardinality) :
    Selection.IsMadeBy schema handle outer steps selection →
      (selection.toNode cardinality).IsWithin (outer.map Handle.instanceAlias)
  | .of hnodes hrows => by
    refine ⟨fun expr hexpr => hrows.isWithin hexpr, Node.areWithin_iff.2 fun e he => ?_⟩
    rw [hrows.alias_eq]
    exact hnodes.isWithin e (OrderedMap.mem_entries_ofList he)

end

end Within

/-- A query that is built on a valid schema is what its steps make of an instance of its table. So
every column in it is a stored column of an instance around it, every relation is picked by its join
and then by the conditions of its steps, and a query of its own, inside, is made of its own instances
alone if no step of it looks out of it. Every column goes by the alias of the rows that it stands in
or of rows around them, and no alias taken names a table or column of the schema. -/
theorem Program.build_scoped {schema : Schema} (hvalid : schema.validate = .ok ())
    {program : Program} (hplain : Step.ArePlain program.steps) {supply : AliasSupply}
    {selection : Selection} {state : BuildState}
    (hbuild : (program.build schema).run.run ⟨supply, []⟩ = (.ok selection, state)) :
    (∃ root : Handle, root.IsInstance schema program.table ∧
      Selection.IsMadeBy schema root [] program.steps selection) ∧
    (∀ cardinality, (selection.toNode cardinality).IsWithin []) ∧
    ∀ entered ∈ state.entered, ¬schema.Names entered.instanceAlias := by
  have hvalid := Schema.validate_eq_ok_iff_isValid.1 hvalid
  obtain ⟨root, _, henter, hsteps⟩ := Build.run_bind_eq_ok_iff.1 hbuild
  obtain ⟨hroot, hentered⟩ := isInstance_of_enter hvalid henter
  have hscope : Handle.AreInstances schema [root] := .cons hroot (by simp [Handle.AreInstances])
  obtain ⟨htake, hnames⟩ := Step.runAll_takes hvalid _ hplain _ _ _ _ _ _ hscope hsteps
  exact ⟨⟨root, hroot, htake.isMadeBy⟩, fun cardinality => htake.isMadeBy.isWithin cardinality,
    hnames (hentered (by simp [BuildState.NamesNothing]))⟩

/-- Users and their posts. -/
def usersAndPosts : Schema :=
  ⟨.ofList [
    ("User", ⟨.ofList [("id", ⟨.integer "PRIMARY KEY", none⟩), ("name", ⟨.text "", none⟩),
      ("articles", ⟨.aliasTo "posts", none⟩),
      ("posts", ⟨.between .many "User.id" "Post.author", none⟩)], none⟩),
    ("Post", ⟨.ofList [("id", ⟨.integer "PRIMARY KEY", none⟩),
      ("author", ⟨.integer "NOT NULL", none⟩)], none⟩)]⟩

/-- The users with their later posts, and all posts beside them. -/
def usersWithPosts : Program where
  table := "User"
  steps :=
    [.column "name" "name",
      .relation "posts" "articles"
        [.filter [.column "id" 0, .part (.sql " > "), .part (.value (.integer 10))],
          .column "id" "id", .column "writer" "name" 1, .expr "signature" [.column "name" 1]],
      .build "all" "Post" .many [.column "id" "id", .orderBy [.column "author" 0],
        .filter [.column "author" 0, .part (.sql " <> "), .column "id" 1]]]

/-- The query is built; it has a relation behind an alias, an outer column and a query of its own,
from which the user around it is looked up. -/
theorem exists_build_usersWithPosts : ∃ selection state,
    (usersWithPosts.build usersAndPosts).run.run ⟨{}, []⟩ = (.ok selection, state) ∧
    (∃ root : Handle, root.IsInstance usersAndPosts "User" ∧
      Selection.IsMadeBy usersAndPosts root [] usersWithPosts.steps selection) ∧
    (∀ cardinality, (selection.toNode cardinality).IsWithin []) ∧
    ∀ entered ∈ state.entered, ¬usersAndPosts.Names entered.instanceAlias := by
  have hvalid : usersAndPosts.validate = .ok () := by decide +kernel
  have hplain : Step.ArePlain usersWithPosts.steps := by
    simp [usersWithPosts, Step.ArePlain, Step.IsPlain, Template.IsPlain]
  have hok : ((usersWithPosts.build usersAndPosts).run.run ⟨{}, []⟩).1.isOk = true := by
    decide +kernel
  match hbuild : (usersWithPosts.build usersAndPosts).run.run ⟨{}, []⟩ with
  | (.ok selection, state) =>
    exact ⟨selection, state, rfl, Program.build_scoped hvalid hplain hbuild⟩
  | (.error _, _) =>
    rw [hbuild] at hok
    cases hok

/-- The users with the identities of all posts, each beside that of the user around it. -/
def usersBesidePosts : Program where
  table := "User"
  steps := [.build "all" "Post" .many [.column "id" "id", .column "reader" "id" 1]]

/-- The posts of that query. -/
def postsBesideUser : Node :=
  .relation .many { instanceAlias := "X2", table := "Post" }
    [("id", .leaf ⟨"X2", "id"⟩), ("reader", .leaf ⟨"X1", "id"⟩)]

/-- A query of its own need not stay inside itself: what is looked up in the user around it is a
column of that user. -/
theorem not_isWithin_usersBesidePosts : usersAndPosts.validate = .ok () ∧
    Step.ArePlain usersBesidePosts.steps ∧
    (∃ state, (usersBesidePosts.build usersAndPosts).run.run ⟨{}, []⟩ =
      (.ok ⟨{ instanceAlias := "X1", table := "User" }, [("all", postsBesideUser)]⟩, state)) ∧
    ¬postsBesideUser.IsWithin [] := by
  refine ⟨by decide +kernel, ?_, ⟨_, rfl⟩, ?_⟩
  · simp [usersBesidePosts, Step.ArePlain, Step.IsPlain]
  · simp [postsBesideUser, Node.IsWithin, Node.AreWithin]

end Schemata
