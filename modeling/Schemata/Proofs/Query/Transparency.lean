import Mathlib.Data.List.Forall2
import Schemata.Proofs.Query.Lookup

/-!
# Aliases in programs

An alias is another name for a column of its table, and a program may use either name. The name that
a chain of aliases ends at depends on the table that the chain is in, so which name stands for which
in a program depends on the place: on the instances around a step, and for the steps inside a
relation on the table that the relation leads to. When every name is replaced in this way by the one
that its chain ends at, the program does what it did, instance by instance.

## Main definitions

* `Operand.Unaliased`, `Template.Unaliased`, `Step.Unaliased`: the same with each name replaced by
  the one that its chain ends at, inside the tables around it
* `Program.Unaliased`: a program without aliases that stands for another

## Main results

* `Step.run_unaliased`, `Step.runAll_unaliased`: steps do the same without aliases
* `Program.build_unaliased`: so do programs, and those that can be built can be freed from aliases
-/

namespace Schemata

/-! ### Programs without aliases -/

/-- The operand is the other one with a column called by the name that its chain ends at, in the
table that lies as far out as the operand says. -/
inductive Operand.Unaliased (table : Table) (outer : List Table) : Operand → Operand → Prop
  | part (part : Part) : Operand.Unaliased table outer (.part part) (.part part)
  | column {name final : String} {levels : Nat}
      (hends : (enclosing table outer levels).EndsAt name final) :
      Operand.Unaliased table outer (.column name levels) (.column final levels)

/-- The template is the other one with every column called by the name that its chain ends at. -/
def Template.Unaliased (table : Table) (outer : List Table) (template template' : Template) : Prop :=
  List.Forall₂ (Operand.Unaliased table outer) template template'

mutual

/-- The second step is the first with every name replaced by the one that its chain ends at, in the
table that it is looked up in. The tables are those of the instances around the step: that of the
innermost, and those further out. -/
inductive Step.Unaliased (schema : Schema) : Table → List Table → Step → Step → Prop
  | column {table : Table} {outer : List Table} {field name final : String} {levels : Nat}
      (hends : (enclosing table outer levels).EndsAt name final) :
      Step.Unaliased schema table outer (.column field name levels) (.column field final levels)
  | leaf {table : Table} {outer : List Table} {field : String} {fixed : Leaf} :
      Step.Unaliased schema table outer (.leaf field fixed) (.leaf field fixed)
  | expr {table : Table} {outer : List Table} {field : String} {template template' : Template}
      (htemplate : template.Unaliased table outer template') :
      Step.Unaliased schema table outer (.expr field template) (.expr field template')
  /-- Inside a relation, the table that it leads to comes before those around the step. -/
  | relation {table inner : Table} {outer : List Table} {field name final : String}
      {levels : Nat} {link : Relation} {steps steps' : List Step}
      (hends : (enclosing table outer levels).EndsAt name final)
      (hlink : (enclosing table outer levels).field? final = some (.relation link))
      (hinner : schema.table? link.destination.table = some inner)
      (hsteps : Step.AreUnaliased schema inner (table :: outer) steps steps') :
      Step.Unaliased schema table outer (.relation field name steps levels)
        (.relation field final steps' levels)
  /-- So does the table of a query of its own. -/
  | build {table inner : Table} {outer : List Table} {field name : String}
      {cardinality : Cardinality} {steps steps' : List Step}
      (hinner : schema.table? name = some inner)
      (hsteps : Step.AreUnaliased schema inner (table :: outer) steps steps') :
      Step.Unaliased schema table outer (.build field name cardinality steps)
        (.build field name cardinality steps')
  | filter {table : Table} {outer : List Table} {template template' : Template}
      (htemplate : template.Unaliased table outer template') :
      Step.Unaliased schema table outer (.filter template) (.filter template')
  | orderBy {table : Table} {outer : List Table} {template template' : Template}
      (htemplate : template.Unaliased table outer template') :
      Step.Unaliased schema table outer (.orderBy template) (.orderBy template')
  | groupBy {table : Table} {outer : List Table} {template template' : Template}
      (htemplate : template.Unaliased table outer template') :
      Step.Unaliased schema table outer (.groupBy template) (.groupBy template')
  | limit {table : Table} {outer : List Table} {n : UInt64} :
      Step.Unaliased schema table outer (.limit n) (.limit n)

/-- The steps are the others with every name replaced. -/
inductive Step.AreUnaliased (schema : Schema) :
    Table → List Table → List Step → List Step → Prop
  | nil {table : Table} {outer : List Table} : Step.AreUnaliased schema table outer [] []
  | cons {table : Table} {outer : List Table} {step step' : Step} {steps steps' : List Step}
      (hstep : Step.Unaliased schema table outer step step')
      (hsteps : Step.AreUnaliased schema table outer steps steps') :
      Step.AreUnaliased schema table outer (step :: steps) (step' :: steps')

end

/-- The program is the other one with every name replaced by the one that its chain ends at. -/
structure Program.Unaliased (schema : Schema) (program program' : Program) : Prop where
  table_eq : program'.table = program.table
  steps : ∃ root, schema.table? program.table = some root ∧
    Step.AreUnaliased schema root [] program.steps program'.steps

section Runs

variable {schema : Schema}

/-- What can be computed for each element of a list by itself can be related to the results. -/
theorem exists_forall₂_of_mapM_ok {ε α β γ : Type} {f : α → Except ε β} {R : α → γ → Prop}
    (hexists : ∀ x y, f x = .ok y → ∃ z, R x z) {xs : List α} {ys : List β}
    (h : xs.mapM f = .ok ys) : ∃ zs, List.Forall₂ R xs zs := by
  induction xs generalizing ys with
  | nil => exact ⟨[], .nil⟩
  | cons x rest ih =>
    rw [List.mapM_cons] at h
    obtain ⟨first, hfirst, h⟩ := bind_eq_ok_iff.1 h
    obtain ⟨others, hothers, -⟩ := bind_eq_ok_iff.1 h
    obtain ⟨z, hz⟩ := hexists x first hfirst
    obtain ⟨zs, hzs⟩ := ih hothers
    exact ⟨z :: zs, .cons hz hzs⟩

theorem mapM_eq_ok_of_forall₂ {ε α β : Type} {f : α → Except ε β} {R : α → α → Prop}
    (hsame : ∀ x x' y, R x x' → f x = .ok y → f x' = .ok y) {xs xs' : List α} {ys : List β}
    (hrel : List.Forall₂ R xs xs') (h : xs.mapM f = .ok ys) : xs'.mapM f = .ok ys := by
  induction hrel generalizing ys with
  | nil => exact h
  | cons hhead _ ih =>
    rw [List.mapM_cons] at h ⊢
    obtain ⟨first, hfirst, h⟩ := bind_eq_ok_iff.1 h
    obtain ⟨others, hothers, h⟩ := bind_eq_ok_iff.1 h
    exact bind_eq_ok_iff.2 ⟨first, hsame _ _ _ hhead hfirst,
      bind_eq_ok_iff.2 ⟨others, ih hothers, h⟩⟩

/-- The table of an instance, as far out among the tables as the instance among the instances. -/
theorem table_enclosing (handle : Handle) (outer : List Handle) (levels : Nat) :
    enclosing handle.table (outer.map Handle.table) levels = (enclosing handle outer levels).table :=
  enclosing_map Handle.table handle outer levels

namespace Operand

variable {handle : Handle} {outer : List Handle} {operand operand' : Operand} {part : Part}

theorem exists_unaliased (h : operand.resolve handle outer = .ok part) :
    ∃ operand', operand.Unaliased handle.table (outer.map Handle.table) operand' := by
  cases operand with
  | part fixed => exact ⟨_, .part fixed⟩
  | column name levels =>
    obtain ⟨leaf, hcolumn, -⟩ := bind_eq_ok_iff.1 h
    obtain ⟨declared, a, hresolve, -⟩ := Handle.column_eq_ok_iff.1 hcolumn
    have hends := Handle.endsAt_of_resolve hresolve
    rw [← table_enclosing] at hends
    exact ⟨_, .column hends⟩

theorem resolve_unaliased
    (hunaliased : operand.Unaliased handle.table (outer.map Handle.table) operand')
    (h : operand.resolve handle outer = .ok part) : operand'.resolve handle outer = .ok part := by
  cases hunaliased with
  | part fixed => exact h
  | column hends =>
    rw [table_enclosing] at hends
    obtain ⟨leaf, hcolumn, h⟩ := bind_eq_ok_iff.1 h
    exact bind_eq_ok_iff.2 ⟨leaf, Handle.column_of_endsAt hends hcolumn, h⟩

end Operand

namespace Template

variable {handle : Handle} {outer : List Handle} {template template' : Template}
variable {computed : Expression}

theorem exists_unaliased (h : template.resolve handle outer = .ok computed) :
    ∃ template', template.Unaliased handle.table (outer.map Handle.table) template' := by
  obtain ⟨parts, hparts, -⟩ := bind_eq_ok_iff.1 h
  exact exists_forall₂_of_mapM_ok (fun _ _ hpart => Operand.exists_unaliased hpart) hparts

theorem resolve_unaliased
    (hunaliased : template.Unaliased handle.table (outer.map Handle.table) template')
    (h : template.resolve handle outer = .ok computed) :
    template'.resolve handle outer = .ok computed := by
  obtain ⟨parts, hparts, h⟩ := bind_eq_ok_iff.1 h
  exact bind_eq_ok_iff.2 ⟨parts,
    mapM_eq_ok_of_forall₂ (fun _ _ _ hrel => Operand.resolve_unaliased hrel) hunaliased hparts, h⟩

end Template

mutual

/-- A step that succeeds can be freed from aliases. -/
theorem Step.exists_unaliased : ∀ (step : Step) (handle : Handle) (outer : List Handle)
    (before after : Selection) (state state' : BuildState),
    (step.run schema handle outer before).run.run state = (.ok after, state') →
    ∃ step', step.Unaliased schema handle.table (outer.map Handle.table) step'
  | .column field name levels => by
    intro handle outer before after state state' hrun
    obtain ⟨leaf, hcolumn, -⟩ := Step.run_column_eq_ok_iff.1 hrun
    obtain ⟨declared, a, hresolve, -⟩ := Handle.column_eq_ok_iff.1 hcolumn
    have hends := Handle.endsAt_of_resolve hresolve
    rw [← table_enclosing] at hends
    exact ⟨_, .column hends⟩
  | .leaf field fixed => fun _ _ _ _ _ _ _ => ⟨_, .leaf⟩
  | .expr field template => by
    intro handle outer before after state state' hrun
    obtain ⟨computed, hresolve, -⟩ := Step.run_expr_eq_ok_iff.1 hrun
    obtain ⟨template', htemplate⟩ := Template.exists_unaliased hresolve
    exact ⟨_, .expr htemplate⟩
  | .relation field name steps levels => by
    intro handle outer before after state state' hrun
    obtain ⟨link, source, hjoin, inner, _, henter, related, hsteps, -⟩ :=
      Step.run_relation_eq_ok_iff.1 hrun
    -- The steps inside are freed in the table that the relation leads to.
    obtain ⟨table, htable, rfl, -⟩ := Build.run_enter_eq_ok_iff.1 henter
    obtain ⟨declared, hresolve, -, -⟩ := Handle.join_eq_ok_iff.1 hjoin
    obtain ⟨steps', hunaliased⟩ := Step.exists_areUnaliased steps _ _ _ _ _ _ hsteps
    have hends := Handle.endsAt_of_resolve hresolve
    have hlink := (Handle.field?_of_follow hresolve).1
    rw [← table_enclosing] at hends hlink
    exact ⟨_, .relation hends hlink htable hunaliased⟩
  | .build field name cardinality steps => by
    intro handle outer before after state state' hrun
    obtain ⟨inner, _, henter, built, hsteps, -⟩ := Step.run_build_eq_ok_iff.1 hrun
    obtain ⟨table, htable, rfl, -⟩ := Build.run_enter_eq_ok_iff.1 henter
    obtain ⟨steps', hunaliased⟩ := Step.exists_areUnaliased steps _ _ _ _ _ _ hsteps
    exact ⟨_, .build htable hunaliased⟩
  | .filter template => by
    intro handle outer before after state state' hrun
    obtain ⟨computed, hresolve, -⟩ := Step.run_filter_eq_ok_iff.1 hrun
    obtain ⟨template', htemplate⟩ := Template.exists_unaliased hresolve
    exact ⟨_, .filter htemplate⟩
  | .orderBy template => by
    intro handle outer before after state state' hrun
    obtain ⟨computed, hresolve, -⟩ := Step.run_orderBy_eq_ok_iff.1 hrun
    obtain ⟨template', htemplate⟩ := Template.exists_unaliased hresolve
    exact ⟨_, .orderBy htemplate⟩
  | .groupBy template => by
    intro handle outer before after state state' hrun
    obtain ⟨computed, hresolve, -⟩ := Step.run_groupBy_eq_ok_iff.1 hrun
    obtain ⟨template', htemplate⟩ := Template.exists_unaliased hresolve
    exact ⟨_, .groupBy htemplate⟩
  | .limit n => fun _ _ _ _ _ _ _ => ⟨_, .limit⟩

/-- Steps that succeed one after the other can be freed from aliases. -/
theorem Step.exists_areUnaliased : ∀ (steps : List Step) (handle : Handle) (outer : List Handle)
    (before after : Selection) (state state' : BuildState),
    (Step.runAll schema handle outer before steps).run.run state = (.ok after, state') →
    ∃ steps', Step.AreUnaliased schema handle.table (outer.map Handle.table) steps steps'
  | [] => fun _ _ _ _ _ _ _ => ⟨_, .nil⟩
  | step :: rest => by
    intro handle outer before after state state' hrun
    obtain ⟨middle, _, hstep, hrun⟩ := Step.runAll_cons_eq_ok_iff.1 hrun
    obtain ⟨step', hunaliased⟩ := Step.exists_unaliased step _ _ _ _ _ _ hstep
    obtain ⟨rest', hrest⟩ := Step.exists_areUnaliased rest _ _ _ _ _ _ hrun
    exact ⟨_, .cons hunaliased hrest⟩

end

mutual

/-- A step does the same without aliases. -/
theorem Step.run_unaliased : ∀ (step step' : Step) (handle : Handle) (outer : List Handle)
    (before after : Selection) (state state' : BuildState),
    step.Unaliased schema handle.table (outer.map Handle.table) step' →
    (step.run schema handle outer before).run.run state = (.ok after, state') →
    (step'.run schema handle outer before).run.run state = (.ok after, state')
  | .column field name levels, _ => by
    intro handle outer before after state state' hunaliased hrun
    obtain ⟨hends⟩ := hunaliased
    obtain ⟨leaf, hcolumn, hset⟩ := Step.run_column_eq_ok_iff.1 hrun
    rw [table_enclosing] at hends
    have hcolumn := Handle.column_of_endsAt hends hcolumn
    exact Step.run_column_eq_ok_iff.2 ⟨leaf, hcolumn, hset⟩
  | .leaf field fixed, _ => by
    intro handle outer before after state state' hunaliased hrun
    cases hunaliased
    exact hrun
  | .expr field template, _ => by
    intro handle outer before after state state' hunaliased hrun
    cases hunaliased with
    | expr htemplate =>
      obtain ⟨computed, hresolve, hset⟩ := Step.run_expr_eq_ok_iff.1 hrun
      have hresolve := Template.resolve_unaliased htemplate hresolve
      exact Step.run_expr_eq_ok_iff.2 ⟨computed, hresolve, hset⟩
  | .relation field name steps levels, _ => by
    intro handle outer before after state state' hunaliased hrun
    cases hunaliased with
    | relation hends hlink hinner hunaliased =>
      obtain ⟨link, source, hjoin, inner, _, henter, related, hsteps, hset⟩ :=
        Step.run_relation_eq_ok_iff.1 hrun
      -- The relation and the table that it leads to are those that the names were replaced for.
      rw [table_enclosing] at hends hlink
      obtain ⟨hfield, hjoin⟩ := Handle.join_of_endsAt hends hjoin
      obtain rfl := Field.relation.inj (Option.some.inj (hfield.symm.trans hlink))
      obtain ⟨table, htable, rfl, -⟩ := Build.run_enter_eq_ok_iff.1 henter
      obtain rfl := Option.some.inj (htable.symm.trans hinner)
      have hsteps := Step.runAll_unaliased steps _ ⟨_, table, _⟩ (handle :: outer) _ _ _ _
        hunaliased hsteps
      apply Step.run_relation_eq_ok_iff.2
      exact ⟨link, source, hjoin, _, _, henter, related, hsteps, hset⟩
  | .build field name cardinality steps, _ => by
    intro handle outer before after state state' hunaliased hrun
    cases hunaliased with
    | build hinner hunaliased =>
      obtain ⟨inner, _, henter, built, hsteps, hset⟩ := Step.run_build_eq_ok_iff.1 hrun
      obtain ⟨table, htable, rfl, -⟩ := Build.run_enter_eq_ok_iff.1 henter
      obtain rfl := Option.some.inj (htable.symm.trans hinner)
      have hsteps := Step.runAll_unaliased steps _ ⟨_, table, _⟩ (handle :: outer) _ _ _ _
        hunaliased hsteps
      exact Step.run_build_eq_ok_iff.2 ⟨_, _, henter, built, hsteps, hset⟩
  | .filter template, _ => by
    intro handle outer before after state state' hunaliased hrun
    cases hunaliased with
    | filter htemplate =>
      obtain ⟨computed, hresolve, hset⟩ := Step.run_filter_eq_ok_iff.1 hrun
      have hresolve := Template.resolve_unaliased htemplate hresolve
      exact Step.run_filter_eq_ok_iff.2 ⟨computed, hresolve, hset⟩
  | .orderBy template, _ => by
    intro handle outer before after state state' hunaliased hrun
    cases hunaliased with
    | orderBy htemplate =>
      obtain ⟨computed, hresolve, hset⟩ := Step.run_orderBy_eq_ok_iff.1 hrun
      have hresolve := Template.resolve_unaliased htemplate hresolve
      exact Step.run_orderBy_eq_ok_iff.2 ⟨computed, hresolve, hset⟩
  | .groupBy template, _ => by
    intro handle outer before after state state' hunaliased hrun
    cases hunaliased with
    | groupBy htemplate =>
      obtain ⟨computed, hresolve, hset⟩ := Step.run_groupBy_eq_ok_iff.1 hrun
      have hresolve := Template.resolve_unaliased htemplate hresolve
      exact Step.run_groupBy_eq_ok_iff.2 ⟨computed, hresolve, hset⟩
  | .limit n, _ => by
    intro handle outer before after state state' hunaliased hrun
    cases hunaliased
    exact hrun

/-- Steps one after the other do the same without aliases. -/
theorem Step.runAll_unaliased : ∀ (steps steps' : List Step) (handle : Handle)
    (outer : List Handle) (before after : Selection) (state state' : BuildState),
    Step.AreUnaliased schema handle.table (outer.map Handle.table) steps steps' →
    (Step.runAll schema handle outer before steps).run.run state = (.ok after, state') →
    (Step.runAll schema handle outer before steps').run.run state = (.ok after, state')
  | [], _ => by
    intro handle outer before after state state' hunaliased hrun
    cases hunaliased
    exact hrun
  | step :: rest, _ => by
    intro handle outer before after state state' hunaliased hrun
    cases hunaliased with
    | cons hunaliased hrest =>
      obtain ⟨middle, _, hstep, hrun⟩ := Step.runAll_cons_eq_ok_iff.1 hrun
      apply Step.runAll_cons_eq_ok_iff.2
      exact ⟨middle, _, Step.run_unaliased step _ _ _ _ _ _ _ hunaliased hstep,
        Step.runAll_unaliased rest _ _ _ _ _ _ _ hrest hrun⟩

end

end Runs

/-- Aliases are transparent. On any schema and from any supply of aliases, a program that builds a
query can be freed from aliases: every name in it can be replaced by the one that its chain ends at
in the table it is looked up in. A program that has been freed in this way builds the same query,
and so the same statement, enters the same instances under the same aliases in the same order, and
leaves the supply as the other one does. -/
theorem Program.build_unaliased {schema : Schema} {program : Program} {selection : Selection}
    {state state' : BuildState}
    (h : (program.build schema).run.run state = (.ok selection, state')) :
    (∃ program', program.Unaliased schema program') ∧
      ∀ program', program.Unaliased schema program' →
        (program'.build schema).run.run state = (.ok selection, state') := by
  obtain ⟨root, _, henter, hsteps⟩ := Build.run_bind_eq_ok_iff.1 h
  obtain ⟨table, htable, rfl, -⟩ := Build.run_enter_eq_ok_iff.1 henter
  constructor
  · obtain ⟨steps', hunaliased⟩ := Step.exists_areUnaliased _ _ _ _ _ _ _ hsteps
    exact ⟨⟨program.table, steps'⟩, rfl, table, htable, hunaliased⟩
  · rintro ⟨_, steps'⟩ ⟨rfl, table', htable', hunaliased⟩
    obtain rfl := Option.some.inj (htable.symm.trans htable')
    have hsteps := Step.runAll_unaliased _ _ ⟨_, table, _⟩ [] _ _ _ _ hunaliased hsteps
    exact Build.run_bind_eq_ok_iff.2 ⟨_, _, henter, hsteps⟩

/-- Users with chains of aliases. The relation starts from an alias. -/
def Table.writers : Table :=
  ⟨.ofList [("id", ⟨.integer "", none⟩), ("key", ⟨.aliasTo "id", none⟩),
    ("name", ⟨.text "", none⟩), ("nick", ⟨.aliasTo "handle", none⟩),
    ("handle", ⟨.aliasTo "name", none⟩), ("articles", ⟨.aliasTo "posts", none⟩),
    ("posts", ⟨.between .many "User.key" "Post.author", none⟩)], none⟩

/-- Posts with an alias that stands for another column in the table of the users. -/
def Table.written : Table :=
  ⟨.ofList [("author", ⟨.integer "", none⟩), ("nick", ⟨.aliasTo "author", none⟩)], none⟩

/-- The users and their posts, a schema that is not valid. -/
def writersAndPosts : Schema := ⟨.ofList [("User", .writers), ("Post", .written)]⟩

/-- The users with their posts; the columns go by the names given. -/
def writersWith (name posts writer : String) : Program where
  table := "User"
  steps :=
    [.column "name" name,
      .relation "posts" posts [.column "by" writer,
        .filter [.column writer 0, .part (.sql " > "), .column name 1]]]

/-- Without aliases, one name becomes another one in each of the two tables. -/
theorem unaliased_writersWith : (writersWith "nick" "articles" "nick").Unaliased writersAndPosts
    (writersWith "name" "posts" "author") := by
  have hname : Table.writers.EndsAt "nick" "name" := by
    refine ⟨.head (b := "handle") ?_ (.head (b := "name") ?_ .refl), .text "", ?_, ?_⟩
    · unfold Table.ForwardsTo; decide
    · unfold Table.ForwardsTo; decide
    · decide
    · exact fun _ => by simp [Field.text]
  have hposts : Table.writers.EndsAt "articles" "posts" := by
    refine ⟨.single ?_, .between .many "User.key" "Post.author", ?_, ?_⟩
    · unfold Table.ForwardsTo; decide
    · decide
    · exact fun _ => by simp [Field.between]
  have hwriter : Table.written.EndsAt "nick" "author" := by
    refine ⟨.single ?_, .integer "", ?_, ?_⟩
    · unfold Table.ForwardsTo; decide
    · decide
    · exact fun _ => by simp [Field.integer]
  have hlink : Table.writers.field? "posts" =
      some (.relation ⟨.many, ⟨"User", "key"⟩, ⟨"Post", "author"⟩⟩) := by
    decide
  have hinner : writersAndPosts.table? "Post" = some .written := by decide
  refine ⟨rfl, .writers, by decide, .cons (.column hname) (.cons ?_ .nil)⟩
  refine .relation hposts hlink hinner ?_
  exact .cons (.column hwriter) (.cons (.filter
    (.cons (.column hwriter) (.cons (.part _) (.cons (.column hname) .nil)))) .nil)

theorem exists_eq_of_isOk {ε α σ : Type} {outcome : Except ε α × σ}
    (h : outcome.1.isOk = true) : ∃ a s, outcome = (.ok a, s) := by
  obtain ⟨_ | a, s⟩ := outcome
  · cases h
  · exact ⟨a, s, rfl⟩

/-- Both programs build the same query. -/
theorem build_writersWith : ∃ selection state,
    ((writersWith "nick" "articles" "nick").build writersAndPosts).run.run ⟨{}, []⟩ =
        (.ok selection, state) ∧
      ((writersWith "name" "posts" "author").build writersAndPosts).run.run ⟨{}, []⟩ =
        (.ok selection, state) := by
  have hok : (((writersWith "nick" "articles" "nick").build writersAndPosts).run.run
      ⟨{}, []⟩).1.isOk = true := by
    decide +kernel
  obtain ⟨selection, state, hbuild⟩ := exists_eq_of_isOk hok
  exact ⟨selection, state, hbuild, (Program.build_unaliased hbuild).2 _ unaliased_writersWith⟩

end Schemata
