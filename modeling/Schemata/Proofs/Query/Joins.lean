import Schemata.Proofs.Query.Resolution

/-!
# Joins of relations

A relation becomes rows of another table, of which the first condition is the join: a column of the
instance that it starts from is equal to a column of those rows. The schema need not be valid for
that. What the relation names on its own side is looked up as a column, and so it is a stored column
when the join is made. What it names on the other side is only looked for, and stands in the join by
the name that the relation has for it; so it is a stored column exactly if it was declared as one.

## Main definitions

* `Table.LeadsToAtom`: a chain of aliases ends at a stored column
* `Node.JoinsStored`: the first condition joins stored columns, with no alias in between

## Main results

* `Step.run_relation_eq_ok`: what a relation adds
* `Step.relation_joins_iff`: when the join is between stored columns, and when there is none
-/

namespace Schemata

/-! ### Rows of a selection -/

section Rows

variable {schema : Schema} {handle : Handle} {outer : List Handle} {before after : Selection}
variable {state state' : BuildState}

/-- A step leaves the instance of a selection as it is. -/
theorem Step.run_rows {step : Step}
    (h : (step.run schema handle outer before).run.run state = (.ok after, state')) :
    after.rows.instanceAlias = before.rows.instanceAlias ∧
      after.rows.table = before.rows.table := by
  cases step with
  | column field name levels =>
    obtain ⟨leaf, -, rfl, -⟩ := run_column_eq_ok_iff.1 h
    exact ⟨rfl, rfl⟩
  | leaf field fixed =>
    obtain ⟨rfl, -⟩ := run_leaf_eq_ok_iff.1 h
    exact ⟨rfl, rfl⟩
  | expr field template =>
    obtain ⟨computed, -, rfl, -⟩ := run_expr_eq_ok_iff.1 h
    exact ⟨rfl, rfl⟩
  | relation field name steps levels =>
    -- The rows inside are those of another instance.
    obtain ⟨link, source, -, inner, _, -, related, -, rfl⟩ := run_relation_eq_ok_iff.1 h
    exact ⟨rfl, rfl⟩
  | build field table cardinality steps =>
    obtain ⟨inner, _, -, built, -, rfl⟩ := run_build_eq_ok_iff.1 h
    exact ⟨rfl, rfl⟩
  | filter template =>
    obtain ⟨computed, -, rfl, -⟩ := run_filter_eq_ok_iff.1 h
    exact ⟨rfl, rfl⟩
  | orderBy template =>
    obtain ⟨computed, -, rfl, -⟩ := run_orderBy_eq_ok_iff.1 h
    exact ⟨rfl, rfl⟩
  | groupBy template =>
    obtain ⟨computed, -, rfl, -⟩ := run_groupBy_eq_ok_iff.1 h
    exact ⟨rfl, rfl⟩
  | limit n =>
    obtain ⟨rfl, -⟩ := run_limit_eq_ok_iff.1 h
    exact ⟨rfl, rfl⟩

/-- So do steps one after the other. -/
theorem Step.runAll_rows {steps : List Step}
    (h : (Step.runAll schema handle outer before steps).run.run state = (.ok after, state')) :
    after.rows.instanceAlias = before.rows.instanceAlias ∧
      after.rows.table = before.rows.table := by
  induction steps generalizing before state with
  | nil =>
    obtain ⟨rfl, -⟩ := runAll_nil_eq_ok_iff.1 h
    exact ⟨rfl, rfl⟩
  | cons step rest ih =>
    obtain ⟨middle, _, hstep, hrest⟩ := runAll_cons_eq_ok_iff.1 h
    obtain ⟨halias, htable⟩ := Step.run_rows hstep
    obtain ⟨halias', htable'⟩ := ih hrest
    exact ⟨halias'.trans halias, htable'.trans htable⟩

end Rows

/-! ### The join -/

/-- The chain of aliases from the first name ends at the second, a stored column. -/
def Table.LeadsToAtom (table : Table) (name final : String) : Prop :=
  Relation.ReflTransGen table.ForwardsTo name final ∧ ∃ a, table.field? final = some (.atom a)

/-- The node is of rows of the related table, and their first condition joins two stored columns:
one of the parent and one of the related table, to which the names of the relation lead. -/
inductive Node.JoinsStored (schema : Schema) (parent : Handle) (link : Relation) : Node → Prop
  | intro {cardinality : Cardinality} {rows : Rows} {fields : List (String × Node)} {table : Table}
      {source target : Leaf}
      (hjoin : rows.filters.head? = some (.equals (.column source) (.column target)))
      (hparent : source.instanceAlias = parent.instanceAlias)
      (hsource : parent.table.LeadsToAtom link.source.column source.column)
      (hrows : target.instanceAlias = rows.instanceAlias)
      (hname : rows.table = link.destination.table)
      (htable : schema.table? rows.table = some table)
      (htarget : table.LeadsToAtom link.destination.column target.column) :
      JoinsStored schema parent link (.relation cardinality rows fields)

theorem Expression.equals_column_inj {source target source' target' : Leaf} :
    Expression.equals (.column source) (.column target) =
        .equals (.column source') (.column target') ↔ source = source' ∧ target = target' := by
  simp [equals, binary]

section Relations

variable {schema : Schema} {handle parent : Handle} {outer : List Handle}
variable {before after : Selection} {state state' : BuildState} {field name final : String}
variable {steps : List Step} {levels : Nat} {link : Relation}

theorem Handle.column_eq_ok_iff_leadsToAtom {leaf : Leaf} : handle.column name = .ok leaf ↔
    leaf.instanceAlias = handle.instanceAlias ∧ handle.table.LeadsToAtom name leaf.column := by
  rw [column_eq_ok_iff]
  constructor
  · rintro ⟨declared, a, hresolve, rfl⟩
    obtain ⟨hchain, hfield, -⟩ := leadsTo_ok_iff.1 (resolve_eq_iff.1 hresolve)
    exact ⟨rfl, hchain, a, hfield⟩
  · rintro ⟨halias, hchain, a, hfield⟩
    have hnone (target : String) : Field.atom a ≠ .aliasTo target := nofun
    refine ⟨leaf.column, a, resolve_eq_iff.2 (leadsTo_ok_iff.2 ⟨hchain, hfield, hnone⟩), ?_⟩
    rw [← halias]

/-- Rows in front of whose conditions the join stands are joined on stored columns exactly if the
destination is declared as one. -/
theorem Node.joinsStored_iff {cardinality : Cardinality} {rows : Rows}
    {fields : List (String × Node)} {source : Leaf}
    (hsource : parent.column link.source.column = .ok source)
    (hname : rows.table = link.destination.table)
    (hjoin : rows.filters.head? = some (.equals (.column source)
      (.column ⟨rows.instanceAlias, link.destination.column⟩))) :
    (Node.relation cardinality rows fields).JoinsStored schema parent link ↔
      ∃ a, schema.field? link.destination = some (.atom a) := by
  obtain ⟨halias, hleads⟩ := Handle.column_eq_ok_iff_leadsToAtom.1 hsource
  constructor
  · rintro ⟨hjoin', -, -, -, -, hrelated, -, a, ha⟩
    -- The column in the join is the one that the relation names, so it is this one.
    rw [hjoin, Option.some.injEq, Expression.equals_column_inj] at hjoin'
    rw [← hjoin'.2] at ha
    rw [hname] at hrelated
    exact ⟨a, by rw [Schema.field?, hrelated, Option.bind_some, ha]⟩
  · rintro ⟨a, ha⟩
    obtain ⟨related, hrelated, hfield⟩ := Option.bind_eq_some_iff.1 ha
    exact .intro hjoin halias hleads rfl hname (hname ▸ hrelated) ⟨.refl, a, hfield⟩

/-- A relation adds rows of its destination's table, in front of whose conditions it sets the join
of the column that its source leads to with the column that its destination names. -/
theorem Step.run_relation_eq_ok (hparent : enclosing handle outer levels = parent)
    (hrun : ((Step.relation field name steps levels).run schema handle outer before).run.run state =
      (.ok after, state')) :
    ∃ link declared source rows fields, parent.resolve name = .ok (declared, .relation link) ∧
      parent.column link.source.column = .ok source ∧
      (schema.field? link.destination).isSome = true ∧
      rows.table = link.destination.table ∧
      rows.filters.head? = some (.equals (.column source)
        (.column ⟨rows.instanceAlias, link.destination.column⟩)) ∧
      after = before.setField field (.relation link.cardinality rows fields) := by
  obtain ⟨link, source, hjoin, inner, _, henter, related, hsteps, rfl⟩ :=
    run_relation_eq_ok_iff.1 hrun
  rw [hparent] at hjoin
  obtain ⟨declared, hresolve, hsource, hsome⟩ := Handle.join_eq_ok_iff.1 hjoin
  obtain ⟨table, -, rfl, -⟩ := Build.run_enter_eq_ok_iff.1 henter
  obtain ⟨halias, htable⟩ := Step.runAll_rows hsteps
  refine ⟨link, declared, source, (related.joinedBy _).rows, related.fields, hresolve, hsource, ?_,
    htable, ?_, rfl⟩
  · simpa using hsome
  · -- The steps inside have not touched the alias that the join speaks of.
    simp only [Selection.joinedBy, Selection.onRows, List.head?_cons]
    rw [halias]
    rfl

/-- The join of a relation, in whatever schema. If the call succeeds, it adds the rows of the
related table, and their first condition joins stored columns exactly if the destination of the
relation is declared as a stored column; in a valid schema it is. The call fails, and enters
nothing, if the source does not lead to a stored column of the parent or if there is no column of
the destination's name. -/
theorem Step.relation_joins_iff (hparent : enclosing handle outer levels = parent)
    (htable : schema.table? parent.tableName = some parent.table) :
    (∀ after state',
      ((Step.relation field name steps levels).run schema handle outer before).run.run state =
        (.ok after, state') →
      ∃ link declared node, parent.resolve name = .ok (declared, .relation link) ∧
        after = before.setField field node ∧
        (node.JoinsStored schema parent link ↔
          ∃ a, schema.field? link.destination = some (.atom a)) ∧
        (schema.validate = .ok () → node.JoinsStored schema parent link)) ∧
    ∀ link declared, parent.resolve name = .ok (declared, .relation link) →
      ((∀ final, ¬parent.table.LeadsToAtom link.source.column final) ∨
        schema.field? link.destination = none) →
      ∃ e, ((Step.relation field name steps levels).run schema handle outer before).run.run state =
        (.error e, state) := by
  constructor
  · intro after state' hrun
    obtain ⟨link, declared, source, rows, fields, hresolve, hsource, hsome, hname, hjoin, hafter⟩ :=
      Step.run_relation_eq_ok hparent hrun
    refine ⟨link, declared, _, hresolve, hafter, Node.joinsStored_iff hsource hname hjoin,
      fun hvalid => (Node.joinsStored_iff hsource hname hjoin).2 ?_⟩
    rw [Schema.validate_eq_ok_iff_isValid] at hvalid
    obtain ⟨-, -, b, -, hdestination, -⟩ :=
      hvalid.joins ((Handle.field?_ref htable declared).trans (Handle.field?_of_follow hresolve).1)
    exact ⟨b, hdestination⟩
  · intro link declared hresolve hnone
    cases hjoin : parent.join schema name with
    | error e =>
      refine ⟨e, Step.run_relation_of_error ?_⟩
      rw [Step.link, hparent]
      exact hjoin
    | ok found =>
      obtain ⟨link', source⟩ := found
      obtain ⟨declared', hresolve', hsource, hsome⟩ := Handle.join_eq_ok_iff.1 hjoin
      obtain ⟨-, hlink⟩ := Prod.mk.inj (Except.ok.inj (hresolve.symm.trans hresolve'))
      obtain rfl := Field.relation.inj hlink
      rcases hnone with hnone | hnone
      · exact absurd (Handle.column_eq_ok_iff_leadsToAtom.1 hsource).2 (hnone source.column)
      · simp [hnone] at hsome

end Relations

/-- Users with relations to their posts: from an alias of their identity, to an alias of a column of
the posts, and from a relation. -/
def writersByAlias : Schema :=
  ⟨.ofList
    [("User", ⟨.ofList [("id", ⟨.integer "", none⟩), ("key", ⟨.aliasTo "id", none⟩),
        ("posts", ⟨.between .many "User.key" "Post.by", none⟩),
        ("written", ⟨.between .many "User.id" "Post.writer", none⟩),
        ("lost", ⟨.between .many "User.posts" "Post.by", none⟩)], none⟩),
      ("Post", ⟨.ofList [("by", ⟨.integer "", none⟩), ("writer", ⟨.aliasTo "by", none⟩)], none⟩)]⟩

/-- An instance of the users. -/
def userByAlias : Handle := ⟨"User", (writersByAlias.table? "User").getD .empty, "X1"⟩

/-- What comes of a relation of the users, with no steps inside. -/
def runByAlias (name : String) : Except QueryError Selection × BuildState :=
  ((Step.relation name name []).run writersByAlias userByAlias [] (.of userByAlias)).run.run
    ⟨⟨"X", 1⟩, []⟩

/-- An alias of the source is resolved in the join, and a source that is no column is refused. -/
theorem relation_joins_iff_posts :
    (∃ after state node, runByAlias "posts" = (.ok after, state) ∧
      after = (Selection.of userByAlias).setField "posts" node ∧
      node.JoinsStored writersByAlias userByAlias ⟨.many, ⟨"User", "key"⟩, ⟨"Post", "by"⟩⟩) ∧
    ∃ e, runByAlias "lost" = (.error e, ⟨⟨"X", 1⟩, []⟩) := by
  have hparent : enclosing userByAlias [] 0 = userByAlias := rfl
  have htable : writersByAlias.table? userByAlias.tableName = some userByAlias.table := rfl
  constructor
  · have hposts : userByAlias.resolve "posts" =
        .ok ("posts", .relation ⟨.many, ⟨"User", "key"⟩, ⟨"Post", "by"⟩⟩) := by
      rfl
    have hrun : ∃ after state, runByAlias "posts" = (.ok after, state) := ⟨_, _, rfl⟩
    obtain ⟨after, state, hrun⟩ := hrun
    obtain ⟨link, declared, node, hresolve, hafter, hiff, -⟩ :=
      (Step.relation_joins_iff hparent htable).1 after state hrun
    obtain ⟨-, hlink⟩ := Prod.mk.inj (Except.ok.inj (hposts.symm.trans hresolve))
    obtain rfl := Field.relation.inj hlink
    exact ⟨after, state, node, hrun, hafter, hiff.2 ⟨_, rfl⟩⟩
  · refine (Step.relation_joins_iff hparent htable).2
      ⟨.many, ⟨"User", "posts"⟩, ⟨"Post", "by"⟩⟩ "lost" rfl (.inl fun final hleads => ?_)
    have hcolumn : userByAlias.column "posts" = .ok ⟨"X1", final⟩ :=
      Handle.column_eq_ok_iff_leadsToAtom.2 ⟨rfl, hleads⟩
    cases hcolumn

/-- An alias of the destination is not: the join names the alias, which no table stores, though it
leads to a stored column. -/
theorem not_joinsStored_written :
    ∃ rows state, runByAlias "written" =
        (.ok ((Selection.of userByAlias).setField "written" (.relation .many rows [])), state) ∧
      rows.filters = [.equals (.column ⟨"X1", "id"⟩) (.column ⟨"X2", "writer"⟩)] ∧
      userByAlias.resolve "written" =
        .ok ("written", .relation ⟨.many, ⟨"User", "id"⟩, ⟨"Post", "writer"⟩⟩) ∧
      (∃ a, writersByAlias.field? ⟨"Post", "by"⟩ = some (.atom a)) ∧
      writersByAlias.field? ⟨"Post", "writer"⟩ = some (.aliasTo "by") ∧
      ¬(Node.relation .many rows []).JoinsStored writersByAlias userByAlias
        ⟨.many, ⟨"User", "id"⟩, ⟨"Post", "writer"⟩⟩ := by
  have hsource : userByAlias.column "id" = .ok ⟨"X1", "id"⟩ := rfl
  refine ⟨_, _, rfl, rfl, rfl, ⟨_, rfl⟩, rfl, ?_⟩
  rw [Node.joinsStored_iff hsource rfl rfl]
  rintro ⟨a, ha⟩
  cases ha

end Schemata
