import Mathlib.Data.List.Nodup
import Mathlib.Data.List.Perm.Subperm
import Mathlib.Logic.Function.Iterate
import Schemata.Proofs.Query.Numbering

/-!
# Where chains of aliases lead

A name in a table leads along its aliases until there is a column that is none, or a name without a
column, or it goes on forever. Which of the three it is shows after as many look-ups as the table
has columns, and one more: a chain that has not come to its end by then has passed a column twice,
and what it did once it will do again. So the bound on the look-ups cuts nothing off.

In a valid schema every alias has its target and every relation its columns. What can go wrong there
with a column that is declared is that it is of the wrong kind, or that its chain goes on forever.

## Main definitions

* `Table.next`: the name after an alias
* `Table.NeverEnds`: a chain of aliases goes on forever
* `Handle.LeadsTo`: what a chain comes to

## Main results

* `Table.isAlias_iterate`: a chain that is longer than the table goes on forever
* `Handle.follow_eq_iff`: look-ups that are more than the columns come to what the chain comes to
* `Handle.resolve_spec`: what the look-up of a name comes to, and what it comes to in a valid schema
-/

namespace Schemata

/-! ### Chains as sequences -/

namespace Table

variable {table : Table} {name target final : String}

/-- The name that an alias leads to; any other name itself. -/
def next (table : Table) (name : String) : String :=
  match table.field? name with
  | some (.aliasTo target) => target
  | _ => name

/-- The chain of aliases from the name goes on forever. -/
def NeverEnds (table : Table) (name : String) : Prop :=
  ∃ course : Nat → String, course 0 = name ∧ ∀ n, table.ForwardsTo (course n) (course (n + 1))

theorem ForwardsTo.next_eq (h : table.ForwardsTo name target) : table.next name = target := by
  rw [ForwardsTo] at h
  rw [next, h]

theorem IsAlias.forwardsTo_next (h : table.IsAlias name) :
    table.ForwardsTo name (table.next name) := by
  obtain ⟨target, htarget⟩ := h
  rwa [htarget.next_eq]

/-- An alias is a column of the table. -/
theorem IsAlias.mem_names (h : table.IsAlias name) : name ∈ table.columns.names := by
  obtain ⟨target, htarget⟩ := h
  exact mem_names_of_field? htarget

theorem neverEnds_of_iterate (h : ∀ n, table.IsAlias (table.next^[n] name)) :
    table.NeverEnds name := by
  refine ⟨fun n => table.next^[n] name, rfl, fun n => ?_⟩
  change table.ForwardsTo (table.next^[n] name) (table.next^[n + 1] name)
  rw [Function.iterate_succ_apply']
  exact (h n).forwardsTo_next

/-- Wherever a chain that goes on forever has come to, there is an alias. -/
theorem NeverEnds.isAlias_of_chain (h : table.NeverEnds name)
    (hchain : Relation.ReflTransGen table.ForwardsTo name final) : table.IsAlias final := by
  obtain ⟨course, rfl, hcourse⟩ := h
  obtain ⟨n, rfl⟩ : ∃ n, course n = final := by
    induction hchain with
    | refl => exact ⟨0, rfl⟩
    | tail _ hforwards ih =>
      obtain ⟨n, rfl⟩ := ih
      exact ⟨n + 1, (hcourse n).eq hforwards⟩
  exact ⟨_, hcourse n⟩

theorem not_isAlias_of_missing (hmissing : table.field? name = none) :
    ¬table.IsAlias name := by
  rintro ⟨target, hforwards⟩
  exact absurd (hmissing.symm.trans hforwards) (by simp)

/-- A chain that passes more aliases than the table has columns passes one of them twice, and goes
on forever. -/
theorem isAlias_iterate (h : ∀ m ≤ table.columns.names.length, table.IsAlias (table.next^[m] name))
    (n : Nat) : table.IsAlias (table.next^[n] name) := by
  obtain ⟨i, j, hij, hj, heq⟩ : ∃ i j, i < j ∧ j ≤ table.columns.names.length ∧
      table.next^[i] name = table.next^[j] name := by
    -- Otherwise the aliases passed would be different columns, and more than there are.
    by_contra hnone
    push Not at hnone
    have hnodup : ((List.range (table.columns.names.length + 1)).map
        fun m => table.next^[m] name).Nodup := by
      rw [List.nodup_map_iff_inj_on List.nodup_range]
      intro i hi j hj heq
      rw [List.mem_range] at hi hj
      rcases Nat.lt_trichotomy i j with hlt | rfl | hlt
      · exact absurd heq (hnone i j hlt (by omega))
      · rfl
      · exact absurd heq.symm (hnone j i hlt (by omega))
    have hsubset : (List.range (table.columns.names.length + 1)).map
        (fun m => table.next^[m] name) ⊆ table.columns.names := by
      intro other hother
      obtain ⟨m, hm, rfl⟩ := List.mem_map.1 hother
      exact (h m (by simpa [Nat.lt_succ_iff] using hm)).mem_names
    have hlength := (List.subperm_of_subset hnodup hsubset).length_le
    rw [List.length_map, List.length_range] at hlength
    omega
  -- From the second time on, the chain repeats what came after the first time.
  induction n using Nat.strongRecOn with
  | ind n ih =>
    by_cases hn : n ≤ table.columns.names.length
    · exact h n hn
    · have hback : table.next^[n] name = table.next^[n - j + i] name := by
        obtain ⟨k, rfl⟩ : ∃ k, n = k + j := ⟨n - j, by omega⟩
        rw [Nat.add_sub_cancel, Function.iterate_add_apply, ← heq, ← Function.iterate_add_apply]
      rw [hback]
      exact ih (n - j + i) (by omega)

end Table

/-! ### Look-ups -/

namespace Handle

variable {schema : Schema} {handle : Handle} {start current name final : String} {field : Field}
variable {e : QueryError} {fuel : Nat}

/-- A look-up fails at the end of the chain, or when it has passed as many aliases as it may. -/
theorem follow_eq_error (h : handle.follow start current fuel = .error e) :
    (∃ missing, Relation.ReflTransGen handle.table.ForwardsTo current missing ∧
      handle.table.field? missing = none ∧ e = .unknownColumn (handle.ref missing)) ∨
    e = .aliasCycle (handle.ref start) ∧
      ∀ m < fuel, handle.table.IsAlias (handle.table.next^[m] current) := by
  induction fuel generalizing current with
  | zero =>
    cases h
    exact .inr ⟨rfl, by simp⟩
  | succ fuel ih =>
    rw [follow] at h
    split at h
    · rename_i hnone
      cases h
      exact .inl ⟨current, .refl, hnone, rfl⟩
    · rename_i target htarget
      have hforwards : handle.table.ForwardsTo current target := htarget
      rcases ih h with ⟨missing, hchain, hmissing⟩ | ⟨rfl, hcourse⟩
      · exact .inl ⟨missing, .head hforwards hchain, hmissing⟩
      · refine .inr ⟨rfl, fun m hm => ?_⟩
        cases m with
        | zero => exact ⟨target, hforwards⟩
        | succ m =>
          rw [Function.iterate_succ_apply, hforwards.next_eq]
          exact hcourse m (by omega)
    · cases h

/-- What the chain of aliases from a name comes to: a column that is no alias, a name that the table
does not have, or nothing. -/
inductive LeadsTo (handle : Handle) (name : String) : Except QueryError (String × Field) → Prop
  /-- A column is found at its end. -/
  | column {final : String} {field : Field}
      (hchain : Relation.ReflTransGen handle.table.ForwardsTo name final)
      (hfield : handle.table.field? final = some field) (hnone : ∀ target, field ≠ .aliasTo target) :
      LeadsTo handle name (.ok (final, field))
  /-- It leaves the table. -/
  | missing {final : String} (hchain : Relation.ReflTransGen handle.table.ForwardsTo name final)
      (hmissing : handle.table.field? final = none) :
      LeadsTo handle name (.error (.unknownColumn (handle.ref final)))
  /-- It has no end. -/
  | never (hnever : handle.table.NeverEnds name) :
      LeadsTo handle name (.error (.aliasCycle (handle.ref name)))

variable {outcome outcome' : Except QueryError (String × Field)}

/-- A chain comes to one thing only. -/
theorem LeadsTo.unique (h : handle.LeadsTo name outcome) (h' : handle.LeadsTo name outcome') :
    outcome = outcome' := by
  cases h with
  | column hchain hfield hnone =>
    have hfinal : handle.table.Settles _ := ⟨_, hfield, hnone⟩
    cases h' with
    | column hchain' hfield' hnone' =>
      obtain rfl := Table.EndsAt.unique ⟨hchain, hfinal⟩ ⟨hchain', _, hfield', hnone'⟩
      rw [Option.some.inj (hfield.symm.trans hfield')]
    | missing hchain' hmissing =>
      obtain rfl := Table.eq_of_chains hchain hfinal.not_isAlias hchain'
        (Table.not_isAlias_of_missing hmissing)
      exact absurd (hmissing.symm.trans hfield) (by simp)
    | never hnever => exact absurd (hnever.isAlias_of_chain hchain) hfinal.not_isAlias
  | missing hchain hmissing =>
    have hfinal := Table.not_isAlias_of_missing hmissing
    cases h' with
    | column hchain' hfield hnone =>
      obtain rfl := Table.eq_of_chains hchain hfinal hchain'
        (Table.Settles.not_isAlias ⟨_, hfield, hnone⟩)
      exact absurd (hmissing.symm.trans hfield) (by simp)
    | missing hchain' hmissing' =>
      rw [Table.eq_of_chains hchain hfinal hchain' (Table.not_isAlias_of_missing hmissing')]
    | never hnever => exact absurd (hnever.isAlias_of_chain hchain) hfinal
  | never hnever =>
    cases h' with
    | column hchain hfield hnone =>
      exact absurd (hnever.isAlias_of_chain hchain)
        (Table.Settles.not_isAlias ⟨_, hfield, hnone⟩)
    | missing hchain hmissing =>
      exact absurd (hnever.isAlias_of_chain hchain) (Table.not_isAlias_of_missing hmissing)
    | never _ => rfl

/-- With more look-ups than the table has columns, one comes to what the chain comes to. -/
theorem leadsTo_follow (hfuel : handle.columns.length < fuel) :
    handle.LeadsTo name (handle.follow name name fuel) := by
  cases hfollow : handle.follow name name fuel with
  | ok found =>
    obtain ⟨hfield, hnone⟩ := field?_of_follow hfollow
    exact .column (endsAt_of_follow hfollow).1 hfield hnone
  | error e =>
    rcases follow_eq_error hfollow with ⟨final, hchain, hmissing, rfl⟩ | ⟨rfl, hcourse⟩
    · exact .missing hchain hmissing
    · refine .never (Table.neverEnds_of_iterate (Table.isAlias_iterate fun m hm => ?_))
      exact hcourse m (Nat.lt_of_le_of_lt hm hfuel)

theorem follow_eq_iff (hfuel : handle.columns.length < fuel) :
    handle.follow name name fuel = outcome ↔ handle.LeadsTo name outcome := by
  constructor
  · rintro rfl
    exact leadsTo_follow hfuel
  · exact (leadsTo_follow hfuel).unique

theorem resolve_eq_iff : handle.resolve name = outcome ↔ handle.LeadsTo name outcome :=
  follow_eq_iff (Nat.lt_succ_self _)

theorem leadsTo_ok_iff : handle.LeadsTo name (.ok (final, field)) ↔
    Relation.ReflTransGen handle.table.ForwardsTo name final ∧
      handle.table.field? final = some field ∧ ∀ target, field ≠ .aliasTo target := by
  constructor
  · rintro (⟨hchain, hfield, hnone⟩ | _ | _)
    exact ⟨hchain, hfield, hnone⟩
  · rintro ⟨hchain, hfield, hnone⟩
    exact .column hchain hfield hnone

theorem leadsTo_error_iff : handle.LeadsTo name (.error e) ↔
    (∃ missing, Relation.ReflTransGen handle.table.ForwardsTo name missing ∧
      handle.table.field? missing = none ∧ e = .unknownColumn (handle.ref missing)) ∨
    handle.table.NeverEnds name ∧ e = .aliasCycle (handle.ref name) := by
  constructor
  · rintro (_ | ⟨hchain, hmissing⟩ | hnever)
    · exact .inl ⟨_, hchain, hmissing, rfl⟩
    · exact .inr ⟨hnever, rfl⟩
  · rintro (⟨missing, hchain, hmissing, rfl⟩ | ⟨hnever, rfl⟩)
    · exact .missing hchain hmissing
    · exact .never hnever

/-! ### Look-ups in valid schemas -/

section Valid

variable (hvalid : schema.IsValid) (htable : schema.table? handle.tableName = some handle.table)

include htable in
/-- The columns of an instance are those that the schema has under the name of its table. -/
theorem field?_ref (name : String) : schema.field? (handle.ref name) = handle.table.field? name := by
  rw [Schema.field?, ref, htable, Option.bind_some]

include hvalid htable

/-- No chain of a valid schema leaves its table. -/
theorem mem_columns_of_chain (hname : name ∈ handle.columns)
    (hchain : Relation.ReflTransGen handle.table.ForwardsTo name final) :
    final ∈ handle.columns := by
  induction hchain with
  | refl => exact hname
  | @tail _ target _ hforwards _ =>
    have hsome := hvalid.target ((field?_ref htable _).trans hforwards)
    obtain ⟨field, hfield⟩ := Option.isSome_iff_exists.1 hsome
    exact Table.mem_names_of_field? ((field?_ref htable target).symm.trans hfield)

/-- A declared name leads to a column, or on forever. -/
theorem resolve_error_of_isValid (hname : name ∈ handle.columns)
    (h : handle.resolve name = .error e) : e = .aliasCycle (handle.ref name) := by
  rcases leadsTo_error_iff.1 (resolve_eq_iff.1 h) with ⟨missing, hchain, hmissing, -⟩ | ⟨-, rfl⟩
  · have hmem := mem_columns_of_chain hvalid htable hname hchain
    exact absurd hmem (Table.field?_eq_none_iff.1 hmissing)
  · rfl

/-- Where a name leads to a relation, its columns are found. -/
theorem exists_join_of_isValid {declared : String} {link : Relation}
    (h : handle.resolve name = .ok (declared, .relation link)) :
    ∃ source, handle.join schema name = .ok (link, source) := by
  obtain ⟨hhome, a, b, hsource, hdestination, -⟩ :=
    hvalid.joins ((field?_ref htable declared).trans (field?_of_follow h).1)
  -- The source is looked up by its name alone; the relation starts in this table.
  have hself : handle.table.field? link.source.column = some (.atom a) := by
    rw [← field?_ref htable, ← hsource]
    exact congrArg schema.field? (ColumnRef.mk.injEq .. ▸ ⟨hhome.symm, rfl⟩)
  exact ⟨_, join_eq_ok_iff.2 ⟨declared, h, column_of_field? hself, by simp [hdestination]⟩⟩

theorem column_error_of_isValid (hname : name ∈ handle.columns)
    (h : handle.column name = .error e) :
    (∃ kind, e = .notAColumn (handle.ref name) kind) ∨ e = .aliasCycle (handle.ref name) := by
  cases hresolve : handle.resolve name with
  | ok found =>
    obtain ⟨declared, field⟩ := found
    rw [column, hresolve] at h
    cases field with
    | atom a => cases h
    | relation _ | aliasTo _ | index _ | constraint _ =>
      cases h
      exact .inl ⟨_, rfl⟩
  | error e' =>
    rw [column, hresolve] at h
    cases h
    exact .inr (resolve_error_of_isValid hvalid htable hname hresolve)

theorem join_error_of_isValid (hname : name ∈ handle.columns)
    (h : handle.join schema name = .error e) :
    (∃ kind, e = .notARelation (handle.ref name) kind) ∨ e = .aliasCycle (handle.ref name) := by
  cases hresolve : handle.resolve name with
  | ok found =>
    obtain ⟨declared, field⟩ := found
    cases field with
    | relation link =>
      obtain ⟨source, hjoin⟩ := exists_join_of_isValid hvalid htable hresolve
      rw [hjoin] at h
      cases h
    | atom _ | aliasTo _ | index _ | constraint _ =>
      rw [join, hresolve] at h
      cases h
      exact .inl ⟨_, rfl⟩
  | error e' =>
    rw [join, hresolve] at h
    cases h
    exact .inr (resolve_error_of_isValid hvalid htable hname hresolve)

/-- A relation that fails before an instance is entered fails in its look-up. -/
theorem relation_error_of_isValid {inner : Handle} {outer : List Handle} {levels : Nat}
    {selection : Selection} {steps : List Step} {state state' : BuildState} {as : String}
    (hname : name ∈ handle.columns) (hparent : enclosing inner outer levels = handle)
    (hrun : ((Step.relation as name steps levels).run schema inner outer selection).run.run state =
      (.error e, state')) (hentered : state'.entered = state.entered) :
    (∃ kind, e = .notARelation (handle.ref name) kind) ∨ e = .aliasCycle (handle.ref name) := by
  have hlink : Step.link schema inner outer name levels = handle.join schema name := by
    rw [Step.link, hparent]
  cases hjoin : handle.join schema name with
  | ok found =>
    -- Then the destination has been entered, whatever came of the steps inside.
    obtain ⟨link, source⟩ := found
    obtain ⟨table, later, -, hadvances⟩ : ∃ table later,
        schema.table? link.destination.table = some table ∧ state.Advances
          (((Step.relation as name steps levels).run schema inner outer selection).run.run state).2
          (⟨link.destination.table, table, state.supply.fresh⟩ :: later) :=
      Step.advances_relation (hlink.trans hjoin)
    rw [hrun] at hadvances
    have := hadvances.entered_eq.symm.trans hentered
    simp at this
  | error e' =>
    rw [Step.run_relation_of_error (hlink.trans hjoin)] at hrun
    cases hrun
    exact join_error_of_isValid hvalid htable hname hjoin

end Valid

/-- A name leads to the first column on its chain that is no alias; the look-up fails with the name
that the chain leaves the table at, or with the name itself if the chain goes on forever; and more
look-ups than there are change nothing. In a valid schema, a declared name fails as a column or a
relation only because its field is of another kind, or because its chain goes on forever. -/
theorem resolve_spec (schema : Schema) (handle : Handle) (name : String) :
    (∀ final field, handle.resolve name = .ok (final, field) ↔
      Relation.ReflTransGen handle.table.ForwardsTo name final ∧
        handle.table.field? final = some field ∧ ∀ target, field ≠ .aliasTo target) ∧
    (∀ e, handle.resolve name = .error e ↔
      (∃ missing, Relation.ReflTransGen handle.table.ForwardsTo name missing ∧
        handle.table.field? missing = none ∧ e = .unknownColumn (handle.ref missing)) ∨
      handle.table.NeverEnds name ∧ e = .aliasCycle (handle.ref name)) ∧
    (∀ fuel, handle.columns.length < fuel →
      handle.follow name name fuel = handle.resolve name) ∧
    (schema.validate = .ok () → schema.table? handle.tableName = some handle.table →
      name ∈ handle.columns →
      (∀ e, handle.column name = .error e →
        (∃ kind, e = .notAColumn (handle.ref name) kind) ∨ e = .aliasCycle (handle.ref name)) ∧
      ∀ inner outer levels as steps selection state state' e,
        enclosing inner outer levels = handle →
        ((Step.relation as name steps levels).run schema inner outer selection).run.run state =
          (.error e, state') →
        state'.entered = state.entered →
        (∃ kind, e = .notARelation (handle.ref name) kind) ∨ e = .aliasCycle (handle.ref name)) := by
  refine ⟨fun final field => resolve_eq_iff.trans leadsTo_ok_iff,
    fun e => resolve_eq_iff.trans leadsTo_error_iff,
    fun fuel hfuel => (follow_eq_iff hfuel).2 (resolve_eq_iff.1 rfl), ?_⟩
  intro hvalid htable hname
  rw [Schema.validate_eq_ok_iff_isValid] at hvalid
  refine ⟨fun e => column_error_of_isValid hvalid htable hname, ?_⟩
  intro inner outer levels as steps selection state state' e
  exact relation_error_of_isValid hvalid htable hname

/-- The last of as many aliases as there are columns names none: the look-up still gets that far. -/
example : resolve ⟨"User", ⟨.ofList [("first", ⟨.aliasTo "second", none⟩),
    ("second", ⟨.aliasTo "third", none⟩)], none⟩, "t1"⟩ "first" =
      .error (.unknownColumn ⟨"User", "third"⟩) := by
  decide

end Handle

/-- An instance of users with two names, each an alias of the other. -/
def userWithLoop : Handle where
  tableName := "User"
  table := { columns := .ofList [("id", ⟨.integer "", none⟩), ("first", ⟨.aliasTo "second", none⟩),
    ("second", ⟨.aliasTo "first", none⟩)] }
  instanceAlias := "t1"

/-- On a loop of aliases, in a schema that is valid, names lead nowhere as columns or relations. -/
theorem resolve_spec_userWithLoop :
    let schema : Schema := ⟨.ofList [("User", userWithLoop.table)]⟩
    schema.validate = .ok () ∧ userWithLoop.table.NeverEnds "first" ∧
      (∃ e, userWithLoop.column "first" = .error e ∧
        ((∃ kind, e = .notAColumn ⟨"User", "first"⟩ kind) ∨ e = .aliasCycle ⟨"User", "first"⟩)) ∧
      ∃ e, ((Step.relation "posts" "first" []).run schema userWithLoop [] (.of userWithLoop)).run.run
          {} = (.error e, {}) ∧
        ((∃ kind, e = .notARelation ⟨"User", "first"⟩ kind) ∨
          e = .aliasCycle ⟨"User", "first"⟩) := by
  intro schema
  have hvalid : schema.validate = .ok () := by decide +kernel
  have hrun : ((Step.relation "posts" "first" []).run schema userWithLoop []
      (.of userWithLoop)).run.run {} = (.error (.aliasCycle ⟨"User", "first"⟩), {}) :=
    Step.run_relation_of_error rfl
  obtain ⟨-, herror, -, hdeclared⟩ := Handle.resolve_spec schema userWithLoop "first"
  obtain ⟨hcolumn, hrelation⟩ := hdeclared hvalid rfl (by decide)
  refine ⟨hvalid, ?_, ⟨_, rfl, hcolumn _ rfl⟩, _, hrun, hrelation _ [] 0 _ _ _ _ _ _ rfl hrun rfl⟩
  obtain ⟨missing, -, -, h⟩ | ⟨hnever, -⟩ := (herror (.aliasCycle ⟨"User", "first"⟩)).1 rfl
  · cases h
  · exact hnever

end Schemata
