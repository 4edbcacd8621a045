import Schemata.Proofs.Indexes.Statements
import Schemata.Proofs.Migration.Course

/-!
# When indexes stay in step

A run of migrations keeps the indexes of the database in step with the schema if every statement on
an index can be executed when it is reached and the database has, after each migration, the indexes
that the schema declares. This is not always so. A table that gets another name keeps the indexes
that it has under their old names, while everything that follows speaks of them by the new ones; and
an index can be given a name that another table has not given up yet.

Exactly when it is so is told from the schemas. If no name is declared twice in one of them, then
the indexes stay in step if and only if the handovers of each migration are orderly: the indexes of
the tables that have a turn have, all together, the same names under the old names of the tables as
under the new; an index that stays with a table has its own name there; and no index is given a name
that a table whose turn comes later holds.

## Main definitions

* `Schema.IndexesOrderly`: the condition on two schemas
* `StaysInStep`: the indexes of a database stay in step in a run of migrations

## Main results

* `exists_run?_iff`: one migration keeps indexes in step exactly if its handovers are orderly
* `staysInStep_iff`: so do migrations in a row
* `Schema.IndexesOrderly.of_owner`: they are orderly if no table with an index moves and no name of
  an index goes to another table
-/

namespace Schemata

open Changes (Turn turns MarkersHonoured Moves)
open Handover (Consistent Apart Before After Orderly)

/-- What a migration means for the names of the indexes. -/
def Schema.handovers (prev next : Schema) : List Handover :=
  (turns Table.renamedFrom prev.tables next.tables).map Turn.indexHandover

/-- The names of the indexes are handed over in order. -/
def Schema.IndexesOrderly (prev next : Schema) : Prop := Orderly (prev.handovers next)

/-- Each migration succeeds, its statements can be executed one after the other, and they lead to
the indexes that the schema declares. -/
def StaysInStep (config : MigrationConfig) : LiveIndexes → Schema → List Schema → Prop
  | _, _, [] => True
  | live, prev, next :: rest => ∃ migration live', migrate config prev next = .ok migration ∧
      live.run? migration.statements = some live' ∧ live'.InStep migration.schema ∧
        StaysInStep config live' migration.schema rest

variable {config : MigrationConfig} {prev next : Schema} {live live' : LiveIndexes}
variable {n owner name : String} {t : Turn Table}

/-! ### The handovers of a migration -/

section Turns

variable (hfits : t.Fits Table.renamedFrom prev.tables next.tables)

theorem mem_names_of_mem_indexHandover (hn : owner ∈ t.indexHandover.names) : owner ∈ t.names := by
  cases t <;> simpa [Handover.names, Turn.indexHandover, Turn.names, Handover.within] using hn

include hfits in
/-- The names that a turn owns are those of the indexes of its table in the previous schema. -/
theorem mem_owned_iff : n ∈ t.indexHandover.owned ↔
    ∃ name, t.indexHandover.former = some name ∧
      ∃ table, prev.table? name = some table ∧ n ∈ table.indexNames name := by
  cases t with
  | create name after => simp [Turn.indexHandover]
  | move source target before after => simp [Turn.indexHandover, Schema.table?, hfits.2.2.2]
  | remove name before => simp [Turn.indexHandover, Schema.table?, hfits.2.1]
  | keep name before after => simp [Turn.indexHandover, Handover.within, Schema.table?, hfits.2.1]

include hfits in
/-- The names that a turn wants are those of the indexes of its table in the next schema. -/
theorem mem_wanted_iff : n ∈ t.indexHandover.wanted ↔
    ∃ name, t.indexHandover.latter = some name ∧
      ∃ table, next.table? name = some table ∧ n ∈ table.indexNames name := by
  cases t with
  | create name after => simp [Turn.indexHandover, Schema.table?, hfits.2.1]
  | move source target before after => simp [Turn.indexHandover, Schema.table?, hfits.2.1]
  | remove name before => simp [Turn.indexHandover]
  | keep name before after => simp [Turn.indexHandover, Handover.within, Schema.table?, hfits.2.2]

include hfits in
/-- The names that a turn owns are declared in the previous schema, for a table it speaks of. -/
theorem exists_declared_of_mem_owned (hn : n ∈ t.indexHandover.owned) :
    ∃ name ∈ t.names, ∃ table, prev.table? name = some table ∧ n ∈ table.indexNames name := by
  obtain ⟨name, hname, hdeclared⟩ := (mem_owned_iff hfits).1 hn
  exact ⟨name, mem_names_of_mem_indexHandover (Handover.mem_names_of_former hname), hdeclared⟩

include hfits in
/-- The names that a turn wants are declared in the next schema, for a table it speaks of. -/
theorem exists_declared_of_mem_wanted (hn : n ∈ t.indexHandover.wanted) :
    ∃ name ∈ t.names, ∃ table, next.table? name = some table ∧ n ∈ table.indexNames name := by
  obtain ⟨name, hname, hdeclared⟩ := (mem_wanted_iff hfits).1 hn
  exact ⟨name, mem_names_of_mem_indexHandover (Handover.mem_names_of_latter hname), hdeclared⟩

include hfits in
/-- A table of the previous schema that a turn speaks of is the one before the turn. -/
theorem former_eq_of_mem (hname : name ∈ t.names) (hprev : name ∈ prev.tables.names) :
    t.indexHandover.former = some name := by
  cases t with
  | create n after =>
    obtain rfl : name = n := by simpa [Turn.names] using hname
    exact absurd hprev hfits.1.2.2
  | move source target before after =>
    obtain rfl | rfl : name = source ∨ name = target := by simpa [Turn.names] using hname
    · rfl
    · exact absurd hprev hfits.1.2.2
  | remove n before | keep n before after =>
    obtain rfl : name = n := by simpa [Turn.names] using hname
    rfl

include hfits in
/-- A table of the next schema that a turn speaks of is the one after the turn. -/
theorem latter_eq_of_mem (honoured : MarkersHonoured Table.renamedFrom prev.tables next.tables)
    (hname : name ∈ t.names) (hnext : name ∈ next.tables.names) :
    t.indexHandover.latter = some name := by
  cases t with
  | create n after | keep n before after =>
    obtain rfl : name = n := by simpa [Turn.names] using hname
    rfl
  | move source target before after =>
    obtain rfl | rfl : name = source ∨ name = target := by simpa [Turn.names] using hname
    · have hmoves := hfits.moves
      exact absurd hnext (honoured.gone hmoves)
    · rfl
  | remove n before =>
    obtain rfl : name = n := by simpa [Turn.names] using hname
    exact absurd hnext hfits.1.2.2

end Turns

/-- The indexes of the tables that no turn speaks of. -/
def Schema.OtherIndexes (prev next : Schema) (n owner : String) : Prop :=
  (∀ t ∈ turns Table.renamedFrom prev.tables next.tables, owner ∉ t.names) ∧
    ∃ table, prev.table? owner = some table ∧ n ∈ table.indexNames owner

section Migration

variable (h : Acceptable config prev next)

include h in
/-- A table that no turn speaks of has the same indexes in both schemas. -/
theorem exists_indexNames_iff_of_untouched
    (howner : ∀ t ∈ turns Table.renamedFrom prev.tables next.tables, owner ∉ t.names) :
    (∃ table, prev.table? owner = some table ∧ n ∈ table.indexNames owner) ↔
      ∃ table, next.table? owner = some table ∧ n ∈ table.indexNames owner := by
  have hfields := h.fieldsOf?_eq_of_untouched howner
  unfold Schema.fieldsOf? at hfields
  cases hprev : prev.table? owner <;> cases hnext : next.table? owner <;>
    simp [hprev, hnext] at hfields ⊢
  simp only [Table.mem_indexNames_iff, Table.hasIndex, hfields]

include h in
/-- If no name is declared twice, then of names that are declared for the tables of the turns none
belongs to two turns. -/
theorem nodup_flatMap_handovers {schema : Schema} {names : Handover → List String}
    (hdistinct : schema.indexNames.Nodup)
    (hnodup : ∀ t : Turn Table, (names t.indexHandover).Nodup)
    (hdeclared : ∀ t ∈ turns Table.renamedFrom prev.tables next.tables,
      ∀ n ∈ names t.indexHandover, ∃ name ∈ t.names, ∃ table,
        schema.table? name = some table ∧ n ∈ table.indexNames name) :
    ((prev.handovers next).flatMap names).Nodup := by
  rw [Schema.handovers, List.flatMap_map]
  refine List.nodup_flatMap.2 ⟨fun t _ => hnodup t, ?_⟩
  refine (Changes.independent_turns h.markers).imp_of_mem fun ht ht' hdisjoint n hn hn' => ?_
  obtain ⟨name, hname, table, htable, hmem⟩ := hdeclared _ ht n hn
  obtain ⟨name', hname', table', htable', hmem'⟩ := hdeclared _ ht' n hn'
  obtain rfl := Schema.eq_of_mem_indexNames hdistinct htable htable' hmem hmem'
  exact hdisjoint hname hname'

include h in
theorem consistent_handovers (hprev : prev.indexNames.Nodup) (hnext : next.indexNames.Nodup) :
    Consistent (prev.handovers next) := by
  have hfits {t : Turn Table} := (Changes.mem_turns_iff (t := t) h.markers).1
  have hexists {g : Handover} (hg : g ∈ prev.handovers next) :
      ∃ t ∈ turns Table.renamedFrom prev.tables next.tables, t.indexHandover = g :=
    List.mem_map.1 hg
  refine {
    owned_nodup := ?_
    wanted_nodup := ?_
    independent := ?_
    named := fun hg => ?_
    length_eq := fun hg => ?_
    former_isSome := fun hg hn => ?_
    owned_eq := fun hg hlatter => ?_
    wanted_eq := fun hg hlatter => ?_ }
  · refine nodup_flatMap_handovers h hprev (fun t => ?_) fun t ht n hn =>
      exists_declared_of_mem_owned (hfits ht) hn
    cases t <;> simp [Turn.indexHandover, Handover.within, Table.nodup_indexNames]
  · refine nodup_flatMap_handovers h hnext (fun t => ?_) fun t ht n hn =>
      exists_declared_of_mem_wanted (hfits ht) hn
    cases t <;> simp [Turn.indexHandover, Handover.within, Table.nodup_indexNames]
  · refine List.pairwise_map.2 ((Changes.independent_turns h.markers).imp ?_)
    intro t t' hdisjoint n hn hn'
    exact hdisjoint (mem_names_of_mem_indexHandover hn) (mem_names_of_mem_indexHandover hn')
  · obtain ⟨t, -, rfl⟩ := hexists hg
    cases t <;> simp [Turn.indexHandover, Handover.within, Handover.names]
  · obtain ⟨t, -, rfl⟩ := hexists hg
    cases t <;> simp [Turn.indexHandover, Handover.within, Table.indexNames]
  · obtain ⟨t, ht, rfl⟩ := hexists hg
    obtain ⟨name, hname, -⟩ := (mem_owned_iff (hfits ht)).1 hn
    simp [hname]
  · obtain ⟨t, -, rfl⟩ := hexists hg
    cases t <;> simp_all [Turn.indexHandover, Handover.within]
  · obtain ⟨t, -, rfl⟩ := hexists hg
    cases t <;> simp_all [Turn.indexHandover, Handover.within]

include h in
theorem apart_otherIndexes (hprev : prev.indexNames.Nodup) (hnext : next.indexNames.Nodup) :
    Apart (prev.handovers next) (prev.OtherIndexes next) := by
  have hfits {t : Turn Table} := (Changes.mem_turns_iff (t := t) h.markers).1
  refine ⟨?_, ?_, ?_⟩
  · intro n owner g hother hg howner
    obtain ⟨t, ht, rfl⟩ := List.mem_map.1 hg
    exact hother.1 t ht (mem_names_of_mem_indexHandover howner)
  · intro n owner g hother hg hn
    obtain ⟨t, ht, rfl⟩ := List.mem_map.1 hg
    obtain ⟨name, hname, table, htable, hmem⟩ := exists_declared_of_mem_owned (hfits ht) hn
    obtain ⟨houter, table', htable', hmem'⟩ := hother
    obtain rfl := Schema.eq_of_mem_indexNames hprev htable htable' hmem hmem'
    exact houter t ht hname
  · intro n owner g hother hg hn
    obtain ⟨t, ht, rfl⟩ := List.mem_map.1 hg
    obtain ⟨name, hname, table, htable, hmem⟩ := exists_declared_of_mem_wanted (hfits ht) hn
    obtain ⟨houter, hdeclared⟩ := hother
    obtain ⟨table', htable', hmem'⟩ := (exists_indexNames_iff_of_untouched h houter).1 hdeclared
    obtain rfl := Schema.eq_of_mem_indexNames hnext htable htable' hmem hmem'
    exact houter t ht hname

include h in
/-- Before a migration the indexes that are declared are those of the turns and the others. -/
theorem before_iff : Before (prev.handovers next) (prev.OtherIndexes next) n owner ↔
    ∃ table, prev.table? owner = some table ∧ n ∈ table.indexNames owner := by
  have hfits {t : Turn Table} := (Changes.mem_turns_iff (t := t) h.markers).1
  constructor
  · rintro (⟨g, hg, hformer, hn⟩ | hother)
    · obtain ⟨t, ht, rfl⟩ := List.mem_map.1 hg
      obtain ⟨name, hname, hdeclared⟩ := (mem_owned_iff (hfits ht)).1 hn
      obtain rfl := Option.some.inj (hname.symm.trans hformer)
      exact hdeclared
    · exact hother.2
  · intro hdeclared
    by_cases howner : ∃ t ∈ turns Table.renamedFrom prev.tables next.tables, owner ∈ t.names
    · obtain ⟨t, ht, hmem⟩ := howner
      obtain ⟨table, htable, -⟩ := id hdeclared
      have hformer := former_eq_of_mem (hfits ht) hmem (OrderedMap.mem_names_of_find? htable)
      exact .inl ⟨_, List.mem_map_of_mem ht, hformer,
        (mem_owned_iff (hfits ht)).2 ⟨owner, hformer, hdeclared⟩⟩
    · push Not at howner
      exact .inr ⟨howner, hdeclared⟩

include h in
/-- After a migration the indexes that are declared are those of the turns and the others. -/
theorem after_iff : After (prev.handovers next) (prev.OtherIndexes next) n owner ↔
    ∃ table, next.table? owner = some table ∧ n ∈ table.indexNames owner := by
  have hfits {t : Turn Table} := (Changes.mem_turns_iff (t := t) h.markers).1
  constructor
  · rintro (⟨g, hg, hlatter, hn⟩ | hother)
    · obtain ⟨t, ht, rfl⟩ := List.mem_map.1 hg
      obtain ⟨name, hname, hdeclared⟩ := (mem_wanted_iff (hfits ht)).1 hn
      obtain rfl := Option.some.inj (hname.symm.trans hlatter)
      exact hdeclared
    · exact (exists_indexNames_iff_of_untouched h hother.1).1 hother.2
  · intro hdeclared
    by_cases howner : ∃ t ∈ turns Table.renamedFrom prev.tables next.tables, owner ∈ t.names
    · obtain ⟨t, ht, hmem⟩ := howner
      obtain ⟨table, htable, -⟩ := id hdeclared
      have hlatter := latter_eq_of_mem (hfits ht) h.markers hmem
        (OrderedMap.mem_names_of_find? htable)
      exact .inl ⟨_, List.mem_map_of_mem ht, hlatter,
        (mem_wanted_iff (hfits ht)).2 ⟨owner, hlatter, hdeclared⟩⟩
    · push Not at howner
      exact .inr ⟨howner, (exists_indexNames_iff_of_untouched h howner).2 hdeclared⟩

end Migration

/-! ### Migrations in a row -/

/-- A migration can be executed and keeps the indexes in step exactly if their names are handed over
in order. -/
theorem exists_run?_iff (h : Acceptable config prev next) (hprev : prev.indexNames.Nodup)
    (hnext : next.indexNames.Nodup) (hlive : live.InStep prev) :
    (∃ live', live.run? (tableStatements prev.tables next.tables) = some live' ∧
      live'.InStep next) ↔ prev.IndexesOrderly next := by
  rw [Schema.IndexesOrderly, ← Handover.exists_runs_iff (consistent_handovers h hprev hnext)
    (apart_otherIndexes h hprev hnext) fun n owner => (hlive n owner).trans (before_iff h).symm]
  refine exists_congr fun live' => and_congr (run?_tableStatements_iff h) ?_
  exact forall₂_congr fun n owner => by rw [after_iff h]

/-- The names are handed over in order if no table with an index moves and no name of an index goes
from one table to another. -/
theorem Schema.IndexesOrderly.of_owner (h : Acceptable config prev next)
    (hmoved : ∀ source target table, Moves Table.renamedFrom prev.tables next.tables source target →
      prev.table? source = some table → table.indexes = [])
    (howner : ∀ n owner owner' before after, prev.table? owner = some before →
      n ∈ before.indexNames owner → next.table? owner' = some after → n ∈ after.indexNames owner' →
        owner = owner') : prev.IndexesOrderly next := by
  have hfits {t : Turn Table} := (Changes.mem_turns_iff (t := t) h.markers).1
  -- A table has its names under the name by which the statements know it.
  have hsame {g : Handover} (hg : g ∈ prev.handovers next) : g.owned = g.held := by
    obtain ⟨t, ht, rfl⟩ := List.mem_map.1 hg
    cases t with
    | move source target before after =>
      have hnone := hmoved source target before (hfits ht).moves (hfits ht).2.2.2
      simp [Turn.indexHandover, Table.indexNames, hnone]
    | create _ _ | remove _ _ | keep _ _ _ => rfl
  refine ⟨?_, ?_, ?_⟩
  · intro n
    exact exists_congr fun g => and_congr_right fun hg => by rw [hsame hg]
  · intro g n hg hn _
    rwa [hsame hg]
  · refine List.pairwise_map.2 ((Changes.independent_turns h.markers).imp_of_mem
      fun ht ht' hdisjoint n hwanted hheld => ?_)
    rw [← hsame (List.mem_map_of_mem ht')] at hheld
    obtain ⟨name, hname, table, htable, hmem⟩ := exists_declared_of_mem_wanted (hfits ht) hwanted
    obtain ⟨name', hname', table', htable', hmem'⟩ :=
      exists_declared_of_mem_owned (hfits ht') hheld
    obtain rfl := howner _ _ _ _ _ htable' hmem' htable hmem
    exact hdisjoint hname hname'

/-- From a database whose indexes are in step, migrations in a row keep them so exactly if each of
them hands the names over in order. -/
theorem staysInStep_from {targets : List Schema} (hsucceed : Consecutive
      (fun prev next => ∃ migration, migrate config prev next = .ok migration) prev targets)
    (hprev : prev.indexNames.Nodup) (hdistinct : ∀ target ∈ targets, target.indexNames.Nodup)
    (hlive : live.InStep prev) :
    StaysInStep config live prev targets ↔ Consecutive Schema.IndexesOrderly prev targets := by
  induction targets generalizing prev live with
  | nil => exact .rfl
  | cons next rest ih =>
    obtain ⟨⟨migration, hmigrate⟩, hrest⟩ := hsucceed
    obtain ⟨hacceptable, rfl⟩ := migrate_eq_ok_iff.1 hmigrate
    have hnext := hdistinct next List.mem_cons_self
    have hcanonical : next.canonical.indexNames.Nodup := by
      rw [Schema.indexNames_canonical]
      exact hnext
    -- The next migration starts from the schema without markers, which declares the same indexes.
    have hfurther {live' : LiveIndexes} (hstep : live'.InStep next.canonical) :=
      ih hrest hcanonical (fun target htarget => hdistinct target (List.mem_cons_of_mem _ htarget))
        hstep
    rw [StaysInStep, Consecutive, ← exists_run?_iff hacceptable hprev hnext hlive]
    constructor
    · rintro ⟨migration, live', hmigrate', hrun, hstep, hstays⟩
      obtain rfl := Except.ok.inj (hmigrate.symm.trans hmigrate')
      exact ⟨⟨live', hrun, LiveIndexes.inStep_canonical_iff.1 hstep⟩, (hfurther hstep).1 hstays⟩
    · rintro ⟨⟨live', hrun, hstep⟩, horderly⟩
      have hstep' := LiveIndexes.inStep_canonical_iff.2 hstep
      exact ⟨_, live', hmigrate, hrun, hstep', (hfurther hstep').2 horderly⟩

/-- From the empty schema on, if no schema declares a name of an index twice, successful migrations
keep the indexes in step exactly if each of them hands their names over in order. -/
theorem staysInStep_iff {targets : List Schema} (hsucceed : Consecutive
      (fun prev next => ∃ migration, migrate config prev next = .ok migration) .empty targets)
    (hdistinct : ∀ target ∈ targets, target.indexNames.Nodup) :
    StaysInStep config .none .empty targets ↔ Consecutive Schema.IndexesOrderly .empty targets := by
  refine staysInStep_from hsucceed (by decide) hdistinct fun n owner => ?_
  refine ⟨fun hlive => absurd hlive (by simp [LiveIndexes.none]), ?_⟩
  rintro ⟨table, htable, -⟩
  cases htable

/-- A schema of one table, with a stored column and the given indexes of it. -/
def Schema.ofIndexes (table : String) (marker : Option String)
    (indexes : List (String × Option String)) : Schema :=
  ⟨.ofList [(table, ⟨.ofList (("x", ⟨.integer "", none⟩) ::
    indexes.map fun (index, marker) => (index, ⟨.index "x", marker⟩)), marker⟩)]⟩

/-- An index that gets another name within its table is dropped and made anew. -/
theorem staysInStep_renamed_index :
    StaysInStep {} .none .empty
      [.ofIndexes "a" none [("i", none)], .ofIndexes "a" none [("j", some "i")]] := by
  have hfirst : migrate {} .empty (.ofIndexes "a" none [("i", none)]) =
      .ok ⟨[.createTable "a" [("x", ⟨"INTEGER", .number, ""⟩)] [], .createIndex "a" "i" "x"],
        .ofIndexes "a" none [("i", none)]⟩ := by decide
  have hsecond : migrate {} (Schema.ofIndexes "a" none [("i", none)]).canonical
      (.ofIndexes "a" none [("j", some "i")]) =
        .ok ⟨[.dropIndex "a" "i", .createIndex "a" "j" "x"],
          .ofIndexes "a" none [("j", none)]⟩ := by
    decide
  -- There is only the table `a`, before and after, so no name goes elsewhere.
  have horderly {prev : Schema} {indexes : List (String × Option String)}
      (h : Acceptable {} prev (.ofIndexes "a" none indexes))
      (hprev : ∀ name ∈ prev.tables.names, name = "a") :
      prev.IndexesOrderly (.ofIndexes "a" none indexes) := by
    have hnames : (Schema.ofIndexes "a" none indexes).tables.names = ["a"] := rfl
    refine .of_owner h (fun source target _ hmoves _ => ?_)
      fun n owner owner' before after hbefore _ hafter _ => ?_
    · have hgone := h.markers.gone hmoves
      rw [hprev source (h.markers.before hmoves), hnames] at hgone
      exact absurd (List.mem_singleton.2 rfl) hgone
    · have howner' : owner' ∈ (Schema.ofIndexes "a" none indexes).tables.names :=
        OrderedMap.mem_names_of_find? hafter
      rw [hnames, List.mem_singleton] at howner'
      rw [hprev owner (OrderedMap.mem_names_of_find? hbefore), howner']
  have hiff : StaysInStep {} .none .empty
      [.ofIndexes "a" none [("i", none)], .ofIndexes "a" none [("j", some "i")]] ↔ _ :=
    staysInStep_iff ⟨⟨_, hfirst⟩, ⟨_, hsecond⟩, trivial⟩ (by decide)
  exact hiff.2 ⟨horderly (migrate_eq_ok_iff.1 hfirst).1 (by decide),
    horderly (migrate_eq_ok_iff.1 hsecond).1 (by decide), trivial⟩

/-- An index of a table that has got another name is not found under the new one. -/
theorem not_staysInStep_renamed_table :
    Consecutive (fun prev next => ∃ migration, migrate {} prev next = .ok migration) .empty
        [.ofIndexes "a" none [("depr_i", none)], .ofIndexes "b" (some "a") []] ∧
      (∀ target ∈ [Schema.ofIndexes "a" none [("depr_i", none)], .ofIndexes "b" (some "a") []],
        target.indexNames.Nodup) ∧
      ¬StaysInStep {} .none .empty
        [.ofIndexes "a" none [("depr_i", none)], .ofIndexes "b" (some "a") []] := by
  have hfirst : migrate {} .empty (.ofIndexes "a" none [("depr_i", none)]) =
      .ok ⟨[.createTable "a" [("x", ⟨"INTEGER", .number, ""⟩)] [], .createIndex "a" "depr_i" "x"],
        .ofIndexes "a" none [("depr_i", none)]⟩ := by decide
  have hsecond : migrate {} (.ofIndexes "a" none [("depr_i", none)])
      (.ofIndexes "b" (some "a") []) =
        .ok ⟨[.renameTable "a" "b", .dropIndex "b" "depr_i"], .ofIndexes "b" none []⟩ := by decide
  refine ⟨⟨⟨_, hfirst⟩, ⟨_, hsecond⟩, trivial⟩, by decide, ?_⟩
  rintro ⟨migration, live, hmigrate, hrun, -, migration', live', hmigrate', hrun', -⟩
  obtain rfl := Except.ok.inj (hfirst.symm.trans hmigrate)
  obtain rfl := Except.ok.inj (hsecond.symm.trans hmigrate')
  -- The first run leaves the index `a_depr_i`, and the second one looks for `b_depr_i`.
  cases hrun
  cases hrun'

end Schemata
