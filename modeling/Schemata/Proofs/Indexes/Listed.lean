import Schemata.Proofs.Catalog
import Schemata.Proofs.Migration.Traversal
import Schemata.Text.Blank

/-!
# Whether the columns of an index are there when it is created

An index lists columns of its table. A table that is created has all its columns before its first
index. The columns and the indexes of a table that goes on, however, come in the order in which the
next schema declares them, so that an index can be created before a column that it lists is added or
has got its name. Such an order is no fault of the schema, and the plan says nothing about it.

The statements on a column are all in one turn. So a column is there at some point of a migration
exactly if nothing that comes after it has to do with the column.

## Main definitions

* `Statement.Touches`: the statement has to do with the column
* `Database.cell?`, `Database.HasColumn`: what is stored under the name of a column
* `Turn.arriving?`: the name that is new after a turn
* `ThereBefore`: a column is there when another one is added to its table
* `listedNames`: the names in the list that an index is defined by

## Main results

* `cell?_eq_of_run?`: what no statement touches stays as it is
* `idxOf_lt_of_turns`: what is new comes in the order of the next map
* `hasColumn_iff`: the columns that are there when an index is created
* `listed_exist_iff`: when all columns of an index are there
-/

namespace Schemata

open Changes (Arrives Moves Turn turns MarkersHonoured)

universe u

/-! ### What a statement has to do with -/

/-- The statement has to do with the column, or with its table as a whole. -/
def Statement.Touches (s : Statement) (ref : ColumnRef) : Prop :=
  match s with
  | createTable name _ _ | dropTable name => ref.table = name
  | renameTable source target => ref.table = source ∨ ref.table = target
  | addColumn table name _ | dropColumn table name => ref = ⟨table, name⟩
  | renameColumn table source target => ref = ⟨table, source⟩ ∨ ref = ⟨table, target⟩
  | createIndex _ _ _ | dropIndex _ _ => False

namespace Database

variable {κ : Type u} {make : Atom → κ} {db db' : Database κ} {ref : ColumnRef} {table : String}

/-- What is stored under the name of a column. -/
def cell? (db : Database κ) (ref : ColumnRef) : Option (Cell κ) :=
  (db ref.table).bind (· ref.column)

/-- The database has the column. -/
def HasColumn (db : Database κ) (ref : ColumnRef) : Prop :=
  ∃ content, db.cell? ref = some (.column content)

theorem HasColumn.ne_none (h : db.HasColumn ref) : db.cell? ref ≠ none := by
  obtain ⟨content, hcell⟩ := h
  simp [hcell]

theorem cell?_update_of_ne {cells : Option (Cells κ)} (h : ref.table ≠ table) :
    cell? (Function.update db table cells) ref = db.cell? ref := by
  rw [cell?, Function.update_of_ne h, ← cell?]

/-- A change of a table leaves a column alone if it does so in that table. -/
theorem cell?_eq_of_alter? {change : Cells κ → Option (Cells κ)}
    (h : db.alter? table change = some db')
    (hchange : ∀ cells cells', change cells = some cells' → ref.table = table →
      cells' ref.column = cells ref.column) : db'.cell? ref = db.cell? ref := by
  obtain ⟨cells, hcells, hmap⟩ := Option.bind_eq_some_iff.1 h
  obtain ⟨cells', hcells', rfl⟩ := Option.map_eq_some_iff.1 hmap
  by_cases htable : ref.table = table
  · rw [cell?, cell?, htable, Function.update_self, hcells, Option.bind_some, Option.bind_some]
    exact hchange cells cells' hcells' htable
  · exact cell?_update_of_ne htable

/-- Two columns of one table differ in their names. -/
theorem column_ne {name : String} (hne : ref ≠ ⟨table, name⟩) (htable : ref.table = table) :
    ref.column ≠ name := by
  rintro rfl
  exact hne (by rw [← htable])

/-- A statement leaves alone what it does not touch. -/
theorem cell?_eq_of_exec? {s : Statement} (h : exec? make db s = some db') (hs : ¬s.Touches ref) :
    db'.cell? ref = db.cell? ref := by
  cases s with
  | createTable name columns constraints =>
    simp only [exec?] at h
    split at h
    · obtain ⟨cells, -, rfl⟩ := Option.map_eq_some_iff.1 h
      exact cell?_update_of_ne hs
    · cases h
  | renameTable source target =>
    obtain ⟨hsource, htarget⟩ := not_or.1 hs
    simp only [exec?] at h
    split at h
    · -- The table is put under its new name and taken from the old one.
      obtain rfl := Option.some.inj h
      rw [cell?_update_of_ne htarget, cell?_update_of_ne hsource]
    · cases h
  | dropTable name =>
    obtain ⟨cells, -, rfl⟩ := Option.map_eq_some_iff.1 h
    exact cell?_update_of_ne hs
  | addColumn table name a =>
    refine cell?_eq_of_alter? h fun cells cells' hplace htable => ?_
    obtain ⟨-, rfl⟩ := Cells.place?_eq_some_iff.1 hplace
    exact Function.update_of_ne (column_ne hs htable) ..
  | renameColumn table source target =>
    obtain ⟨hsource, htarget⟩ := not_or.1 hs
    refine cell?_eq_of_alter? h fun cells cells' hrename htable => ?_
    obtain ⟨content, -, hplace⟩ := Cells.rename?_eq_some_iff.1 hrename
    obtain ⟨-, rfl⟩ := Cells.place?_eq_some_iff.1 hplace
    rw [Function.update_of_ne (column_ne htarget htable),
      Function.update_of_ne (column_ne hsource htable)]
  | dropColumn table name =>
    refine cell?_eq_of_alter? h fun cells cells' hdrop htable => ?_
    obtain ⟨-, rfl⟩ := Cells.drop?_eq_some_iff.1 hdrop
    exact Function.update_of_ne (column_ne hs htable) ..
  | createIndex table column definition =>
    obtain ⟨cells, -, rfl⟩ := Option.map_eq_some_iff.1 h
    rfl
  | dropIndex table column => rw [← Option.some.inj h]

/-- What no statement touches stays as it is. -/
theorem cell?_eq_of_run? {ss : List Statement} (h : run? make db ss = some db')
    (hss : ∀ s ∈ ss, ¬s.Touches ref) : db'.cell? ref = db.cell? ref := by
  induction ss generalizing db with
  | nil => rw [← Option.some.inj h]
  | cons s ss ih =>
    obtain ⟨m, hm, hrest⟩ := Option.bind_eq_some_iff.1 (run?_cons.symm.trans h)
    obtain ⟨hfirst, hss⟩ := List.forall_mem_cons.1 hss
    exact (ih hrest hss).trans (cell?_eq_of_exec? hm hfirst)

/-- A table takes its columns along when it gets another name. -/
theorem cell?_renameTable {source target column : String}
    (h : exec? make db (.renameTable source target) = some db') :
    db'.cell? ⟨target, column⟩ = db.cell? ⟨source, column⟩ := by
  simp only [exec?] at h
  split at h
  · rename_i cells hsource htarget
    obtain rfl := Option.some.inj h
    simp [cell?, hsource]
  · cases h

theorem cell?_ofSchema {label : String → String → Atom → κ} {schema : Schema} :
    (ofSchema label schema).cell? ref =
      (schema.field? ref).bind (Field.cell? (label ref.table ref.column)) := by
  unfold cell? ofSchema Schema.field?
  cases schema.table? ref.table <;> rfl

/-- A column that is there in the end has been there since the last statement that touches it. -/
theorem hasColumn_of_run? {schema : Schema} {db : Database (String × String)} {a : Atom}
    {ss : List Statement} (h : run? Atom.declared db ss = some schema.catalog)
    (hss : ∀ s ∈ ss, ¬s.Touches ref) (hfield : schema.field? ref = some (.atom a)) :
    db.HasColumn ref := by
  refine ⟨a.declared, ?_⟩
  rw [← cell?_eq_of_run? h hss, Schema.catalog, cell?_ofSchema, hfield]
  rfl

end Database

/-! ### The order of what is new -/

namespace Changes

variable {α : Type} {marker : α → Option String} {prev next : OrderedMap α}

/-- The name that is new after a turn. -/
def Turn.arriving? : Turn α → Option String
  | create name _ | move _ name _ _ => some name
  | _ => none

/-- The names that are new come in the order of the next map. -/
theorem arriving_turns (h : MarkersHonoured marker prev next) :
    (turns marker prev next).filterMap Turn.arriving? =
      next.names.filter fun n => !isReserved n && !prev.contains n := by
  have hdepartures : (departures marker prev next).filterMap Turn.arriving? = [] := by
    refine List.filterMap_eq_nil_iff.2 fun t ht => ?_
    obtain ⟨_, _, -, -, -, rfl⟩ := (mem_departures_iff h).1 ht
    rfl
  have hstays : (stays prev next).filterMap Turn.arriving? = [] := by
    refine List.filterMap_eq_nil_iff.2 fun t ht => ?_
    obtain ⟨_, _, _, -, -, -, rfl⟩ := mem_stays_iff.1 ht
    rfl
  have hcalled : ∀ t ∈ arrivals marker prev next, Turn.arriving? t = some t.called := by
    intro t ht
    obtain ⟨_, _, -, -, ⟨-, rfl⟩ | ⟨_, _, -, -, rfl⟩⟩ := mem_arrivals_iff.1 ht <;> rfl
  have hfault := fault_between_eq_none_iff.2 h
  rw [fault_between] at hfault
  have harrivals : (arrivals marker prev next).filterMap Turn.arriving? =
      (arrivals marker prev next).map Turn.called := by
    rw [← List.filterMap_eq_map]
    exact List.filterMap_congr hcalled
  rw [turns, List.filterMap_append, List.filterMap_append, hdepartures, hstays, List.append_nil,
    List.append_nil, harrivals, ← names_newcomers, arrivals, select_added]
  exact called_arrivals hfault

theorem idxOf_lt_of_sublist {names : List String} (hnodup : names.Nodup) {a b : String}
    (h : [a, b].Sublist names) : names.idxOf a < names.idxOf b := by
  have hordered : names.Pairwise fun a b => names.idxOf a < names.idxOf b := by
    refine List.pairwise_iff_getElem.2 fun i j hi hj hlt => ?_
    rwa [hnodup.idxOf_getElem, hnodup.idxOf_getElem]
  exact List.pairwise_iff_forall_sublist.1 hordered h

/-- Of two turns of new names, the one whose name comes first in the next map is taken first. -/
theorem idxOf_lt_of_turns (h : MarkersHonoured marker prev next) {us vs : List (Turn α)}
    {t t' : Turn α} {a b : String} (hturns : turns marker prev next = us ++ t :: vs)
    (ht' : t' ∈ vs) (ha : t.arriving? = some a) (hb : t'.arriving? = some b) :
    next.names.idxOf a < next.names.idxOf b := by
  -- The two turns stay in their order when only the new names are looked at.
  have hpair : [t, t'].Sublist (turns marker prev next) := by
    rw [hturns]
    exact ((List.singleton_sublist.2 ht').cons_cons t).trans (List.sublist_append_right ..)
  have hnames := hpair.filterMap Turn.arriving?
  rw [arriving_turns h, List.filterMap_cons_some ha, List.filterMap_cons_some hb] at hnames
  exact idxOf_lt_of_sublist next.nodup_names (hnames.trans List.filter_sublist)

end Changes

/-! ### Before and after an index is created -/

section Columns

variable {config : MigrationConfig} {before after : Table} {t : Turn Column}
variable {name table column definition n : String} {done rest : List Statement}

/-- A turn in which an index is created is that of the index, and does nothing to columns. -/
theorem turn_of_createIndex
    (h : t.columnStatements name = done ++ .createIndex table column definition :: rest) :
    table = name ∧ t.arriving? = some column ∧ rest = [] ∧
      ∀ s ∈ done, ∀ ref, ¬s.Touches ref := by
  cases t with
  | create c declared =>
    cases hfield : declared.field <;>
      simp [Turn.columnStatements, hfield, Plan.addition?, List.cons_eq_append_iff] at h
    obtain ⟨rfl, ⟨rfl, rfl, rfl⟩, rfl⟩ := h
    simp [Turn.arriving?]
  | move source target declared entity =>
    cases hfield : declared.field <;>
      simp [Turn.columnStatements, hfield, Plan.renaming?, List.cons_eq_append_iff] at h
    obtain ⟨rfl, ⟨rfl, rfl, rfl⟩, rfl⟩ := h
    simp [Turn.arriving?, Statement.Touches]
  | remove c declared =>
    cases hfield : declared.field <;>
      simp [Turn.columnStatements, hfield, Plan.removal?, List.cons_eq_append_iff] at h
  | keep c declared entity => simp [Turn.columnStatements] at h

/-- A turn has to do with the columns that it speaks of. -/
theorem mem_names_of_touches {s : Statement} {ref : ColumnRef}
    (hs : s ∈ t.columnStatements name) (htouches : s.Touches ref) :
    ref.table = name ∧ ref.column ∈ t.names := by
  cases t with
  | create c declared =>
    cases hfield : declared.field <;>
      simp [Turn.columnStatements, hfield, Plan.addition?] at hs <;>
      subst hs <;> simp_all [Statement.Touches, Turn.names]
  | move source target declared entity =>
    cases hfield : declared.field <;>
      simp [Turn.columnStatements, hfield, Plan.renaming?] at hs
    · subst hs
      obtain rfl | rfl := htouches <;> simp [Turn.names]
    -- An index that moves is dropped and created, which has to do with no column.
    · obtain rfl | rfl := hs <;> cases htouches
  | remove c declared =>
    cases hfield : declared.field <;>
      simp [Turn.columnStatements, hfield, Plan.removal?] at hs <;>
      subst hs <;> simp_all [Statement.Touches, Turn.names]
  | keep c declared entity => cases hs

/-- A turn that has to do with a column of the next table brings it there. -/
theorem arriving_of_touches (honoured : MarkersHonoured Column.renamedFrom before.columns
    after.columns) (hfits : t.Fits Column.renamedFrom before.columns after.columns)
    (hn : n ∈ after.columns.names) {s : Statement} (hs : s ∈ t.columnStatements name)
    (htouches : s.Touches ⟨name, n⟩) :
    t.arriving? = some n ∧ n ∉ before.columns.names := by
  obtain ⟨-, hmem⟩ := mem_names_of_touches hs htouches
  cases t with
  | create c declared =>
    obtain rfl : n = c := by simpa [Turn.names] using hmem
    exact ⟨rfl, hfits.1.2.2⟩
  | move source target declared entity =>
    have hmoves := hfits.moves
    obtain ⟨harrives, hafter, -, -⟩ := hfits
    obtain rfl | rfl : n = source ∨ n = target := by simpa [Turn.names] using hmem
    -- The old name of a column that moves is not a name of the next table.
    · exact absurd hn (honoured.gone hmoves)
    · exact ⟨rfl, harrives.2.2⟩
  | remove c declared =>
    obtain rfl : n = c := by simpa [Turn.names] using hmem
    exact absurd hn hfits.1.2.2
  | keep c declared entity => cases hs

/-- Of the columns of a table that goes on, the one is there before the other is added: it has been
there before, or the next table declares it first. -/
def Table.Precedes (before after : Table) (n column : String) : Prop :=
  n ∈ before.columns.names ∨ after.columns.names.idxOf n < after.columns.names.idxOf column

instance : Decidable (before.Precedes after n column) := inferInstanceAs (Decidable (_ ∨ _))

/-- What the statements before and after the creation of an index have to do with a column. -/
theorem columnStatements_around (h : ColumnsAcceptable config before after)
    (hsplit : columnStatements name before.columns after.columns =
      done ++ .createIndex table column definition :: rest) :
    table = name ∧ ∀ n ∈ after.columns.names,
      (before.Precedes after n column → ∀ s ∈ rest, ¬s.Touches ⟨name, n⟩) ∧
      (¬before.Precedes after n column → ∀ s ∈ done, ¬s.Touches ⟨name, n⟩) := by
  obtain ⟨us, t, vs, done', rest', hturns, hturn, rfl, rfl⟩ :=
    exists_of_flatMap_eq_append_cons hsplit
  obtain ⟨rfl, hcolumn, rfl, hquiet⟩ := turn_of_createIndex hturn
  refine ⟨rfl, fun n hn => ?_⟩
  have hbrings {t' : Turn Column} (ht' : t' ∈ turns Column.renamedFrom before.columns after.columns)
      {s : Statement} (hs : s ∈ t'.columnStatements table) (htouches : s.Touches ⟨table, n⟩) :=
    arriving_of_touches h.markers ((Changes.mem_turns_iff h.markers).1 ht') hn hs htouches
  refine ⟨fun hthere s hs htouches => ?_, fun hlater s hs htouches => ?_⟩
  · -- A column that is brought later is not there before, and comes after the index.
    obtain ⟨t', ht', hs⟩ := List.mem_flatMap.1 (by simpa using hs)
    obtain ⟨harriving, hnew⟩ := hbrings (by simp [hturns, ht']) hs htouches
    have hlt := Changes.idxOf_lt_of_turns h.markers hturns ht' hcolumn harriving
    obtain hold | hearlier := hthere
    · exact hnew hold
    · omega
  · obtain hs | hs := List.mem_append.1 hs
    · obtain ⟨t', ht', hs⟩ := List.mem_flatMap.1 hs
      obtain ⟨harriving, -⟩ := hbrings (by simp [hturns, ht']) hs htouches
      -- The turn of the column comes first, so the turns are divided there once more.
      obtain ⟨us, vs', rfl⟩ := List.append_of_mem ht'
      rw [List.append_assoc, List.cons_append] at hturns
      exact hlater (.inr (Changes.idxOf_lt_of_turns h.markers hturns (by simp) harriving hcolumn))
    · exact hquiet s hs _ htouches

end Columns

section Tables

variable {config : MigrationConfig} {prev next : Schema} {t : Turn Table}
variable {table column definition n : String} {done rest : List Statement}

open Database (run? ofSchema)

/-- A turn of a table has to do with the tables that it speaks of. -/
theorem table_mem_names_of_touches {s : Statement} {ref : ColumnRef} (hs : s ∈ t.tableStatements)
    (htouches : s.Touches ref) : ref.table ∈ t.names := by
  have hcolumns {name : String} {before after : OrderedMap Column}
      (hs : s ∈ columnStatements name before after) : ref.table = name := by
    obtain ⟨t', -, hs⟩ := List.mem_flatMap.1 hs
    exact (mem_names_of_touches hs htouches).1
  cases t with
  | create name declared =>
    obtain rfl | hs := List.mem_cons.1 hs
    · exact List.mem_singleton.2 htouches
    · obtain ⟨e, -, rfl⟩ := List.mem_map.1 hs
      cases htouches
  | move source target declared entity =>
    obtain rfl | hs := List.mem_cons.1 hs
    · obtain hsource | htarget := htouches
      · simp [Turn.names, hsource]
      · simp [Turn.names, htarget]
    · simp [Turn.names, hcolumns hs]
  | remove name declared =>
    obtain rfl := List.mem_singleton.1 hs
    exact List.mem_singleton.2 htouches
  | keep name declared entity => simp [Turn.names, hcolumns hs]

/-- A table that goes on is found in the previous schema in one way. -/
theorem Continues.source_eq {source other : String} (hcontinues : Continues prev next source table)
    (hcontinues' : Continues prev next other table) (hsource : source ∈ prev.tables.names)
    (hother : other ∈ prev.tables.names) : source = other := by
  obtain ⟨-, rfl⟩ | hmoves := hcontinues <;> obtain ⟨-, rfl⟩ | hmoves' := hcontinues'
  · rfl
  · exact absurd hsource hmoves'.1.2.2
  · exact absurd hother hmoves.1.2.2
  · exact Option.some.inj (hmoves.2.symm.trans hmoves'.2)

/-- A column is there when another one is added to its table: the table is new, or goes on from one
in which the column precedes the other. -/
def ThereBefore (prev next : Schema) (table : String) (after : Table) (n column : String) : Prop :=
  ∀ source before, Continues prev next source table → prev.table? source = some before →
    before.Precedes after n column

theorem Continues.thereBefore_iff {source : String} {before after : Table}
    (hcontinues : Continues prev next source table) (hbefore : prev.table? source = some before) :
    ThereBefore prev next table after n column ↔ before.Precedes after n column := by
  refine ⟨fun hall => hall source before hcontinues hbefore, ?_⟩
  intro hprecedes other declared hcontinues' hdeclared
  obtain rfl := hcontinues.source_eq hcontinues' (OrderedMap.mem_names_of_find? hbefore)
    (OrderedMap.mem_names_of_find? hdeclared)
  rwa [← Option.some.inj (hbefore.symm.trans hdeclared)]

/-- A table that is created goes on from no table. -/
theorem Continues.not_create {source : String} {before created : Table}
    (hfits : (Turn.create table created).Fits Table.renamedFrom prev.tables next.tables)
    (hcontinues : Continues prev next source table) (hbefore : prev.table? source = some before) :
    False := by
  obtain ⟨harrives, hcreated, hmarker⟩ := hfits
  obtain ⟨-, rfl⟩ | hmoves := hcontinues
  · exact harrives.2.2 (OrderedMap.mem_names_of_find? hbefore)
  · have hsource := hmoves.2
    rw [hcreated, Option.bind_some, hmarker] at hsource
    cases hsource

/-- After the first index of a table that is created there are only other indexes. -/
theorem creating_around {name : String} {created : Table}
    (hsplit : Statement.creating name created =
      done ++ .createIndex table column definition :: rest) :
    table = name ∧ ∀ s ∈ rest, ∀ ref, ¬s.Touches ref := by
  obtain ⟨-, hcreate⟩ | ⟨done', -, hindexes⟩ := List.cons_eq_append_iff.1 hsplit
  · cases hcreate
  · have hindex {s : Statement} (hs : s ∈ done' ++ .createIndex table column definition :: rest) :
        ∃ c d, s = .createIndex name c d := by
      obtain ⟨e, -, rfl⟩ := List.mem_map.1 (hindexes ▸ hs)
      exact ⟨e.1, e.2, rfl⟩
    refine ⟨?_, fun s hs ref => ?_⟩
    · obtain ⟨_, _, heq⟩ := hindex (s := .createIndex table column definition) (by simp)
      exact (Statement.createIndex.inj heq).1
    · obtain ⟨_, _, rfl⟩ := hindex (s := s) (by simp [hs])
      exact id

/-- What has to do with a column of a table that a turn speaks of is in the statements of that
turn. -/
theorem not_touches_of_independent {us vs : List (Turn Table)}
    (hind : Independent Turn.names (us ++ t :: vs)) {ref : ColumnRef} (href : ref.table ∈ t.names) :
    (∀ s ∈ us.flatMap Turn.tableStatements, ¬s.Touches ref) ∧
      ∀ s ∈ vs.flatMap Turn.tableStatements, ¬s.Touches ref := by
  have hapart := List.pairwise_append.1 hind
  refine ⟨fun s hs htouches => ?_, fun s hs htouches => ?_⟩
  · obtain ⟨t', ht', hs⟩ := List.mem_flatMap.1 hs
    exact hapart.2.2 t' ht' t List.mem_cons_self (table_mem_names_of_touches hs htouches) href
  · obtain ⟨t', ht', hs⟩ := List.mem_flatMap.1 hs
    exact (List.pairwise_cons.1 hapart.2.1).1 t' ht' href (table_mem_names_of_touches hs htouches)

/-- A column that the table does not have is not in the catalog. -/
theorem cell?_catalog_eq_none {schema : Schema} {before : Table}
    (hbefore : schema.table? table = some before) (hn : n ∉ before.columns.names) :
    schema.catalog.cell? ⟨table, n⟩ = none := by
  rw [Schema.catalog, Database.cell?_ofSchema, Schema.field?, hbefore, Option.bind_some,
    Table.field?_eq_none_iff.2 hn, Option.bind_none]

/-- What the statements of a turn before and after the creation of an index do with a column. -/
theorem tableStatements_around (hfits : t.Fits Table.renamedFrom prev.tables next.tables)
    (hacceptable : t.Acceptable config)
    (hsplit : t.tableStatements = done ++ .createIndex table column definition :: rest) :
    table ∈ t.names ∧ ∃ after, next.table? table = some after ∧ ∀ n ∈ after.columns.names,
      (ThereBefore prev next table after n column → ∀ s ∈ rest, ¬s.Touches ⟨table, n⟩) ∧
      (¬ThereBefore prev next table after n column → ∀ db db' : Database (String × String),
        (∀ ref : ColumnRef, ref.table ∈ t.names → db.cell? ref = prev.catalog.cell? ref) →
          run? Atom.declared db done = some db' → db'.cell? ⟨table, n⟩ = none) := by
  cases t with
  | create name declared =>
    obtain ⟨rfl, hquiet⟩ := creating_around hsplit
    have hthere (n : String) : ThereBefore prev next table declared n column :=
      fun source before hcontinues hbefore => (hcontinues.not_create hfits hbefore).elim
    exact ⟨by simp [Turn.names], declared, hfits.2.1, fun n _ =>
      ⟨fun _ s hs => hquiet s hs _, fun hnot => absurd (hthere n) hnot⟩⟩
  | move source target before declared =>
    have hmoves := hfits.moves
    obtain ⟨harrives, hafter, -, hbefore⟩ := hfits
    obtain ⟨-, hcreate⟩ | ⟨done', rfl, hrest⟩ := List.cons_eq_append_iff.1 hsplit
    · cases hcreate
    obtain ⟨rfl, haround⟩ := columnStatements_around hacceptable hrest
    refine ⟨by simp [Turn.names], declared, hafter, fun n hn => ?_⟩
    obtain ⟨hpresent, hmissing⟩ := haround n hn
    rw [Continues.thereBefore_iff (.inr hmoves) hbefore]
    refine ⟨hpresent, fun hnot db db' hbegin hrun => ?_⟩
    -- The table has been renamed, and its columns have gone along.
    obtain ⟨m, hrename, hmoved⟩ := Option.bind_eq_some_iff.1 (Database.run?_cons.symm.trans hrun)
    calc db'.cell? ⟨table, n⟩
      _ = m.cell? ⟨table, n⟩ := Database.cell?_eq_of_run? hmoved (hmissing hnot)
      _ = db.cell? ⟨source, n⟩ := Database.cell?_renameTable hrename
      _ = prev.catalog.cell? ⟨source, n⟩ := hbegin ⟨source, n⟩ (by simp [Turn.names])
      _ = none := cell?_catalog_eq_none hbefore fun hmem => hnot (.inl hmem)
  | remove name declared => simp [Turn.tableStatements, List.cons_eq_append_iff] at hsplit
  | keep name before declared =>
    obtain ⟨hplain, hbefore, hafter⟩ := hfits
    obtain ⟨rfl, haround⟩ := columnStatements_around hacceptable hsplit
    refine ⟨by simp [Turn.names], declared, hafter, fun n hn => ?_⟩
    obtain ⟨hpresent, hmissing⟩ := haround n hn
    rw [Continues.thereBefore_iff (.inl ⟨hplain, rfl⟩) hbefore]
    refine ⟨hpresent, fun hnot db db' hbegin hrun => ?_⟩
    calc db'.cell? ⟨table, n⟩
      _ = db.cell? ⟨table, n⟩ := Database.cell?_eq_of_run? hrun (hmissing hnot)
      _ = prev.catalog.cell? ⟨table, n⟩ := hbegin ⟨table, n⟩ (by simp [Turn.names])
      _ = none := cell?_catalog_eq_none hbefore fun hmem => hnot (.inl hmem)

/-- The columns of a table that are there when an index of it is created. -/
theorem hasColumn_iff {migration : Migration} (h : migrate config prev next = .ok migration)
    (hsplit : migration.statements = done ++ .createIndex table column definition :: rest) :
    ∃ after db, next.table? table = some after ∧
      run? Atom.declared prev.catalog done = some db ∧
      ∀ n a, after.field? n = some (.atom a) →
        (db.HasColumn ⟨table, n⟩ ↔ ThereBefore prev next table after n column) := by
  have hrun := run?_migrate h
  rw [hsplit, Database.run?_append] at hrun
  obtain ⟨db, hdone, hrest⟩ := Option.bind_eq_some_iff.1 hrun
  obtain ⟨hacceptable, rfl⟩ := migrate_eq_ok_iff.1 h
  -- The index is created in the turn of its table. No other turn speaks of that table.
  obtain ⟨us, t, vs, done', rest', hturns, hturn, rfl, rfl⟩ :=
    exists_of_flatMap_eq_append_cons hsplit
  have ht : t ∈ turns Table.renamedFrom prev.tables next.tables := by simp [hturns]
  obtain ⟨hmem, after, hafter, haround⟩ := tableStatements_around
    ((Changes.mem_turns_iff hacceptable.markers).1 ht) (hacceptable.turn ht) hturn
  have hothers {ref : ColumnRef} (href : ref.table ∈ t.names) :=
    not_touches_of_independent (hturns ▸ Changes.independent_turns hacceptable.markers) href
  obtain ⟨m, hbegin, hmoved⟩ := Option.bind_eq_some_iff.1 (Database.run?_append.symm.trans hdone)
  refine ⟨after, db, hafter, hdone, fun n a hn => ?_⟩
  obtain ⟨hpresent, hmissing⟩ := haround n (Table.mem_names_of_field? hn)
  constructor
  · intro hcolumn
    by_contra hnot
    exact hcolumn.ne_none (hmissing hnot m db
      (fun ref href => Database.cell?_eq_of_run? hbegin (hothers href).1) hmoved)
  · intro hthere
    -- Neither the rest of the turn nor the turns of other tables have to do with the column.
    have hquiet : ∀ s ∈ .createIndex table column definition ::
        (rest' ++ vs.flatMap Turn.tableStatements), ¬s.Touches ⟨table, n⟩ := by
      simp only [List.forall_mem_cons, List.forall_mem_append]
      exact ⟨id, hpresent hthere, (hothers hmem).2⟩
    have hfield : next.field? ⟨table, n⟩ = some (.atom a) := by
      rw [Schema.field?, hafter, Option.bind_some, hn]
    rw [Schema.catalog_canonical] at hrest
    exact Database.hasColumn_of_run? hrest hquiet hfield

/-- The names in a list that are separated by commas, without blanks around them. -/
def listedNames (definition : String) : List String :=
  (definition.toList.splitOn ',').map fun name => String.ofList (Text.trim name)

/-- If an index lists stored columns of its table, then when it is created they are all there
exactly if the table is new, or has had each of them before, or declares each of the others before
the index. -/
theorem listed_exist_iff {migration : Migration} (h : migrate config prev next = .ok migration)
    (hsplit : migration.statements = done ++ .createIndex table column definition :: rest) :
    ∃ after db, next.table? table = some after ∧
      run? Atom.declared prev.catalog done = some db ∧
      ((∀ n ∈ listedNames definition, ∃ a, after.field? n = some (.atom a)) →
        ((∀ n ∈ listedNames definition, db.HasColumn ⟨table, n⟩) ↔
          ∀ source before, Continues prev next source table → prev.table? source = some before →
            ∀ n ∈ listedNames definition, before.Precedes after n column)) := by
  obtain ⟨after, db, hafter, hdone, hcolumns⟩ := hasColumn_iff h hsplit
  refine ⟨after, db, hafter, hdone, fun hlisted => ?_⟩
  have hcolumn {n : String} (hn : n ∈ listedNames definition) :
      db.HasColumn ⟨table, n⟩ ↔ ThereBefore prev next table after n column := by
    obtain ⟨a, ha⟩ := hlisted n hn
    exact hcolumns n a ha
  constructor
  · exact fun hall source before hcontinues hbefore n hn =>
      (hcolumn hn).1 (hall n hn) source before hcontinues hbefore
  · exact fun hall n hn => (hcolumn hn).2 fun source before hcontinues hbefore =>
      hall source before hcontinues hbefore n hn

end Tables

/-- A table with stored columns and indexes, which have definitions. -/
def Schema.ofListed (columns : List (String × Option String)) : Schema :=
  ⟨.ofList [("t", ⟨.ofList (columns.map fun (name, definition) =>
    (name, ⟨definition.elim (.integer "") .index, none⟩)), none⟩)]⟩

/-- An index that is declared after a new column that it lists is created after it. -/
theorem listed_exist_after :
    migrate {} (.ofListed [("x", none)])
        (.ofListed [("x", none), ("y", none), ("i", some "x, y")]) =
      .ok ⟨[.addColumn "t" "y" ⟨"INTEGER", .number, ""⟩, .createIndex "t" "i" "x, y"],
        .ofListed [("x", none), ("y", none), ("i", some "x, y")]⟩ ∧
      ∃ db, Database.run? Atom.declared (Schema.ofListed [("x", none)]).catalog
          [.addColumn "t" "y" ⟨"INTEGER", .number, ""⟩] = some db ∧
        ∀ n ∈ listedNames "x, y", db.HasColumn ⟨"t", n⟩ := by
  have hmigrate : migrate {} (.ofListed [("x", none)])
      (.ofListed [("x", none), ("y", none), ("i", some "x, y")]) =
        .ok ⟨[.addColumn "t" "y" ⟨"INTEGER", .number, ""⟩] ++ .createIndex "t" "i" "x, y" :: [],
          .ofListed [("x", none), ("y", none), ("i", some "x, y")]⟩ := by
    decide
  have hnames : listedNames "x, y" = ["x", "y"] := by decide
  obtain ⟨after, db, hafter, hdone, hlisted⟩ := listed_exist_iff hmigrate rfl
  obtain rfl := Option.some.inj hafter
  refine ⟨hmigrate, db, hdone, (hlisted ?_).2 ?_⟩
  · rw [hnames]
    exact fun n hn => ⟨⟨"INTEGER", .number, ""⟩, by revert n; decide⟩
  · intro source before _ hbefore n hn
    have hsource : source ∈ ["t"] := OrderedMap.mem_names_of_find? hbefore
    obtain rfl := List.mem_singleton.1 hsource
    obtain rfl := Option.some.inj hbefore
    rw [hnames] at hn
    revert n
    decide

/-- An index that is declared before a new column that it lists is created before it. -/
theorem not_listed_exist_before :
    migrate {} (.ofListed [("x", none)])
        (.ofListed [("x", none), ("i", some "y"), ("y", none)]) =
      .ok ⟨[.createIndex "t" "i" "y", .addColumn "t" "y" ⟨"INTEGER", .number, ""⟩],
        .ofListed [("x", none), ("i", some "y"), ("y", none)]⟩ ∧
      listedNames "y" = ["y"] ∧
      (Schema.ofListed [("x", none), ("i", some "y"), ("y", none)]).field? ⟨"t", "y"⟩ =
        some (.integer "") ∧
      Database.run? Atom.declared (Schema.ofListed [("x", none)]).catalog [] =
        some (Schema.ofListed [("x", none)]).catalog ∧
      ¬(Schema.ofListed [("x", none)]).catalog.HasColumn ⟨"t", "y"⟩ := by
  refine ⟨by decide, by decide, rfl, rfl, fun hcolumn => hcolumn.ne_none ?_⟩
  exact cell?_catalog_eq_none rfl (by decide)

end Schemata
