import Schemata.Proofs.Database
import Schemata.Proofs.Migration.Acceptance

/-!
# Executing a migration

The statements of a migration can be executed on the database of the previous schema, one after the
other, and lead to the database of the next one. What a column holds afterwards is known from the
two schemas: it has come from the column of the same name, or from the one that the marker of a new
name speaks of, and otherwise it is new. Which contents these are does not matter.

The turns of the tables run independently of each other, and so do the turns of the columns of each
table; the statements of one turn are all that has to be executed by hand.

## Main definitions

* `Changes.origin?`: the name that an entity had before
* `Table.carried`, `Schema.carried`: the contents that the columns have come with

## Main results

* `alters_columnStatements`: the statements on the columns of a table
* `run?_statements`: the statements of a migration
-/

namespace Schemata

open Changes (Arrives Moves Turn turns MarkersHonoured)

universe u

/-! ### What was there before -/

namespace Changes

variable {α : Type u} {marker : α → Option String} {prev next : OrderedMap α}
variable {name source target : String}

/-- The name that an entity of the next map had before: its own, if there was one of that name, or
the one in its marker. -/
def origin? (marker : α → Option String) (prev next : OrderedMap α) (name : String) :
    Option String :=
  if prev.contains name then some name else (next.find? name).bind marker

theorem origin?_of_mem (h : name ∈ prev.names) : origin? marker prev next name = some name := by
  rw [origin?, if_pos (OrderedMap.contains_iff.2 h)]

theorem origin?_of_moves (h : Moves marker prev next source target) :
    origin? marker prev next target = some source := by
  rw [origin?, if_neg (mt OrderedMap.contains_iff.1 h.1.2.2), h.2]

theorem origin?_of_create {entity : α} (h : (Turn.create name entity).Fits marker prev next) :
    origin? marker prev next name = none := by
  rw [origin?, if_neg (mt OrderedMap.contains_iff.1 h.1.2.2), h.2.1, Option.bind_some, h.2.2]

end Changes

variable {κ : Type u}

/-- The contents with which a column of the next table has come from the previous one. -/
def Table.carried (make : Atom → κ) (label : String → Atom → κ) (prev next : Table)
    (name : String) : Atom → κ :=
  match Changes.origin? Column.renamedFrom prev.columns next.columns name with
  | some source => label source
  | none => make

/-- The contents with which the columns of a table of the next schema have come from the previous
one. -/
def Schema.carried (make : Atom → κ) (label : String → String → Atom → κ) (prev next : Schema)
    (name : String) : String → Atom → κ :=
  match Changes.origin? Table.renamedFrom prev.tables next.tables name with
  | some source =>
    match prev.table? source, next.table? name with
    | some before, some after => Table.carried make (label source) before after
    | _, _ => fun _ => make
  | none => fun _ => make

theorem Schema.carried_of_origin? {make : Atom → κ} {label : String → String → Atom → κ}
    {prev next : Schema} {source name : String} {before after : Table}
    (horigin : Changes.origin? Table.renamedFrom prev.tables next.tables name = some source)
    (hbefore : prev.table? source = some before) (hafter : next.table? name = some after) :
    carried make label prev next name = Table.carried make (label source) before after := by
  simp [carried, horigin, hbefore, hafter]

/-- Fields that can become each other leave the same thing in the database. -/
theorem Field.CanBecome.cell?_eq {before after : Field} (h : before.CanBecome after)
    (label : Atom → κ) : before.cell? label = after.cell? label := by
  have hvirtual {field : Field} (hfield : field.isVirtual = true) : field.cell? label = none := by
    cases field <;> simp_all [isVirtual, kind, FieldKind.isVirtual, cell?]
  obtain rfl | ⟨hbefore, hafter⟩ := h
  · rfl
  · rw [hvirtual hbefore, hvirtual hafter]

/-! ### The columns of a table -/

section Columns

variable {make : Atom → κ} {label : String → Atom → κ} {prev next : Table} {table : String}
variable {cells : Cells κ} {column source target : String}

open Database (Alters alters_of_exec? alters_createIndex alters_dropIndex)

/-- A field that is added leaves in the table what it declares, made anew. -/
theorem exists_alters_addition {field : Field} (hkind : field.kind ≠ .constraint)
    (hfree : cells column = none) :
    ∃ cells', Alters make table ((Plan.addition? table column field).getD []) cells cells' ∧
      cells' column = field.cell? make ∧ ∀ c, c ≠ column → cells' c = cells c := by
  cases field with
  | atom a =>
    exact ⟨_, alters_of_exec? (fun _ => rfl) (Cells.place?_eq_some_iff.2 ⟨hfree, rfl⟩),
      Function.update_self .., fun c hc => Function.update_of_ne hc ..⟩
  | index definition => exact ⟨cells, alters_createIndex _ _, hfree, fun _ _ => rfl⟩
  | relation _ | aliasTo _ => exact ⟨cells, .refl make table cells, hfree, fun _ _ => rfl⟩
  | constraint _ => exact absurd rfl hkind

/-- A field that gets another name takes along what it has in the table. -/
theorem exists_alters_renaming {field : Field} {content : Atom → κ}
    (hkind : field.kind ≠ .constraint) (hne : target ≠ source)
    (hsource : cells source = field.cell? content) (hfree : cells target = none) :
    ∃ cells', Alters make table ((Plan.renaming? table source target field).getD []) cells cells' ∧
      cells' target = field.cell? content ∧ cells' source = none ∧
        ∀ c, c ≠ source → c ≠ target → cells' c = cells c := by
  have hquiet (hcell : field.cell? content = none) : cells target = field.cell? content ∧
      cells source = none ∧ ∀ c, c ≠ source → c ≠ target → cells c = cells c :=
    ⟨hfree.trans hcell.symm, hsource.trans hcell, fun _ _ _ => rfl⟩
  cases field with
  | atom a =>
    -- The new name is still free when the old one has been given up.
    have hplace : (Function.update cells source none) target = none := by
      rw [Function.update_of_ne hne, hfree]
    have hrename := Cells.rename?_eq_some_iff.2
      ⟨content a, hsource, Cells.place?_eq_some_iff.2 ⟨hplace, rfl⟩⟩
    refine ⟨_, alters_of_exec? (fun _ => rfl) hrename, Function.update_self .., ?_, ?_⟩
    · rw [Function.update_of_ne hne.symm, Function.update_self]
    · intro c hcsource hctarget
      rw [Function.update_of_ne hctarget, Function.update_of_ne hcsource]
  | index definition =>
    refine ⟨cells, ?_, hquiet rfl⟩
    exact (alters_dropIndex source).trans (alters_createIndex target definition)
  | relation _ | aliasTo _ => exact ⟨cells, .refl make table cells, hquiet rfl⟩
  | constraint _ => exact absurd rfl hkind

/-- A field that is removed leaves nothing in the table. -/
theorem exists_alters_removal {field : Field} {content : Atom → κ}
    (hkind : field.kind ≠ .constraint) (hcell : cells column = field.cell? content) :
    ∃ cells', Alters make table ((Plan.removal? table column field).getD []) cells cells' ∧
      cells' column = none ∧ ∀ c, c ≠ column → cells' c = cells c := by
  cases field with
  | atom a =>
    exact ⟨_, alters_of_exec? (fun _ => rfl) (Cells.drop?_eq_some_iff.2 ⟨⟨content a, hcell⟩, rfl⟩),
      Function.update_self .., fun c hc => Function.update_of_ne hc ..⟩
  | index definition => exact ⟨cells, alters_dropIndex _, hcell, fun _ _ => rfl⟩
  | relation _ | aliasTo _ => exact ⟨cells, .refl make table cells, hcell, fun _ _ => rfl⟩
  | constraint _ => exact absurd rfl hkind

/-- A turn of a column that finds its names as the previous table declares them makes of them what
the next one declares. -/
theorem exists_alters_turn (honoured : MarkersHonoured Column.renamedFrom prev.columns next.columns)
    {t : Turn Column} (hfits : t.Fits Column.renamedFrom prev.columns next.columns)
    (hreproduces : t.Reproduces) (hcells : ∀ c ∈ t.names, cells c = prev.cells label c) :
    ∃ cells', Alters make table (t.columnStatements table) cells cells' ∧
      (∀ c ∈ t.names, cells' c = next.cells (Table.carried make label prev next) c) ∧
        ∀ c ∉ t.names, cells' c = cells c := by
  cases t with
  | create column after =>
    have hfree : cells column = none := by
      rw [hcells column (by simp [Turn.names]), Table.cells_eq_none hfits.1.2.2]
    have hnext : next.cells (Table.carried make label prev next) column =
        after.field.cell? make := by
      rw [Table.cells_of_find? hfits.2.1, Table.carried, Changes.origin?_of_create hfits]
    obtain ⟨cells', halters, hcolumn, hrest⟩ := exists_alters_addition hreproduces hfree
    exact ⟨cells', halters, by simp [Turn.names, hcolumn, hnext], by simpa [Turn.names] using hrest⟩
  | move source target before after =>
    have hmoves := hfits.moves
    obtain ⟨harrives, hafter, -, hbefore⟩ := hfits
    have hsource : cells source = before.field.cell? (label source) := by
      rw [hcells source (by simp [Turn.names]), Table.cells_of_find? hbefore]
    have hfree : cells target = none := by
      rw [hcells target (by simp [Turn.names]), Table.cells_eq_none harrives.2.2]
    -- The cell goes with its column, so it has the label of the name that the column had.
    have hnext : next.cells (Table.carried make label prev next) target =
        after.field.cell? (label source) := by
      rw [Table.cells_of_find? hafter, Table.carried, Changes.origin?_of_moves hmoves]
    obtain ⟨cells', halters, htarget, hgone, hrest⟩ := exists_alters_renaming hreproduces.1
      (honoured.ne hmoves harrives).symm hsource hfree
    refine ⟨cells', halters, ?_, by simpa [Turn.names] using hrest⟩
    simp [Turn.names, htarget, hgone, hnext, hreproduces.2.cell?_eq,
      Table.cells_eq_none (honoured.gone hmoves)]
  | remove column before =>
    have hcell : cells column = before.field.cell? (label column) := by
      rw [hcells column (by simp [Turn.names]), Table.cells_of_find? hfits.2.1]
    obtain ⟨cells', halters, hgone, hrest⟩ := exists_alters_removal hreproduces hcell
    refine ⟨cells', halters, ?_, by simpa [Turn.names] using hrest⟩
    simp [Turn.names, hgone, Table.cells_eq_none hfits.1.2.2]
  | keep column before after =>
    obtain ⟨-, hbefore, hafter⟩ := hfits
    have hcarried : Table.carried make label prev next column = label column := by
      rw [Table.carried, Changes.origin?_of_mem (OrderedMap.mem_names_of_find? hbefore)]
    -- There is no statement, and none is needed: both fields leave the same cell.
    refine ⟨cells, .refl make table cells, ?_, fun _ _ => rfl⟩
    simp only [Turn.names, List.forall_mem_singleton]
    rw [hcells column (by simp [Turn.names]), Table.cells_of_find? hbefore,
      Table.cells_of_find? hafter, hcarried, Field.CanBecome.cell?_eq hreproduces]

/-- A field that is the same in both tables leaves the same in the database. -/
theorem Table.cells_carried_of_field?_eq (h : prev.field? column = next.field? column) :
    prev.cells label column = next.cells (Table.carried make label prev next) column := by
  by_cases hcolumn : column ∈ prev.columns.names
  · rw [Table.cells, Table.cells, ← h, Table.carried, Changes.origin?_of_mem hcolumn]
  · rw [Table.cells, Table.cells, ← h, Table.field?_eq_none_iff.2 hcolumn]
    rfl

/-- The statements on the columns of a table lead from what the previous table declares to what the
next one declares. -/
theorem alters_columnStatements {config : MigrationConfig} (h : ColumnsAcceptable config prev next)
    (make : Atom → κ) (label : String → Atom → κ) (table : String) :
    Alters make table (columnStatements table prev.columns next.columns) (prev.cells label)
      (next.cells (Table.carried make label prev next)) := by
  obtain ⟨cells', hruns, hcells'⟩ := exists_runs_to
    (fun a (t : Turn Column) b => Alters make table (t.columnStatements table) a b)
    (fun cells c => cells c) (Changes.independent_turns h.markers)
    (fun t ht a ha => exists_alters_turn h.markers ((Changes.mem_turns_iff h.markers).1 ht)
      (h.turn ht).2 ha)
    (fun c hc => Table.cells_carried_of_field?_eq (h.field?_eq_of_untouched hc)) fun _ => rfl
  rw [← funext hcells']
  exact .of_runs hruns

end Columns

/-! ### The tables of a schema -/

section Tables

variable {config : MigrationConfig} {make : Atom → κ} {label : String → String → Atom → κ}
variable {prev next : Schema} {db : Database κ}

open Database (run? ofSchema run?_cons run?_creating)

/-- A table has all that it has in the previous schema, if no turn speaks of it. -/
theorem ofSchema_of_untouched {name : String}
    (hfields : prev.fieldsOf? name = next.fieldsOf? name) :
    ofSchema label prev name = ofSchema (Schema.carried make label prev next) next name := by
  unfold Schema.fieldsOf? at hfields
  cases hprev : prev.table? name with
  | none =>
    have hnext : next.table? name = none := by simpa [hprev] using hfields.symm
    simp [ofSchema, hprev, hnext]
  | some before =>
    cases hnext : next.table? name with
    | none => simp [hprev, hnext] at hfields
    | some after =>
      have hfield : before.field? = after.field? := by simpa [hprev, hnext] using hfields
      have horigin : Changes.origin? Table.renamedFrom prev.tables next.tables name = some name :=
        Changes.origin?_of_mem (OrderedMap.mem_names_of_find? hprev)
      rw [ofSchema, ofSchema, hprev, hnext, Schema.carried_of_origin? horigin hprev hnext]
      simp only [Option.map_some]
      congr 1
      funext c
      exact Table.cells_carried_of_field?_eq (congrFun hfield c)

/-- A table that moves gets its new name first, and then its columns are changed there. -/
theorem exists_run?_move {source target : String} {before after : Table} (make : Atom → κ)
    (hne : source ≠ target) (h : ColumnsAcceptable config before after)
    (hsource : db source = some (before.cells (label source))) (htarget : db target = none) :
    ∃ db', run? make db (Turn.move source target before after).tableStatements = some db' ∧
      db' target = some (after.cells (Table.carried make (label source) before after)) ∧
        db' source = none ∧ ∀ n, n ≠ source → n ≠ target → db' n = db n := by
  -- The columns find the table as it was, under its new name.
  let renamed : Database κ := Function.update (Function.update db source none) target
    (some (before.cells (label source)))
  have hrename : run? make db (Turn.move source target before after).tableStatements =
      run? make renamed (columnStatements target before.columns after.columns) := by
    rw [Turn.tableStatements, run?_cons, Database.exec?, hsource, htarget]
    rfl
  have hcolumns := alters_columnStatements h make (label source) target renamed
    (Function.update_self ..)
  refine ⟨_, hrename.trans hcolumns, Function.update_self .., ?_, ?_⟩
  · simp only [renamed, Function.update_of_ne hne, Function.update_self]
  · intro n hnsource hntarget
    simp only [renamed, Function.update_of_ne hntarget, Function.update_of_ne hnsource]

/-- A turn of a table that finds its names as the previous schema declares them makes of them what
the next one declares, and nothing of other names. -/
theorem exists_run?_turn (honoured : MarkersHonoured Table.renamedFrom prev.tables next.tables)
    {t : Turn Table} (hfits : t.Fits Table.renamedFrom prev.tables next.tables)
    (hacceptable : t.Acceptable config) (hdb : ∀ n ∈ t.names, db n = ofSchema label prev n) :
    ∃ db', run? make db t.tableStatements = some db' ∧
      (∀ n ∈ t.names, db' n = ofSchema (Schema.carried make label prev next) next n) ∧
        ∀ n ∉ t.names, db' n = db n := by
  cases t with
  | create name after =>
    have hfree : db name = none := by
      rw [hdb name (by simp [Turn.names]), Database.ofSchema_eq_none hfits.1.2.2]
    have hcarried : Schema.carried make label prev next name = fun _ => make := by
      rw [Schema.carried, Changes.origin?_of_create hfits]
    -- A new table takes nothing from the database, so all its cells are made.
    refine ⟨_, run?_creating after hfree, ?_, ?_⟩
    · simp [Turn.names, Database.ofSchema_of_find? hfits.2.1, hcarried]
    · simpa [Turn.names] using fun n hn => Function.update_of_ne hn ..
  | move source target before after =>
    have hmoves := hfits.moves
    obtain ⟨harrives, hafter, -, hbefore⟩ := hfits
    have hsource : db source = some (before.cells (label source)) := by
      rw [hdb source (by simp [Turn.names]), Database.ofSchema_of_find? hbefore]
    have hfree : db target = none := by
      rw [hdb target (by simp [Turn.names]), Database.ofSchema_eq_none harrives.2.2]
    have hcarried : Schema.carried make label prev next target =
        Table.carried make (label source) before after :=
      Schema.carried_of_origin? (Changes.origin?_of_moves hmoves) hbefore hafter
    obtain ⟨db', hrun, htarget, hgone, hrest⟩ :=
      exists_run?_move make (honoured.ne hmoves harrives) hacceptable hsource hfree
    refine ⟨db', hrun, ?_, by simpa [Turn.names] using hrest⟩
    simp [Turn.names, htarget, hgone, Database.ofSchema_of_find? hafter, hcarried,
      Database.ofSchema_eq_none (honoured.gone hmoves)]
  | remove name before =>
    have hsome : db name = some (before.cells (label name)) := by
      rw [hdb name (by simp [Turn.names]), Database.ofSchema_of_find? hfits.2.1]
    refine ⟨Function.update db name none, ?_, ?_, ?_⟩
    · rw [Turn.tableStatements, run?_cons, Database.exec?, hsome]
      rfl
    · simp [Turn.names, Database.ofSchema_eq_none hfits.1.2.2]
    · simpa [Turn.names] using fun n hn => Function.update_of_ne hn ..
  | keep name before after =>
    obtain ⟨-, hbefore, hafter⟩ := hfits
    have hsome : db name = some (before.cells (label name)) := by
      rw [hdb name (by simp [Turn.names]), Database.ofSchema_of_find? hbefore]
    have hmem : name ∈ prev.tables.names := OrderedMap.mem_names_of_find? hbefore
    have hcarried : Schema.carried make label prev next name =
        Table.carried make (label name) before after :=
      Schema.carried_of_origin? (Changes.origin?_of_mem hmem) hbefore hafter
    -- The table stays in its place, and its statements are those on its columns.
    refine ⟨_, alters_columnStatements hacceptable make (label name) name db hsome, ?_, ?_⟩
    · simp [Turn.names, Database.ofSchema_of_find? hafter, hcarried]
    · simpa [Turn.names] using fun n hn => Function.update_of_ne hn ..

/-- The statements between two acceptable schemas lead from the database of the one to that of the
other. -/
theorem run?_statements (h : Acceptable config prev next) (make : Atom → κ)
    (label : String → String → Atom → κ) :
    run? make (ofSchema label prev) (tableStatements prev.tables next.tables) =
      some (ofSchema (Schema.carried make label prev next) next) := by
  obtain ⟨db', hruns, hdb'⟩ := exists_runs_to
    (fun a (t : Turn Table) b => run? make a t.tableStatements = some b) (fun db n => db n)
    (Changes.independent_turns h.markers)
    (fun t ht a ha => exists_run?_turn h.markers ((Changes.mem_turns_iff h.markers).1 ht)
      (h.turn ht) ha)
    (fun n hn => ofSchema_of_untouched (h.fieldsOf?_eq_of_untouched hn)) fun _ => rfl
  rw [tableStatements, run?, foldlM_flatMap, ← funext hdb']
  exact runs_foldlM_some_iff.2 hruns

end Tables

end Schemata
