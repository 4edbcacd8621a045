import Mathlib.Data.List.Nodup
import Mathlib.Logic.Function.Basic
import Schemata.Ddl.Statement
import Schemata.Proofs.Locality

/-!
# What statements do to a database

A database is seen here as its tables with their stored columns and constraints. What a column holds
is left open: the declaration it was made with, or the data in it. Statements that create a column
make new contents from its declaration, and all others carry the contents along.

A statement is not defined if what it acts on is missing or a name that it introduces is taken.
Columns and constraints of a table share their names. Statements on indexes change nothing here.

## Main definitions

* `Database`, `Cell`: tables and their parts
* `Database.exec?`, `Database.run?`: the effect of a statement, and of several in a row
* `Database.ofSchema`: the database that a schema declares
* `Database.Alters`: statements that lead from one state of a table to another

## Main results

* `run?_creating`: creating a declared table makes what it declares
* `Alters.trans`, `Alters.of_runs`: alterations of a table follow upon each other
-/

namespace Schemata

universe u

/-- A part of a table of a database: a column with its contents, or a constraint. -/
inductive Cell (κ : Type u)
  | column (content : κ)
  | constraint (definition : String)

/-- The parts of a table by their names. -/
abbrev Cells (κ : Type u) : Type u := String → Option (Cell κ)

/-- A database: the tables by their names. -/
abbrev Database (κ : Type u) : Type u := String → Option (Cells κ)

variable {κ : Type u}

namespace Cells

/-- The table without parts. -/
def empty : Cells κ := fun _ => none

/-- The table with a further part, whose name has to be free. -/
def place? (cells : Cells κ) (name : String) (cell : Cell κ) : Option (Cells κ) :=
  match cells name with
  | none => some (Function.update cells name (some cell))
  | some _ => none

/-- The table with a column under another name, which has to be free. -/
def rename? (cells : Cells κ) (source target : String) : Option (Cells κ) :=
  match cells source with
  | some (.column content) =>
      Cells.place? (Function.update cells source none) target (.column content)
  | _ => none

/-- The table without a column. -/
def drop? (cells : Cells κ) (name : String) : Option (Cells κ) :=
  match cells name with
  | some (.column _) => some (Function.update cells name none)
  | _ => none

/-- The table with further parts, one after the other. -/
def placeAll? (cells : Cells κ) (parts : List (String × Cell κ)) : Option (Cells κ) :=
  parts.foldlM (fun cells part => cells.place? part.1 part.2) cells

end Cells

namespace Database

/-- The database after a change of a table, which has to be there. -/
def alter? (db : Database κ) (table : String) (change : Cells κ → Option (Cells κ)) :
    Option (Database κ) :=
  (db table).bind fun cells => (change cells).map fun cells => Function.update db table (some cells)

/-- The parts that a new table gets. -/
def partsOf (make : Atom → κ) (columns : List (String × Atom))
    (constraints : List (String × String)) : List (String × Cell κ) :=
  columns.map (fun (name, a) => (name, .column (make a))) ++
    constraints.map fun (name, definition) => (name, .constraint definition)

/-- The effect of a statement, if it can be executed. A new column holds what `make` makes of its
declaration. -/
def exec? (make : Atom → κ) (db : Database κ) : Statement → Option (Database κ)
  | .createTable name columns constraints =>
    match db name with
    | none =>
      (Cells.empty.placeAll? (partsOf make columns constraints)).map fun cells =>
        Function.update db name (some cells)
    | some _ => none
  | .renameTable source target =>
    match db source, db target with
    | some cells, none =>
      some (Function.update (Function.update db source none) target (some cells))
    | _, _ => none
  | .dropTable name => (db name).map fun _ => Function.update db name none
  | .addColumn table name a => db.alter? table (·.place? name (.column (make a)))
  | .renameColumn table source target => db.alter? table (·.rename? source target)
  | .dropColumn table name => db.alter? table (·.drop? name)
  | .createIndex table _ _ => (db table).map fun _ => db
  | .dropIndex _ _ => some db

/-- The effect of several statements, one after the other. -/
def run? (make : Atom → κ) (db : Database κ) (statements : List Statement) : Option (Database κ) :=
  statements.foldlM (exec? make) db

end Database

/-- What is stored of a field. -/
def Field.cell? (label : Atom → κ) : Field → Option (Cell κ)
  | atom a => some (.column (label a))
  | constraint definition => some (.constraint definition)
  | relation _ | aliasTo _ | index _ => none

/-- The parts that a table declares. -/
def Table.cells (label : String → Atom → κ) (table : Table) : Cells κ :=
  fun name => (table.field? name).bind (Field.cell? (label name))

/-- The database that a schema declares, with the contents of each column by its label. -/
def Database.ofSchema (label : String → String → Atom → κ) (schema : Schema) : Database κ :=
  fun name => (schema.table? name).map (Table.cells (label name))

namespace Cells

variable {cells cells' : Cells κ} {name source target other : String} {cell : Cell κ}

theorem place?_eq_some_iff : cells.place? name cell = some cells' ↔
    cells name = none ∧ Function.update cells name (some cell) = cells' := by
  unfold place?
  cases cells name <;> simp

theorem drop?_eq_some_iff : cells.drop? name = some cells' ↔
    (∃ content, cells name = some (.column content)) ∧
      Function.update cells name none = cells' := by
  unfold drop?
  cases h : cells name with
  | none => simp
  | some cell => cases cell <;> simp

theorem rename?_eq_some_iff : cells.rename? source target = some cells' ↔
    ∃ content, cells source = some (.column content) ∧
      Cells.place? (Function.update cells source none) target (.column content) = some cells' := by
  unfold rename?
  cases h : cells source with
  | none => simp
  | some cell => cases cell <;> simp

/-- Parts with names that are free and differ are all placed. -/
theorem exists_placeAll? (cells : Cells κ) {parts : List (String × Cell κ)}
    (hnodup : (Entries.names parts).Nodup)
    (hfree : ∀ n ∈ Entries.names parts, cells n = none) :
    ∃ cells', cells.placeAll? parts = some cells' ∧
      ∀ n cell, cells' n = some cell ↔ (n, cell) ∈ parts ∨ cells n = some cell := by
  induction parts generalizing cells with
  | nil => exact ⟨cells, rfl, by simp⟩
  | cons part rest ih =>
    obtain ⟨first, cell⟩ := part
    simp only [Entries.names_cons, List.nodup_cons, List.mem_cons, forall_eq_or_imp] at hnodup hfree
    obtain ⟨hfirst, hrest⟩ := hfree
    -- The first part takes a name that no other part has.
    have hfree' : ∀ n ∈ Entries.names rest, Function.update cells first (some cell) n = none := by
      intro n hn
      have hne : n ≠ first := fun heq => hnodup.1 (heq ▸ hn)
      rw [Function.update_of_ne hne]
      exact hrest n hn
    obtain ⟨cells', hplace, hcells'⟩ := ih _ hnodup.2 hfree'
    refine ⟨cells', ?_, fun n c => ?_⟩
    · rw [placeAll?, List.foldlM_cons, place?_eq_some_iff.2 ⟨hfirst, rfl⟩]
      exact hplace
    · rw [hcells', List.mem_cons, Function.update_apply, Prod.mk.injEq]
      split_ifs with hn
      · simp [hn, hfirst, eq_comm, or_comm]
      · simp [hn]

end Cells

section Declared

variable {label : String → Atom → κ} {table : Table} {name : String} {cell : Cell κ}

theorem Table.cells_of_field? {field : Field} (h : table.field? name = some field) :
    table.cells label name = field.cell? (label name) := by
  simp [cells, h]

theorem Table.cells_eq_none (h : name ∉ table.columns.names) : table.cells label name = none := by
  rw [cells, field?_eq_none_iff.2 h, Option.bind_none]

theorem Table.cells_of_find? {column : Column} (h : table.columns.find? name = some column) :
    table.cells label name = column.field.cell? (label name) :=
  cells_of_field? (field?_of_find? h)

theorem Database.ofSchema_of_find? {label : String → String → Atom → κ} {schema : Schema}
    (h : schema.tables.find? name = some table) :
    ofSchema label schema name = some (table.cells (label name)) := by
  rw [ofSchema, Schema.table?, h, Option.map_some]

theorem Database.ofSchema_eq_none {label : String → String → Atom → κ} {schema : Schema}
    (h : name ∉ schema.tables.names) : ofSchema label schema name = none := by
  rw [ofSchema, Schema.table?, OrderedMap.find?_eq_none_iff.2 h, Option.map_none]

/-- Markers do not touch what is stored. -/
@[simp] theorem Table.cells_canonical : table.canonical.cells label = table.cells label := by
  funext name
  simp [cells]

@[simp] theorem Database.ofSchema_canonical {label : String → String → Atom → κ} {schema : Schema} :
    ofSchema label schema.canonical = ofSchema label schema := by
  funext name
  simp [ofSchema, Function.comp_def]

/-- The parts that a declared table gets are those that it declares. -/
theorem Table.mem_partsOf_iff {make : Atom → κ} :
    (name, cell) ∈ Database.partsOf make table.atoms table.constraints ↔
      table.cells (fun _ => make) name = some cell := by
  simp only [Database.partsOf, List.mem_append, List.mem_map, Prod.exists, Prod.mk.injEq,
    mem_atoms_iff, mem_constraints_iff, cells, Option.bind_eq_some_iff]
  constructor
  · rintro (⟨n, a, hfield, rfl, rfl⟩ | ⟨n, definition, hfield, rfl, rfl⟩)
    · exact ⟨_, hfield, rfl⟩
    · exact ⟨_, hfield, rfl⟩
  · rintro ⟨field, hfield, hcell⟩
    cases field <;> simp only [Field.cell?, reduceCtorEq, Option.some.injEq] at hcell
    · exact .inl ⟨name, _, hfield, rfl, hcell⟩
    · exact .inr ⟨name, _, hfield, rfl, hcell⟩

theorem Table.nodup_names_partsOf (make : Atom → κ) :
    (Entries.names (Database.partsOf make table.atoms table.constraints)).Nodup := by
  have hnames : Entries.names (Database.partsOf make table.atoms table.constraints) =
      Entries.names table.atoms ++ Entries.names table.constraints := by
    simp [Database.partsOf, Entries.names, Function.comp_def]
  rw [hnames]
  refine List.nodup_append.2 ⟨nodup_names_atoms, nodup_names_constraints, ?_⟩
  -- A column is not an atom and a constraint at once.
  rintro n hn n' hn' rfl
  obtain ⟨⟨_, a⟩, ha, rfl⟩ := List.mem_map.1 hn
  obtain ⟨⟨n, definition⟩, hdefinition, heq⟩ := List.mem_map.1 hn'
  have hatom := mem_atoms_iff.1 ha
  have hconstraint := mem_constraints_iff.1 hdefinition
  obtain rfl : n = _ := heq
  rw [hatom] at hconstraint
  simp at hconstraint

end Declared

/-! ### Statements on a table -/

namespace Database

variable {make : Atom → κ} {db : Database κ} {table name source target : String}
variable {cells cells' cells'' : Cells κ} {ss ss' : List Statement}

@[simp] theorem run?_nil : run? make db [] = some db := rfl

theorem run?_cons {s : Statement} :
    run? make db (s :: ss) = (exec? make db s).bind (run? make · ss) :=
  List.foldlM_cons ..

theorem run?_append : run? make db (ss ++ ss') = (run? make db ss).bind (run? make · ss') :=
  List.foldlM_append ..

/-- Statements on indexes of a table that is there change nothing. -/
theorem run?_indexes (h : (db table).isSome) (indexes : List (String × String)) :
    run? make db (indexes.map fun (column, definition) => .createIndex table column definition) =
      some db := by
  induction indexes with
  | nil => rfl
  | cons index rest ih =>
    obtain ⟨cells, hcells⟩ := Option.isSome_iff_exists.1 h
    rw [List.map_cons, run?_cons, exec?, hcells]
    exact ih

/-- Creating a declared table makes what it declares. -/
theorem run?_creating (declared : Table) (h : db name = none) :
    run? make db (Statement.creating name declared) =
      some (Function.update db name (some (declared.cells fun _ => make))) := by
  obtain ⟨cells, hplace, hcells⟩ := Cells.exists_placeAll? Cells.empty
    (declared.nodup_names_partsOf make) fun _ _ => rfl
  have hdeclared : cells = declared.cells fun _ => make := by
    funext n
    refine Option.ext fun cell => ?_
    rw [hcells, Table.mem_partsOf_iff]
    simp [Cells.empty]
  rw [Statement.creating, run?_cons, exec?, h]
  simp only [hplace, hdeclared, Option.map_some, Option.bind_some]
  exact run?_indexes (by simp) _

/-- Wherever the table is in the one state, the statements lead to the database in which it is in
the other and which is otherwise the same. -/
def Alters (make : Atom → κ) (table : String) (ss : List Statement) (cells cells' : Cells κ) :
    Prop :=
  ∀ db : Database κ, db table = some cells →
    run? make db ss = some (Function.update db table (some cells'))

theorem Alters.refl (make : Atom → κ) (table : String) (cells : Cells κ) :
    Alters make table [] cells cells := by
  intro db hdb
  rw [run?_nil, ← hdb, Function.update_eq_self]

theorem Alters.trans (h : Alters make table ss cells cells')
    (h' : Alters make table ss' cells' cells'') : Alters make table (ss ++ ss') cells cells'' := by
  intro db hdb
  rw [run?_append, h db hdb, Option.bind_some, h' _ (Function.update_self ..), Function.update_idem]

/-- A statement that changes a table alters it. -/
theorem alters_of_exec? {s : Statement} {change : Cells κ → Option (Cells κ)}
    (hexec : ∀ db : Database κ, exec? make db s = db.alter? table change)
    (hchange : change cells = some cells') : Alters make table [s] cells cells' := by
  intro db hdb
  rw [run?_cons, hexec, alter?, hdb, Option.bind_some, hchange]
  rfl

theorem alters_createIndex (column definition : String) :
    Alters make table [.createIndex table column definition] cells cells := by
  intro db hdb
  rw [run?_cons, exec?, hdb, Option.map_some, Option.bind_some, run?_nil, ← hdb,
    Function.update_eq_self]

theorem alters_dropIndex (column : String) :
    Alters make table [.dropIndex table column] cells cells := by
  intro db hdb
  rw [run?_cons, exec?, Option.bind_some, run?_nil, ← hdb, Function.update_eq_self]

/-- Runs of alterations are alterations. -/
theorem Alters.of_runs {τ : Type*} {f : τ → List Statement} {ts : List τ}
    (hruns : Runs (fun a t b => Alters make table (f t) a b) cells ts cells') :
    Alters make table (ts.flatMap f) cells cells' := by
  induction hruns with
  | nil cells => exact .refl make table cells
  | cons hstep _ ih => exact hstep.trans ih

end Database

end Schemata
