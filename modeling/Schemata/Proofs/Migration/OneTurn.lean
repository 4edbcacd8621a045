import Schemata.Proofs.Migration.Repetition

/-!
# Migrations with one turn

Between two maps of which the second has lost names, or has one of them replaced, all turns but a
few keep what there is, and are silent. What is left to be looked at are the entities that are gone
and the one that has another name.

For columns this is said of tables. Virtual columns may be gone or be others under their names,
without a statement; so there is none at all if nothing else is different, and if one column is, the
statements are those of that column.

## Main definitions

* `Changes.Replaces`: one name has been replaced, and the new one has the old one as its marker
* `Table.ShrinksTo`: columns are lost for cause, and those that stay are the same or virtual
* `Schema.HasPlainNames`: no name is reserved

## Main results

* `remove_or_keep_of_mem_turns`, `Replaces.move_or_keep_of_mem_turns`: which turns there are
* `ShrinksTo.columnsAcceptable`, `Replaces.columnsAcceptable`: such columns are acceptable
* `Acceptable.of_subset`, `Replaces.acceptable`: such tables are acceptable
* `ShrinksTo.columnStatements_eq`, `Replaces.tableStatements_eq` and their like: the statements
-/

namespace Schemata

universe u

open Changes (Arrives Departs Moves Turn turns MarkersHonoured)

/-- What comes of a list of different things of which only one has anything is what comes of that
one. -/
theorem flatMap_eq_of_forall_ne {α β : Type*} {l : List α} {f : α → List β} {a : α}
    (hnodup : l.Nodup) (ha : a ∈ l) (hrest : ∀ b ∈ l, b ≠ a → f b = []) : l.flatMap f = f a := by
  obtain ⟨before, after, rfl⟩ := List.append_of_mem ha
  -- The thing stands there once, so what stands before and behind it is silent.
  obtain ⟨hnew, -⟩ := List.nodup_cons.1 (List.nodup_middle.1 hnodup)
  have hsilent (part : List α) (hpart : part ⊆ before ++ after) : part.flatMap f = [] := by
    apply List.flatMap_eq_nil_iff.2
    intro b hb
    have hmem := hpart hb
    exact hrest b (by grind) fun heq => hnew (heq ▸ hmem)
  rw [List.flatMap_append, List.flatMap_cons, hsilent before (by simp), hsilent after (by simp),
    List.nil_append, List.append_nil]

theorem not_mem_of_isReserved {names : List String} {name : String}
    (hplain : ∀ n ∈ names, isReserved n = false) (h : isReserved name = true) : name ∉ names := by
  intro hmem
  rw [hplain name hmem] at h
  cases h

/-! ### Names that are lost or replaced -/

namespace Changes

variable {α : Type u} {marker : α → Option String} {prev next : OrderedMap α}

/-- Where no name is new every turn removes or keeps. -/
theorem remove_or_keep_of_mem_turns (hnames : ∀ n ∈ next.names, n ∈ prev.names) {t : Turn α}
    (ht : t ∈ turns marker prev next) :
    (∃ name before, Departs prev next name ∧ prev.find? name = some before ∧
      t = .remove name before) ∨
    ∃ name before after, prev.find? name = some before ∧ next.find? name = some after ∧
      t = .keep name before after := by
  have hfits := (mem_turns_iff (.of_subset hnames)).1 ht
  cases t with
  | create name after => exact absurd (hnames name hfits.1.2.1) hfits.1.2.2
  | move source target before after => exact absurd (hnames target hfits.1.2.1) hfits.1.2.2
  | remove name before => exact .inl ⟨name, before, hfits.1, hfits.2.1, rfl⟩
  | keep name before after => exact .inr ⟨name, before, after, hfits.2.1, hfits.2.2, rfl⟩

/-- A name has been replaced by a new one, which has the old one as its marker. -/
structure Replaces (marker : α → Option String) (prev next : OrderedMap α)
    (source target : String) : Prop where
  source_mem : source ∈ prev.names
  arrives : Arrives prev next target
  marker : (next.find? target).bind marker = some source
  mem_iff {name : String} : name ≠ target → (name ∈ next.names ↔ name ∈ prev.names ∧ name ≠ source)

namespace Replaces

variable {source target : String} (h : Replaces marker prev next source target)

include h

theorem eq_target {name : String} (harrives : Arrives prev next name) : name = target := by
  by_contra hne
  exact harrives.2.2 ((h.mem_iff hne).1 harrives.2.1).1

/-- What is new has a marker. -/
theorem marker_ne_none {name : String} {entity : α} (harrives : Arrives prev next name)
    (hentity : next.find? name = some entity) : marker entity ≠ none := by
  have hmarker := h.marker
  rw [← h.eq_target harrives, hentity, Option.bind_some] at hmarker
  simp [hmarker]

theorem moves_iff {s t : String} : Moves marker prev next s t ↔ s = source ∧ t = target := by
  constructor
  · rintro ⟨harrives, hmarker⟩
    have htarget := h.eq_target harrives
    rw [htarget, h.marker] at hmarker
    exact ⟨(Option.some.inj hmarker).symm, htarget⟩
  · rintro ⟨rfl, rfl⟩
    exact ⟨h.arrives, h.marker⟩

theorem source_ne : source ≠ target := by
  rintro rfl
  exact h.arrives.2.2 h.source_mem

theorem source_gone : source ∉ next.names := fun hmem =>
  ((h.mem_iff h.source_ne).1 hmem).2 rfl

theorem honoured : MarkersHonoured marker prev next where
  before hmoves := by
    rw [(h.moves_iff.1 hmoves).1]
    exact h.source_mem
  gone hmoves := by
    rw [(h.moves_iff.1 hmoves).1]
    exact h.source_gone
  once hmoves hmoves' := (h.moves_iff.1 hmoves).2.trans (h.moves_iff.1 hmoves').2.symm

theorem departs {name : String} (hdeparts : Departs prev next name) : name = source := by
  by_contra hne
  have hother : name ≠ target := fun heq => h.arrives.2.2 (heq ▸ hdeparts.2.1)
  exact hdeparts.2.2 ((h.mem_iff hother).2 ⟨hdeparts.2.1, hne⟩)

/-- One turn moves the name, and all others keep theirs. -/
theorem move_or_keep_of_mem_turns {t : Turn α} (ht : t ∈ turns marker prev next) :
    (∃ before after, prev.find? source = some before ∧ next.find? target = some after ∧
      t = .move source target before after) ∨
    ∃ name before after, prev.find? name = some before ∧ next.find? name = some after ∧
      t = .keep name before after := by
  have hfits := (mem_turns_iff h.honoured).1 ht
  -- What is new has a marker, and what is gone has moved: nothing is created, nothing is removed.
  cases t with
  | create name after => exact absurd hfits.2.2 (h.marker_ne_none hfits.1 hfits.2.1)
  | move s t before after =>
    obtain ⟨rfl, rfl⟩ := h.moves_iff.1 hfits.moves
    exact .inl ⟨before, after, hfits.2.2.2, hfits.2.1, rfl⟩
  | remove name before =>
    obtain ⟨hdeparts, -, hleft⟩ := hfits
    exact absurd (h.moves_iff.2 ⟨h.departs hdeparts, rfl⟩) (hleft target)
  | keep name before after => exact .inr ⟨name, before, after, hfits.2.1, hfits.2.2, rfl⟩

theorem move_mem_turns {before after : α} (hbefore : prev.find? source = some before)
    (hafter : next.find? target = some after) :
    Turn.move source target before after ∈ turns marker prev next := by
  obtain ⟨entity, harrives, hentity, hmarker⟩ := Changes.moves_iff.1 (h.moves_iff.2 ⟨rfl, rfl⟩)
  obtain rfl : entity = after := Option.some.inj (hentity.symm.trans hafter)
  exact (mem_turns_iff h.honoured).2 ⟨harrives, hentity, hmarker, hbefore⟩

end Replaces

end Changes

/-! ### Columns -/

section Columns

variable {config : MigrationConfig} {before after : Table}

/-- Columns are lost for cause only, and those that stay are the same or virtual. -/
structure Table.ShrinksTo (gone : String → Field → Prop) (before after : Table) : Prop where
  subset {column : String} : column ∈ after.columns.names → column ∈ before.columns.names
  gone {column : String} {field : Field} : before.field? column = some field →
    column ∉ after.columns.names → gone column field
  kept {column : String} {field field' : Field} : before.field? column = some field →
    after.field? column = some field' → field.CanBecome field'

/-- A virtual column is removed silently. -/
theorem getD_removal?_of_isVirtual {table name : String} {field : Field}
    (h : field.isVirtual = true) : (Plan.removal? table name field).getD [] = [] := by
  cases field <;> first | rfl | exact Bool.noConfusion h

namespace Table.ShrinksTo

variable {gone : String → Field → Prop}

/-- What becomes of each column by its name and its field tells whether a table shrinks. -/
theorem of_field?_eq_bind {g : String → Field → Option Field}
    (h : ∀ column, after.field? column = (before.field? column).bind (g column))
    (hgone : ∀ {column field}, g column field = none → gone column field)
    (hkept : ∀ {column field field'}, g column field = some field' → field.CanBecome field') :
    before.ShrinksTo gone after where
  subset hcolumn := by
    contrapose! hcolumn
    rw [← field?_eq_none_iff, h, field?_eq_none_iff.2 hcolumn, Option.bind_none]
  gone hbefore hcolumn := by
    rw [← field?_eq_none_iff, h, hbefore, Option.bind_some] at hcolumn
    exact hgone hcolumn
  kept hbefore hafter := by
    rw [h, hbefore, Option.bind_some] at hafter
    exact hkept hafter

variable (h : before.ShrinksTo gone after)

include h

/-- Columns that are lost because they are virtual, or because they may go, are acceptable. -/
theorem columnsAcceptable
    (hgone : ∀ {column field}, before.field? column = some field → gone column field →
      field.isVirtual = true ∨
        (field.kind = .atom ∨ field.kind = .index) ∧ config.isDeprecated column = true)
    (hplain : ∀ column ∈ before.columns.names, isReserved column = false) :
    ColumnsAcceptable config before after where
  markers := .of_subset fun _ => h.subset
  created harrives := absurd (h.subset harrives.2.1) harrives.2.2
  moved hmoves := absurd (h.subset hmoves.1.2.1) hmoves.1.2.2
  removed hdeparts _ hbefore := hgone hbefore (h.gone hbefore hdeparts.2.2)
  kept _ := h.kept
  reserved {name} hreserved _ := by
    have hbefore := not_mem_of_isReserved hplain hreserved
    rw [field?_eq_none_iff.2 hbefore, field?_eq_none_iff.2 fun hmem => hbefore (h.subset hmem)]

/-- If only virtual columns are lost, nothing is done. -/
theorem columnStatements_eq_nil (hgone : ∀ {column field}, gone column field →
    field.isVirtual = true) (name : String) :
    columnStatements name before.columns after.columns = [] := by
  apply List.flatMap_eq_nil_iff.2
  intro t ht
  obtain ⟨column, declared, hdeparts, hbefore, rfl⟩ | ⟨column, declared, entity, -, -, rfl⟩ :=
    Changes.remove_or_keep_of_mem_turns (fun _ => h.subset) ht
  · exact getD_removal?_of_isVirtual (hgone (h.gone (field?_of_find? hbefore) hdeparts.2.2))
  · rfl

/-- If only one column is lost that is not virtual, the statements are those that remove it. -/
theorem columnStatements_eq {column : String} {declared : Column}
    (hgone : ∀ {c field}, gone c field → c ≠ column → field.isVirtual = true)
    (hdeparts : Departs before.columns after.columns column)
    (hcolumn : before.columns.find? column = some declared) (name : String) :
    columnStatements name before.columns after.columns =
      (Plan.removal? name column declared.field).getD [] := by
  have honoured : MarkersHonoured Column.renamedFrom before.columns after.columns :=
    .of_subset fun _ => h.subset
  have hremove : Turn.remove column declared ∈
      turns Column.renamedFrom before.columns after.columns :=
    (Changes.mem_turns_iff honoured).2
      ⟨hdeparts, hcolumn, fun _ hmoves => hmoves.1.2.2 (h.subset hmoves.1.2.1)⟩
  apply flatMap_eq_of_forall_ne (Changes.nodup_turns honoured) hremove
  intro t ht hne
  obtain ⟨c, lost, hlost, hbefore, rfl⟩ | ⟨c, lost, entity, -, -, rfl⟩ :=
    Changes.remove_or_keep_of_mem_turns (fun _ => h.subset) ht
  · apply getD_removal?_of_isVirtual (hgone (h.gone (field?_of_find? hbefore) hlost.2.2) ?_)
    rintro rfl
    rw [hcolumn] at hbefore
    exact hne (by rw [Option.some.inj hbefore])
  · rfl

end Table.ShrinksTo

section Replaced

variable {source target : String}
variable (h : Changes.Replaces Column.renamedFrom before.columns after.columns source target)

include h

/-- Columns are acceptable if one has got another name, is no constraint, and they are all the same
or virtual. -/
theorem Changes.Replaces.columnsAcceptable
    (hsource : ∀ {field}, before.field? source = some field → field.kind ≠ .constraint)
    (hmoved : ∀ {field field'}, before.field? source = some field →
      after.field? target = some field' → field.CanBecome field')
    (hkept : ∀ {column field field'}, before.field? column = some field →
      after.field? column = some field' → field.CanBecome field')
    (hplain : ∀ column ∈ before.columns.names, isReserved column = false) :
    ColumnsAcceptable config before after where
  markers := h.honoured
  created harrives hafter hmarker := absurd hmarker (h.marker_ne_none harrives hafter)
  moved hmoves hbefore hafter := by
    obtain ⟨rfl, rfl⟩ := h.moves_iff.1 hmoves
    exact ⟨hsource hbefore, hmoved hbefore hafter⟩
  removed hdeparts hleft _ := absurd (h.moves_iff.2 ⟨h.departs hdeparts, rfl⟩) (hleft target)
  kept _ := hkept
  reserved {name} hreserved _ := by
    have hbefore := not_mem_of_isReserved hplain hreserved
    have hne : name ≠ target := by
      rintro rfl
      simp [h.arrives.1] at hreserved
    have hafter : name ∉ after.columns.names := fun hmem => hbefore ((h.mem_iff hne).1 hmem).1
    rw [Table.field?_eq_none_iff.2 hbefore, Table.field?_eq_none_iff.2 hafter]

/-- The statements are those that give the one column its new name. -/
theorem Changes.Replaces.columnStatements_eq {declared entity : Column}
    (hbefore : before.columns.find? source = some declared)
    (hafter : after.columns.find? target = some entity) (name : String) :
    columnStatements name before.columns after.columns =
      (Plan.renaming? name source target declared.field).getD [] := by
  apply flatMap_eq_of_forall_ne (Changes.nodup_turns h.honoured) (h.move_mem_turns hbefore hafter)
  intro t ht hne
  obtain ⟨declared', entity', hbefore', hafter', rfl⟩ | ⟨_, _, _, -, -, rfl⟩ :=
    h.move_or_keep_of_mem_turns ht
  · obtain rfl : declared = declared' := Option.some.inj (hbefore.symm.trans hbefore')
    obtain rfl : entity = entity' := Option.some.inj (hafter.symm.trans hafter')
    exact absurd rfl hne
  · rfl

end Replaced

end Columns

/-! ### Tables -/

/-- No table and no column has a reserved name. -/
def Schema.HasPlainNames (schema : Schema) : Prop :=
  ∀ name table, schema.table? name = some table →
    isReserved name = false ∧ ∀ column ∈ table.columns.names, isReserved column = false

/-- Only the names of the schema have to be looked at. -/
instance {schema : Schema} : Decidable schema.HasPlainNames :=
  decidable_of_iff (∀ name ∈ schema.tables.names, ∀ table ∈ schema.table? name,
      isReserved name = false ∧ ∀ column ∈ table.columns.names, isReserved column = false)
    ⟨fun h name table htable => h name (OrderedMap.mem_names_of_find? htable) table htable,
      fun h name _ table htable => h name table htable⟩

section Tables

variable {config : MigrationConfig} {prev next : Schema}

theorem Schema.HasPlainNames.canonical {schema : Schema} (h : schema.HasPlainNames) :
    schema.canonical.HasPlainNames := by
  intro name table htable
  rw [table?_canonical, Option.map_eq_some_iff] at htable
  obtain ⟨declared, hdeclared, rfl⟩ := htable
  rw [Table.canonical, OrderedMap.names_map]
  exact h name declared hdeclared

theorem Schema.HasPlainNames.eq_false {schema : Schema} (h : schema.HasPlainNames) {name : String}
    (hname : name ∈ schema.tables.names) : isReserved name = false := by
  obtain ⟨table, htable⟩ := OrderedMap.mem_names_iff.1 hname
  exact (h name table htable).1

/-- Schemas are acceptable if no table is new, tables are lost that may go, and the columns of those
that stay are acceptable. -/
theorem Acceptable.of_subset (hprev : prev.validate = .ok ()) (hnext : next.validate = .ok ())
    (hplain : prev.HasPlainNames)
    (hnames : ∀ name ∈ next.tables.names, name ∈ prev.tables.names)
    (hremoved : ∀ {name}, Departs prev.tables next.tables name → config.isDeprecated name = true)
    (hcolumns : ∀ {name before after}, prev.table? name = some before →
      next.table? name = some after → ColumnsAcceptable config before after) :
    Acceptable config prev next where
  valid_prev := hprev
  valid_next := hnext
  markers := .of_subset hnames
  removed hdeparts := .inr (hremoved hdeparts)
  columns hcontinues hbefore hafter := by
    obtain ⟨-, rfl⟩ | hmoves := hcontinues
    · exact hcolumns hbefore hafter
    · exact absurd (hnames _ hmoves.1.2.1) hmoves.1.2.2
  reserved {name} hreserved _ := by
    have hbefore := not_mem_of_isReserved (fun _ => hplain.eq_false) hreserved
    rw [Schema.fieldsOf?_eq_none_iff.2 hbefore,
      Schema.fieldsOf?_eq_none_iff.2 fun hmem => hbefore (hnames name hmem)]

section Replaced

variable {source target : String}
variable (h : Changes.Replaces Table.renamedFrom prev.tables next.tables source target)

include h

/-- Schemas are acceptable if one table has got another name and the columns of all of them are
acceptable. -/
theorem Changes.Replaces.acceptable (hprev : prev.validate = .ok ())
    (hnext : next.validate = .ok ()) (hplain : prev.HasPlainNames)
    (hmoved : ∀ {before after}, prev.table? source = some before →
      next.table? target = some after → ColumnsAcceptable config before after)
    (hkept : ∀ {name before after}, prev.table? name = some before →
      next.table? name = some after → ColumnsAcceptable config before after) :
    Acceptable config prev next where
  valid_prev := hprev
  valid_next := hnext
  markers := h.honoured
  removed hdeparts := .inl ⟨target, h.moves_iff.2 ⟨h.departs hdeparts, rfl⟩⟩
  columns hcontinues hbefore hafter := by
    obtain ⟨-, rfl⟩ | hmoves := hcontinues
    · exact hkept hbefore hafter
    · obtain ⟨rfl, rfl⟩ := h.moves_iff.1 hmoves
      exact hmoved hbefore hafter
  reserved {name} hreserved _ := by
    have hbefore := not_mem_of_isReserved (fun _ => hplain.eq_false) hreserved
    have hne : name ≠ target := by
      rintro rfl
      simp [h.arrives.1] at hreserved
    have hafter : name ∉ next.tables.names := fun hmem => hbefore ((h.mem_iff hne).1 hmem).1
    rw [Schema.fieldsOf?_eq_none_iff.2 hbefore, Schema.fieldsOf?_eq_none_iff.2 hafter]

/-- The one statement gives the table its new name, if no columns are to be changed. -/
theorem Changes.Replaces.tableStatements_eq
    (hmoved : ∀ {before after}, prev.table? source = some before →
      next.table? target = some after → columnStatements target before.columns after.columns = [])
    (hkept : ∀ {name before after}, prev.table? name = some before →
      next.table? name = some after → columnStatements name before.columns after.columns = []) :
    tableStatements prev.tables next.tables = [.renameTable source target] := by
  obtain ⟨before, hbefore⟩ := OrderedMap.mem_names_iff.1 h.source_mem
  obtain ⟨after, hafter⟩ := OrderedMap.mem_names_iff.1 h.arrives.2.1
  have hmove : Turn.tableStatements (.move source target before after) =
      [.renameTable source target] :=
    congrArg _ (hmoved hbefore hafter)
  rw [← hmove]
  apply flatMap_eq_of_forall_ne (Changes.nodup_turns h.honoured) (h.move_mem_turns hbefore hafter)
  intro t ht hne
  obtain ⟨before', after', hbefore', hafter', rfl⟩ |
      ⟨name, before', after', hbefore', hafter', rfl⟩ := h.move_or_keep_of_mem_turns ht
  · obtain rfl : before = before' := Option.some.inj (hbefore.symm.trans hbefore')
    obtain rfl : after = after' := Option.some.inj (hafter.symm.trans hafter')
    exact absurd rfl hne
  · exact hkept hbefore' hafter'

end Replaced

/-- The one statement drops the table that is lost, if no columns are to be changed. -/
theorem tableStatements_of_dropped {name : String}
    (hnames : ∀ n ∈ next.tables.names, n ∈ prev.tables.names)
    (hdeparts : ∀ {n}, Departs prev.tables next.tables n ↔ n = name)
    (hkept : ∀ {n before after}, prev.table? n = some before → next.table? n = some after →
      columnStatements n before.columns after.columns = []) :
    tableStatements prev.tables next.tables = [.dropTable name] := by
  have honoured : MarkersHonoured Table.renamedFrom prev.tables next.tables := .of_subset hnames
  have hlost := hdeparts.2 rfl
  obtain ⟨before, hbefore⟩ := OrderedMap.mem_names_iff.1 hlost.2.1
  have hremove : Turn.remove name before ∈ turns Table.renamedFrom prev.tables next.tables :=
    (Changes.mem_turns_iff honoured).2
      ⟨hlost, hbefore, fun target hmoves => hmoves.1.2.2 (hnames target hmoves.1.2.1)⟩
  apply flatMap_eq_of_forall_ne (Changes.nodup_turns honoured) hremove
  intro t ht hne
  obtain ⟨n, before', hgone, hbefore', rfl⟩ | ⟨n, before', after', hbefore', hafter', rfl⟩ :=
    Changes.remove_or_keep_of_mem_turns hnames ht
  · obtain rfl := hdeparts.1 hgone
    obtain rfl : before = before' := Option.some.inj (hbefore.symm.trans hbefore')
    exact absurd rfl hne
  · exact hkept hbefore' hafter'

/-- The statements are those of one table, if no other one is changed. -/
theorem tableStatements_of_kept {name : String} {before after : Table}
    (hnames : ∀ n, n ∈ prev.tables.names ↔ n ∈ next.tables.names)
    (hplain : isReserved name = false) (hbefore : prev.table? name = some before)
    (hafter : next.table? name = some after)
    (hkept : ∀ {n before after}, n ≠ name → prev.table? n = some before →
      next.table? n = some after → columnStatements n before.columns after.columns = []) :
    tableStatements prev.tables next.tables =
      columnStatements name before.columns after.columns := by
  have honoured : MarkersHonoured Table.renamedFrom prev.tables next.tables := .of_mem_iff hnames
  have hkeep : Turn.keep name before after ∈ turns Table.renamedFrom prev.tables next.tables :=
    (Changes.mem_turns_iff honoured).2 ⟨hplain, hbefore, hafter⟩
  apply flatMap_eq_of_forall_ne (Changes.nodup_turns honoured) hkeep
  intro t ht hne
  obtain ⟨n, before', after', hbefore', hafter', rfl⟩ :=
    Changes.exists_keep_of_mem_turns hnames ht
  refine hkept ?_ hbefore' hafter'
  rintro rfl
  obtain rfl : before = before' := Option.some.inj (hbefore.symm.trans hbefore')
  obtain rfl : after = after' := Option.some.inj (hafter.symm.trans hafter')
  exact hne rfl

end Tables

end Schemata
