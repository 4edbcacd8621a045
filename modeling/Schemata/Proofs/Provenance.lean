import Schemata.Proofs.Migration.Execution

/-!
# Where the data of a column goes

The same schema could be reached by dropping a column and adding one of the same name, but its data
would be lost. Here each stored column of the previous schema has an identity of its own, which the
statements carry along, and it is told from the two schemas alone where it goes: to the column of
the same name, or to the one whose marker speaks of it. Only what a deprecated name gives leave to
drop goes nowhere.

## Main definitions

* `Origin`, `Schema.origins`: the identities, and the database that has each at its own column
* `Changes.destination?`: the name that an entity has afterwards
* `Database.Holds`, `Database.HoldsOnly`: a column has the data of a column of the previous schema

## Main results

* `Changes.destination?_eq_some_iff`: destinations and origins are inverse to each other
* `exists_fate`: where the data of each stored column goes in a migration
-/

namespace Schemata

open Changes (Arrives Departs Moves MarkersHonoured origin?)

universe u

/-! ### The names that entities have afterwards -/

namespace Changes

variable {α : Type u} {marker : α → Option String} {prev next : OrderedMap α}
variable {source target : String}

/-- The name that an entity of the previous map has afterwards: its own, if there is one of that
name, or that of a new one with it as its marker. -/
def destination? (marker : α → Option String) (prev next : OrderedMap α) (name : String) :
    Option String :=
  if next.contains name then some name
  else (next.entries.find? fun e => !prev.contains e.1 && marker e.2 == some name).map Prod.fst

/-- The markers are honoured, and no reserved name is new or gone without having moved. -/
structure Settled (marker : α → Option String) (prev next : OrderedMap α) : Prop
    extends MarkersHonoured marker prev next where
  reserved {name : String} : isReserved name = true →
    (∀ target, ¬Moves marker prev next name target) → (name ∈ prev.names ↔ name ∈ next.names)

/-- Two maps with the same names are settled. -/
theorem Settled.of_mem_iff (h : ∀ n, n ∈ prev.names ↔ n ∈ next.names) :
    Settled marker prev next :=
  ⟨.of_mem_iff h, fun _ _ => h _⟩

/-- A name that is new is not reserved. -/
theorem Settled.arrives (h : Settled marker prev next) (hnext : target ∈ next.names)
    (hprev : target ∉ prev.names) : Arrives prev next target := by
  refine ⟨?_, hnext, hprev⟩
  by_contra hreserved
  rw [Bool.not_eq_false] at hreserved
  exact hprev ((h.reserved hreserved fun _ hmoves => hprev (h.before hmoves)).2 hnext)

/-- A name that goes to another is still there, or it is the marker of a name that was not. -/
theorem cases_of_destination? (hdestination : destination? marker prev next source = some target) :
    source = target ∧ source ∈ next.names ∨
      target ∉ prev.names ∧ ∃ entity, next.find? target = some entity ∧
        marker entity = some source := by
  unfold destination? at hdestination
  split_ifs at hdestination with hsource
  · exact .inl ⟨Option.some.inj hdestination, OrderedMap.contains_iff.1 hsource⟩
  · obtain ⟨⟨name, entity⟩, hfind, rfl⟩ := Option.map_eq_some_iff.1 hdestination
    have hnext := OrderedMap.mem_entries_iff.1 (List.mem_of_find?_eq_some hfind)
    have htest := List.find?_some hfind
    simp only [Bool.and_eq_true, Bool.not_eq_true', beq_iff_eq] at htest
    refine .inr ⟨?_, entity, hnext, htest.2⟩
    rw [← OrderedMap.contains_iff, htest.1]
    simp

/-- What has moved has another name, and what has not moved has its own. -/
theorem eq_or_moves_of_destination? (h : Settled marker prev next)
    (hdestination : destination? marker prev next source = some target) :
    source = target ∧ source ∈ next.names ∨ Moves marker prev next source target := by
  rcases cases_of_destination? hdestination with hstays | ⟨hprev, entity, hnext, hmarker⟩
  · exact .inl hstays
  · have harrives := h.arrives (OrderedMap.mem_names_of_find? hnext) hprev
    exact .inr (moves_iff.2 ⟨entity, harrives, hnext, hmarker⟩)

theorem mem_of_destination? (hdestination : destination? marker prev next source = some target) :
    target ∈ next.names := by
  rcases cases_of_destination? hdestination with ⟨rfl, hnext⟩ | ⟨-, entity, hnext, -⟩
  · exact hnext
  · exact OrderedMap.mem_names_of_find? hnext

theorem origin?_of_destination? (hsource : source ∈ prev.names)
    (hdestination : destination? marker prev next source = some target) :
    origin? marker prev next target = some source := by
  rcases cases_of_destination? hdestination with ⟨rfl, -⟩ | ⟨hprev, entity, hnext, hmarker⟩
  · exact origin?_of_mem hsource
  · rw [origin?, if_neg (mt OrderedMap.contains_iff.1 hprev), hnext, Option.bind_some, hmarker]

theorem destination?_of_moves (h : Settled marker prev next)
    (hmoves : Moves marker prev next source target) :
    destination? marker prev next source = some target := by
  obtain ⟨entity, harrives, hfind, hmarker⟩ := moves_iff.1 hmoves
  have hnew : prev.contains target = false := by
    rw [← Bool.not_eq_true, OrderedMap.contains_iff]
    exact harrives.2.2
  obtain ⟨other, hother⟩ : ∃ other, destination? marker prev next source = some other := by
    have hgone : ¬next.contains source = true := mt OrderedMap.contains_iff.1 (h.gone hmoves)
    rw [← Option.isSome_iff_exists, destination?, if_neg hgone, Option.isSome_map,
      List.find?_isSome]
    exact ⟨(target, entity), OrderedMap.mem_entries_iff.2 hfind, by simp [hnew, hmarker]⟩
  -- The one that is found has the same marker, and no two have.
  rcases eq_or_moves_of_destination? h hother with ⟨-, hnext⟩ | hmoves'
  · exact absurd hnext (h.gone hmoves)
  · rw [hother, h.once hmoves' hmoves]

/-- A name of the previous map goes to a name of the next one exactly if that has come from it. -/
theorem destination?_eq_some_iff (h : Settled marker prev next) (hsource : source ∈ prev.names) :
    destination? marker prev next source = some target ↔
      target ∈ next.names ∧ origin? marker prev next target = some source := by
  constructor
  · intro hdestination
    exact ⟨mem_of_destination? hdestination, origin?_of_destination? hsource hdestination⟩
  · rintro ⟨hnext, horigin⟩
    unfold origin? at horigin
    split_ifs at horigin with hprev
    · obtain rfl := Option.some.inj horigin
      rw [destination?, if_pos (OrderedMap.contains_iff.2 hnext)]
    · exact destination?_of_moves h ⟨h.arrives hnext (mt OrderedMap.contains_iff.2 hprev), horigin⟩

/-- A name that goes nowhere is gone and has not moved. -/
theorem departs_of_destination? (h : Settled marker prev next) (hsource : source ∈ prev.names)
    (hdestination : destination? marker prev next source = none) :
    Departs prev next source ∧ ∀ target, ¬Moves marker prev next source target := by
  have hleft : ∀ target, ¬Moves marker prev next source target := by
    intro target hmoves
    rw [destination?_of_moves h hmoves] at hdestination
    exact absurd hdestination (by simp)
  have hgone : source ∉ next.names := by
    intro hnext
    rw [destination?, if_pos (OrderedMap.contains_iff.2 hnext)] at hdestination
    exact absurd hdestination (by simp)
  refine ⟨⟨?_, hsource, hgone⟩, hleft⟩
  by_contra hreserved
  rw [Bool.not_eq_false] at hreserved
  exact hgone ((h.reserved hreserved hleft).1 hsource)

end Changes

open Changes (Settled destination?)

/-! ### Identities of data -/

/-- Where the data of a column has come from. -/
inductive Origin
  /-- From a column of the previous schema. -/
  | kept (ref : ColumnRef)
  /-- From nowhere: the column has been made on the way. -/
  | made
  deriving DecidableEq

/-- The database of a schema, with each stored column at its own place. -/
def Schema.origins (schema : Schema) : Database Origin :=
  .ofSchema (fun table column _ => .kept ⟨table, column⟩) schema

namespace Database

/-- A column of the database has the data of a column of the previous schema. -/
def Holds (db : Database Origin) (place ref : ColumnRef) : Prop :=
  ∃ cells, db place.table = some cells ∧ cells place.column = some (.column (.kept ref))

/-- A column of the database has the data of a column of the previous schema and of no other one,
and no other column has it. -/
structure HoldsOnly (db : Database Origin) (place ref : ColumnRef) : Prop where
  place_iff (other : ColumnRef) : db.Holds other ref ↔ other = place
  ref_iff (other : ColumnRef) : db.Holds place other ↔ other = ref

/-- No column of the database has the data of the column. -/
def Lost (db : Database Origin) (ref : ColumnRef) : Prop := ∀ place, ¬db.Holds place ref

end Database

section Fate

variable {config : MigrationConfig} {prev next : Schema} {before after : Table}
variable {table column target : String} {a : Atom}

/-- What is known of the columns of two tables of which the second continues the first. -/
structure ColumnsKept (config : MigrationConfig) (before after : Table) : Prop where
  settled : Settled Column.renamedFrom before.columns after.columns
  removed {column : String} {a : Atom} :
    destination? Column.renamedFrom before.columns after.columns column = none →
      before.field? column = some (.atom a) → config.isDeprecated column = true
  field_eq {column target : String} {a : Atom} :
    destination? Column.renamedFrom before.columns after.columns column = some target →
      before.field? column = some (.atom a) → after.field? target = some (.atom a)

/-- A stored column can only become the same one. -/
theorem Field.CanBecome.eq_of_atom {field : Field} (h : (Field.atom a).CanBecome field) :
    field = .atom a := by
  obtain heq | ⟨hvirtual, -⟩ := h
  · exact heq.symm
  · simp [isVirtual, kind, FieldKind.isVirtual] at hvirtual

theorem ColumnsAcceptable.columnsKept (h : ColumnsAcceptable config before after) :
    ColumnsKept config before after := by
  have hsettled : Settled Column.renamedFrom before.columns after.columns :=
    ⟨h.markers, fun hreserved hleft =>
      Table.mem_names_iff_of_field?_eq (h.reserved hreserved hleft)⟩
  refine ⟨hsettled, ?_, ?_⟩
  · intro column a hdestination hatom
    obtain ⟨hdeparts, hleft⟩ := Changes.departs_of_destination? hsettled
      (Table.mem_names_of_field? hatom) hdestination
    obtain hvirtual | ⟨-, hdeprecated⟩ := h.removed hdeparts hleft hatom
    · simp [Field.isVirtual, Field.kind, FieldKind.isVirtual] at hvirtual
    · exact hdeprecated
  · intro column target a hdestination hatom
    have hmem := Changes.mem_of_destination? hdestination
    obtain ⟨c, hc⟩ := OrderedMap.mem_names_iff.1 hmem
    have hafter := Table.field?_of_find? hc
    obtain ⟨rfl, hnext⟩ | hmoves := Changes.eq_or_moves_of_destination? hsettled hdestination
    · by_cases hreserved : isReserved column = true
      · rw [← h.reserved hreserved fun _ hmoves => h.markers.gone hmoves hnext, hatom]
      · rw [Bool.not_eq_true] at hreserved
        rw [hafter, (h.kept hreserved hatom hafter).eq_of_atom]
    · rw [hafter, (h.moved hmoves hatom hafter).2.eq_of_atom]

/-- Of two tables with the same fields each column keeps its name. -/
theorem columnsKept_of_field?_eq (h : before.field? = after.field?) :
    ColumnsKept config before after := by
  have hmem (c : String) := Table.mem_names_iff_of_field?_eq (congrFun h c)
  have hkeeps {c : String} {a : Atom} (hatom : before.field? c = some (.atom a)) :
      destination? Column.renamedFrom before.columns after.columns c = some c := by
    rw [destination?, if_pos (OrderedMap.contains_iff.2
      ((hmem c).1 (Table.mem_names_of_field? hatom)))]
  refine ⟨.of_mem_iff hmem, ?_, ?_⟩
  · intro column a hdestination hatom
    rw [hkeeps hatom] at hdestination
    exact absurd hdestination (by simp)
  · intro column target a hdestination hatom
    obtain rfl := Option.some.inj ((hkeeps hatom).symm.trans hdestination)
    rw [← h, hatom]

theorem Acceptable.settled (h : Acceptable config prev next) :
    Settled Table.renamedFrom prev.tables next.tables :=
  ⟨h.markers, fun hreserved hleft =>
    Schema.mem_names_iff_of_fieldsOf?_eq (h.reserved hreserved hleft)⟩

/-- The columns of a table are kept by the table to which it goes. -/
theorem Acceptable.columnsKept (h : Acceptable config prev next)
    (hdestination : destination? Table.renamedFrom prev.tables next.tables table = some target)
    (hbefore : prev.table? table = some before) (hafter : next.table? target = some after) :
    ColumnsKept config before after := by
  obtain ⟨rfl, hnext⟩ | hmoves := Changes.eq_or_moves_of_destination? h.settled hdestination
  · -- A reserved table has no turn, but neither do its fields change.
    by_cases hreserved : isReserved table = true
    · have hfields := h.reserved hreserved fun _ hmoves => h.markers.gone hmoves hnext
      rw [Schema.fieldsOf?, Schema.fieldsOf?, hbefore, hafter] at hfields
      exact columnsKept_of_field?_eq (Option.some.inj hfields)
    · rw [Bool.not_eq_true] at hreserved
      exact (h.columns (.inl ⟨hreserved, rfl⟩) hbefore hafter).columnsKept
  · exact (h.columns (.inr hmoves) hbefore hafter).columnsKept

/-- The database to which a migration leads from the one with each stored column at its own
place. -/
def Schema.originsAfter (prev next : Schema) : Database Origin :=
  .ofSchema
    (carried (fun _ => .made) (fun table column _ => .kept ⟨table, column⟩) prev next) next

/-- A column that has the data of a column of the previous schema has come from it. -/
theorem origin_of_cell? {place ref : ColumnRef} {field : Field}
    (hafter : next.table? place.table = some after)
    (hcell : field.cell? (Schema.carried (fun _ => Origin.made)
      (fun table column _ => .kept ⟨table, column⟩) prev next place.table place.column) =
        some (.column (.kept ref))) :
    ∃ source before c, origin? Table.renamedFrom prev.tables next.tables place.table = some source ∧
      prev.table? source = some before ∧
        origin? Column.renamedFrom before.columns after.columns place.column = some c ∧
          (⟨source, c⟩ : ColumnRef) = ref := by
  cases field <;>
    simp only [Field.cell?, reduceCtorEq, Option.some.injEq, Cell.column.injEq] at hcell
  unfold Schema.carried at hcell
  cases horigin : origin? Table.renamedFrom prev.tables next.tables place.table with
  | none => simp [horigin] at hcell
  | some source =>
    cases hsource : prev.table? source with
    | none => simp [horigin, hsource] at hcell
    | some before =>
      simp only [horigin, hsource, hafter, Table.carried] at hcell
      cases horigin' : origin? Column.renamedFrom before.columns after.columns place.column with
      | none => simp [horigin'] at hcell
      | some c =>
        rw [horigin'] at hcell
        exact ⟨source, before, c, rfl, hsource, horigin', Origin.kept.inj hcell⟩

/-- Data is where it has come to: at the destination of its column in that of its table. -/
theorem holds_originsAfter_iff (h : Acceptable config prev next)
    (hbefore : prev.table? table = some before) (hatom : before.field? column = some (.atom a))
    {place : ColumnRef} :
    (Schema.originsAfter prev next).Holds place ⟨table, column⟩ ↔
      destination? Table.renamedFrom prev.tables next.tables table = some place.table ∧
        ∃ after, next.table? place.table = some after ∧
          destination? Column.renamedFrom before.columns after.columns column =
            some place.column := by
  have htable : table ∈ prev.tables.names := OrderedMap.mem_names_of_find? hbefore
  have hcolumn := Table.mem_names_of_field? hatom
  constructor
  · rintro ⟨cells, hcells, hcell⟩
    obtain ⟨after, hafter, rfl⟩ := Option.map_eq_some_iff.1 hcells
    obtain ⟨field, hfield, hcell⟩ := Option.bind_eq_some_iff.1 hcell
    obtain ⟨source, other, c, horigin, hsource, horigin', heq⟩ := origin_of_cell? hafter hcell
    obtain ⟨rfl, rfl⟩ := ColumnRef.mk.inj heq
    obtain rfl := Option.some.inj (hbefore.symm.trans hsource)
    have hto := (Changes.destination?_eq_some_iff h.settled htable).2
      ⟨OrderedMap.mem_names_of_find? hafter, horigin⟩
    -- Origins and destinations are inverse, for tables and then for the columns of the two.
    have hkept := h.columnsKept hto hbefore hafter
    exact ⟨hto, after, hafter, (Changes.destination?_eq_some_iff hkept.settled hcolumn).2
      ⟨Table.mem_names_of_field? hfield, horigin'⟩⟩
  · rintro ⟨hto, after, hafter, hto'⟩
    have hfield := (h.columnsKept hto hbefore hafter).field_eq hto' hatom
    refine ⟨_, by rw [Schema.originsAfter, Database.ofSchema, hafter, Option.map_some], ?_⟩
    rw [Table.cells_of_field? hfield, Field.cell?,
      Schema.carried_of_origin? (Changes.origin?_of_destination? htable hto) hbefore hafter,
      Table.carried, Changes.origin?_of_destination? hcolumn hto']

/-- No two columns of the previous schema have their data at one place. -/
theorem Database.Holds.unique {db : Database Origin} {place ref ref' : ColumnRef}
    (h : db.Holds place ref) (h' : db.Holds place ref') : ref = ref' := by
  obtain ⟨cells, hcells, hcell⟩ := h
  obtain ⟨cells', hcells', hcell'⟩ := h'
  obtain rfl := Option.some.inj (hcells.symm.trans hcells')
  simpa [hcell] using hcell'

/-- If its table goes nowhere, the data of a column is lost. -/
theorem lost_of_table (h : Acceptable config prev next) (hbefore : prev.table? table = some before)
    (hatom : before.field? column = some (.atom a))
    (hto : destination? Table.renamedFrom prev.tables next.tables table = none) :
    config.isDeprecated table = true ∧ (Schema.originsAfter prev next).Lost ⟨table, column⟩ := by
  have htable : table ∈ prev.tables.names := OrderedMap.mem_names_of_find? hbefore
  obtain ⟨hdeparts, hleft⟩ := Changes.departs_of_destination? h.settled htable hto
  refine ⟨(h.removed hdeparts).resolve_left fun ⟨target, hmoves⟩ => hleft target hmoves, ?_⟩
  intro place hplace
  rw [holds_originsAfter_iff h hbefore hatom, hto] at hplace
  exact absurd hplace.1 (by simp)

section Destination

variable (h : Acceptable config prev next) (hbefore : prev.table? table = some before)
variable (hatom : before.field? column = some (.atom a))
variable (hto : destination? Table.renamedFrom prev.tables next.tables table = some target)
variable (hafter : next.table? target = some after)

include h hbefore hatom hto hafter

/-- Within the table that has come from its own, the data is at the destination of its column. -/
theorem holds_iff_of_table {place : ColumnRef} :
    (Schema.originsAfter prev next).Holds place ⟨table, column⟩ ↔ place.table = target ∧
      destination? Column.renamedFrom before.columns after.columns column = some place.column := by
  rw [holds_originsAfter_iff h hbefore hatom, hto, Option.some.injEq]
  constructor
  · rintro ⟨rfl, other, hother, hcolumn⟩
    obtain rfl := Option.some.inj (hafter.symm.trans hother)
    exact ⟨rfl, hcolumn⟩
  · rintro ⟨rfl, hcolumn⟩
    exact ⟨rfl, after, hafter, hcolumn⟩

/-- If the column goes nowhere, its data is lost. -/
theorem lost_of_column
    (hto' : destination? Column.renamedFrom before.columns after.columns column = none) :
    config.isDeprecated column = true ∧ (Schema.originsAfter prev next).Lost ⟨table, column⟩ := by
  refine ⟨(h.columnsKept hto hbefore hafter).removed hto' hatom, ?_⟩
  intro place hplace
  rw [holds_iff_of_table h hbefore hatom hto hafter, hto'] at hplace
  exact absurd hplace.2 (by simp)

/-- If both go somewhere, the data is there and nowhere else, and no other data is there. -/
theorem holdsOnly_of_column {column' : String}
    (hto' : destination? Column.renamedFrom before.columns after.columns column = some column') :
    (Schema.originsAfter prev next).HoldsOnly ⟨target, column'⟩ ⟨table, column⟩ := by
  have honly (place : ColumnRef) :
      (Schema.originsAfter prev next).Holds place ⟨table, column⟩ ↔ place = ⟨target, column'⟩ := by
    rw [holds_iff_of_table h hbefore hatom hto hafter, hto', Option.some.injEq, ColumnRef.mk.injEq,
      @eq_comm _ column']
  refine ⟨honly, fun ref => ⟨fun hheld => hheld.unique ((honly _).2 rfl), ?_⟩⟩
  rintro rfl
  exact (honly _).2 rfl

end Destination

/-- Where the data of a stored column goes in a migration. If its table or the column goes nowhere,
that has a deprecated name and the data is lost; otherwise it is where they go and nowhere else, no
other data is there, and the field is the same. -/
theorem exists_fate {migration : Migration} (h : migrate config prev next = .ok migration)
    (hbefore : prev.table? table = some before) (hatom : before.field? column = some (.atom a)) :
    ∃ db, Database.run? (fun _ => Origin.made) prev.origins migration.statements = some db ∧
      match destination? Table.renamedFrom prev.tables next.tables table with
      | none => config.isDeprecated table = true ∧ db.Lost ⟨table, column⟩
      | some table' => ∃ after, next.table? table' = some after ∧
        match destination? Column.renamedFrom before.columns after.columns column with
        | none => config.isDeprecated column = true ∧ db.Lost ⟨table, column⟩
        | some column' => db.HoldsOnly ⟨table', column'⟩ ⟨table, column⟩ ∧
            next.field? ⟨table', column'⟩ = prev.field? ⟨table, column⟩ := by
  obtain ⟨hacceptable, rfl⟩ := migrate_eq_ok_iff.1 h
  refine ⟨Schema.originsAfter prev next, run?_statements hacceptable _ _, ?_⟩
  cases hto : destination? Table.renamedFrom prev.tables next.tables table with
  | none => exact lost_of_table hacceptable hbefore hatom hto
  | some table' =>
    obtain ⟨after, hafter⟩ : ∃ after, next.table? table' = some after :=
      OrderedMap.mem_names_iff.1 (Changes.mem_of_destination? hto)
    refine ⟨after, hafter, ?_⟩
    cases hto' : destination? Column.renamedFrom before.columns after.columns column with
    | none => exact lost_of_column hacceptable hbefore hatom hto hafter hto'
    | some column' =>
      have hfield := (hacceptable.columnsKept hto hbefore hafter).field_eq hto' hatom
      refine ⟨holdsOnly_of_column hacceptable hbefore hatom hto hafter hto', ?_⟩
      rw [Schema.field?, Schema.field?, hbefore, hafter, Option.bind_some, Option.bind_some, hfield,
        hatom]

/-- A schema of one table with one stored column. -/
def Schema.ofColumn (table column : String) (tableMarker columnMarker : Option String) : Schema :=
  ⟨.ofList [(table, ⟨.ofList [(column, ⟨.integer "", columnMarker⟩)], tableMarker⟩)]⟩

/-- When the table and its column get other names at once, the data is found under both. -/
theorem exists_fate_renamed :
    ∃ db, Database.run? (fun _ => Origin.made) (Schema.ofColumn "a" "x" none none).origins
      [.renameTable "a" "b", .renameColumn "b" "x" "y"] = some db ∧
        db.HoldsOnly ⟨"b", "y"⟩ ⟨"a", "x"⟩ := by
  have hmigrate : migrate {} (.ofColumn "a" "x" none none)
      (.ofColumn "b" "y" (some "a") (some "x")) =
        .ok ⟨[.renameTable "a" "b", .renameColumn "b" "x" "y"],
          .ofColumn "b" "y" none none⟩ := by
    decide
  have hbefore : (Schema.ofColumn "a" "x" none none).table? "a" =
      some ⟨.ofList [("x", ⟨.integer "", none⟩)], none⟩ := by decide
  have hatom : Table.field? ⟨.ofList [("x", ⟨.integer "", none⟩)], none⟩ "x" =
      some (.integer "") := by decide
  obtain ⟨db, hrun, hfate⟩ := exists_fate hmigrate hbefore hatom
  have htable : destination? Table.renamedFrom (Schema.ofColumn "a" "x" none none).tables
      (Schema.ofColumn "b" "y" (some "a") (some "x")).tables "a" = some "b" := by decide
  rw [htable] at hfate
  obtain ⟨after, hafter, hfate⟩ := hfate
  cases hafter
  exact ⟨db, hrun, hfate.1⟩

end Fate

end Schemata
