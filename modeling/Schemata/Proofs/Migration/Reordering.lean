import Mathlib.Data.List.Forall2
import Mathlib.Data.List.Perm.Basic
import Schemata.Proofs.Migration.Acceptance
import Schemata.Proofs.Schema.Validity

/-!
# The order of declaration

Tables may be declared in any order, and columns in any order within their tables. A traversal goes
through them in the order in which they stand, so what it does first depends on that order, and
which fault it reports does too. But the turns that there are depend on the names, the fields and
the markers alone. So the order decides neither whether there is a migration nor where it leads,
and it only moves the statements about. The one exception is the inside of a table that is created:
there the order of the columns is the order of the definitions.

## Main definitions

* `Table.Reordered`, `Schema.Reordered`: the same in another order
* `Changes.Alike`: two maps have related entities under the same names
* `Turn.readFrom`: a turn with the entities of two other maps
* `Created`, `CreatedInOrder`: a table is new and has no marker, and such tables have their columns
  in the same order

## Main results

* `turns_perm`: alike maps have the same turns in another order
* `Acceptable.of_alike`: whether there is a migration does not depend on the order
* `migrate_reordered`: the same verdict, the same structure, and the same statements in another
  order
-/

namespace Schemata

open Changes (Arrives Departs Moves MarkersHonoured Turn turns)

universe u

/-! ### Maps that differ in their order -/

namespace Changes

variable {α : Type u} {R : α → α → Prop} {marker : α → Option String}
variable {map map' prev prev' next next' : OrderedMap α} {name source target : String}

/-- The two maps have related entities under the same names. -/
def Alike (R : α → α → Prop) (map map' : OrderedMap α) : Prop :=
  ∀ name, Option.Rel R (map.find? name) (map'.find? name)

theorem Alike.exists_find? (h : Alike R map map') {entity : α}
    (hfind : map.find? name = some entity) :
    ∃ entity', map'.find? name = some entity' ∧ R entity entity' := by
  have hrel := h name
  rw [hfind] at hrel
  cases hfind' : map'.find? name with
  | none => simp [hfind'] at hrel
  | some entity' =>
    rw [hfind', Option.rel_some_some] at hrel
    exact ⟨entity', rfl, hrel⟩

theorem Alike.symm {S : α → α → Prop} (hsymm : ∀ {a b}, R a b → S b a) (h : Alike R map map') :
    Alike S map' map := by
  intro name
  have hrel := h name
  cases hfind : map.find? name <;> cases hfind' : map'.find? name <;> simp_all

theorem Alike.mem_names_iff (h : Alike R map map') : name ∈ map.names ↔ name ∈ map'.names := by
  constructor
  · intro hname
    obtain ⟨entity, hfind⟩ := OrderedMap.mem_names_iff.1 hname
    obtain ⟨entity', hfind', -⟩ := h.exists_find? hfind
    exact OrderedMap.mem_names_iff.2 ⟨entity', hfind'⟩
  · intro hname
    obtain ⟨entity', hfind'⟩ := OrderedMap.mem_names_iff.1 hname
    obtain ⟨entity, hfind, -⟩ := (h.symm (S := flip R) id).exists_find? hfind'
    exact OrderedMap.mem_names_of_find? hfind

theorem Alike.of_find?_eq (h : ∀ name, map.find? name = map'.find? name) : Alike Eq map map' := by
  intro name
  rw [h]
  cases map'.find? name <;> simp

/-- The turn with the entities that two other maps have under its names. -/
def Turn.readFrom (prev next : OrderedMap α) : Turn α → Turn α
  | create name entity => create name ((next.find? name).getD entity)
  | move source target before entity =>
      move source target ((prev.find? source).getD before) ((next.find? target).getD entity)
  | remove name before => remove name ((prev.find? name).getD before)
  | keep name before entity =>
      keep name ((prev.find? name).getD before) ((next.find? name).getD entity)

section Alike

variable (hprev : Alike R prev prev') (hnext : Alike R next next')

include hprev hnext

theorem arrives_iff_of_alike : Arrives prev next name ↔ Arrives prev' next' name := by
  rw [Arrives, Arrives, hprev.mem_names_iff, hnext.mem_names_iff]

theorem departs_iff_of_alike : Departs prev next name ↔ Departs prev' next' name := by
  rw [Departs, Departs, hprev.mem_names_iff, hnext.mem_names_iff]

variable (hmarker : ∀ {a b}, R a b → marker a = marker b)

include hmarker

theorem Moves.of_alike (h : Moves marker prev next source target) :
    Moves marker prev' next' source target := by
  obtain ⟨entity, harrives, hfind, hsource⟩ := moves_iff.1 h
  obtain ⟨entity', hfind', hrel⟩ := hnext.exists_find? hfind
  exact moves_iff.2 ⟨entity', (arrives_iff_of_alike hprev hnext).1 harrives, hfind',
    (hmarker hrel).symm.trans hsource⟩

theorem moves_iff_of_alike :
    Moves marker prev next source target ↔ Moves marker prev' next' source target :=
  ⟨.of_alike hprev hnext hmarker, .of_alike (R := flip R) (hprev.symm id) (hnext.symm id)
    fun hrel => (hmarker hrel).symm⟩

theorem MarkersHonoured.of_alike (h : MarkersHonoured marker prev next) :
    MarkersHonoured marker prev' next' := by
  have hmoves {s t : String} : Moves marker prev' next' s t → Moves marker prev next s t :=
    (moves_iff_of_alike hprev hnext hmarker).2
  refine ⟨?_, ?_, ?_⟩
  · intro source target hm
    exact hprev.mem_names_iff.1 (h.before (hmoves hm))
  · intro source target hm
    exact mt hnext.mem_names_iff.2 (h.gone (hmoves hm))
  · intro source target other hm hm'
    exact h.once (hmoves hm) (hmoves hm')

/-- A turn that fits two maps fits two alike ones, with their entities. -/
theorem Turn.Fits.readFrom {t : Turn α} (h : t.Fits marker prev next) :
    (t.readFrom prev' next').Fits marker prev' next' := by
  have harrives {n : String} : Arrives prev next n → Arrives prev' next' n :=
    (arrives_iff_of_alike hprev hnext).1
  cases t with
  | create name entity =>
    obtain ⟨hnew, hfind, hsource⟩ := h
    obtain ⟨entity', hfind', hrel⟩ := hnext.exists_find? hfind
    simp only [Turn.readFrom, hfind', Option.getD_some]
    exact ⟨harrives hnew, hfind', (hmarker hrel).symm.trans hsource⟩
  | move source target before entity =>
    obtain ⟨hnew, hfind, hsource, hbefore⟩ := h
    obtain ⟨entity', hfind', hrel⟩ := hnext.exists_find? hfind
    obtain ⟨before', hbefore', -⟩ := hprev.exists_find? hbefore
    simp only [Turn.readFrom, hfind', hbefore', Option.getD_some]
    exact ⟨harrives hnew, hfind', (hmarker hrel).symm.trans hsource, hbefore'⟩
  | remove name before =>
    obtain ⟨hgone, hbefore, hleft⟩ := h
    obtain ⟨before', hbefore', -⟩ := hprev.exists_find? hbefore
    simp only [Turn.readFrom, hbefore', Option.getD_some]
    refine ⟨(departs_iff_of_alike hprev hnext).1 hgone, hbefore', ?_⟩
    intro target hmoves
    exact hleft target ((moves_iff_of_alike hprev hnext hmarker).2 hmoves)
  | keep name before entity =>
    obtain ⟨hplain, hbefore, hfind⟩ := h
    obtain ⟨entity', hfind', -⟩ := hnext.exists_find? hfind
    obtain ⟨before', hbefore', -⟩ := hprev.exists_find? hbefore
    simp only [Turn.readFrom, hfind', hbefore', Option.getD_some]
    exact ⟨hplain, hbefore', hfind'⟩

end Alike

/-- A turn that fits has the entities of the maps that it fits. -/
theorem Turn.Fits.readFrom_readFrom {t : Turn α} (h : t.Fits marker prev next)
    (prev' next' : OrderedMap α) :
    (t.readFrom prev' next').readFrom prev next = t := by
  cases t with
  | create name entity => simp [Turn.readFrom, h.2.1]
  | move source target before entity => simp [Turn.readFrom, h.2.1, h.2.2.2]
  | remove name before => simp [Turn.readFrom, h.2.1]
  | keep name before entity => simp [Turn.readFrom, h.2.1, h.2.2]

/-- A turn stays as it is when it is read from maps that have the same entities. -/
theorem Turn.Fits.readFrom_eq_self {t : Turn α} (h : t.Fits marker prev next)
    (hprev : ∀ n, prev.find? n = prev'.find? n) (hnext : ∀ n, next.find? n = next'.find? n) :
    t.readFrom prev' next' = t := by
  cases t with
  | create name entity => simp [Turn.readFrom, ← hnext, h.2.1]
  | move source target before entity => simp [Turn.readFrom, ← hprev, ← hnext, h.2.1, h.2.2.2]
  | remove name before => simp [Turn.readFrom, ← hprev, h.2.1]
  | keep name before entity => simp [Turn.readFrom, ← hprev, ← hnext, h.2.1, h.2.2]

/-- Alike maps have the same turns in another order. -/
theorem turns_perm (hprev : Alike R prev prev') (hnext : Alike R next next')
    (hmarker : ∀ {a b}, R a b → marker a = marker b) (honoured : MarkersHonoured marker prev next) :
    ((turns marker prev next).map (Turn.readFrom prev' next')).Perm (turns marker prev' next') := by
  have honoured' := honoured.of_alike hprev hnext hmarker
  have hfits {t : Turn α} := (mem_turns_iff (t := t) honoured).1
  -- Reading a turn from the other maps can be undone, so no two turns become one.
  have hnodup : ((turns marker prev next).map (Turn.readFrom prev' next')).Nodup := by
    apply List.Nodup.map_on _ (nodup_turns honoured)
    intro t ht t' ht' heq
    rw [← (hfits ht).readFrom_readFrom prev' next', heq, (hfits ht').readFrom_readFrom]
  apply (List.perm_ext_iff_of_nodup hnodup (nodup_turns honoured')).2
  intro t'
  rw [mem_turns_iff honoured', List.mem_map]
  -- What fits on one side is read from a turn that fits on the other.
  constructor
  · rintro ⟨t, ht, rfl⟩
    exact (hfits ht).readFrom hprev hnext hmarker
  · intro hfits'
    have hback := hfits'.readFrom (R := flip R) (hprev.symm id) (hnext.symm id)
      fun hrel => (hmarker hrel).symm
    exact ⟨t'.readFrom prev next, (mem_turns_iff honoured).2 hback, hfits'.readFrom_readFrom _ _⟩

end Changes

open Changes (Alike)

/-! ### Columns in another order -/

/-- The same columns in another order, and the same marker. -/
structure Table.Reordered (table table' : Table) : Prop where
  columns : table.columns.entries.Perm table'.columns.entries
  marker : table.renamedFrom = table'.renamedFrom

section Columns

variable {config : MigrationConfig} {table table' before before' after after' : Table}

theorem Table.Reordered.symm (h : table.Reordered table') : table'.Reordered table :=
  ⟨h.columns.symm, h.marker.symm⟩

theorem Table.Reordered.find?_eq (h : table.Reordered table') (column : String) :
    table.columns.find? column = table'.columns.find? column :=
  OrderedMap.find?_eq_of_perm h.columns column

theorem Table.Reordered.field?_eq (h : table.Reordered table') (column : String) :
    table.field? column = table'.field? column := by
  rw [Table.field?, Table.field?, h.find?_eq]

theorem Table.Reordered.alike (h : table.Reordered table') :
    Alike Eq table.columns table'.columns :=
  .of_find?_eq h.find?_eq

/-- Where the order of the columns is the same as well, so is the table. -/
theorem Table.Reordered.eq_of_names_eq (h : table.Reordered table')
    (hnames : table.columns.names = table'.columns.names) : table = table' := by
  obtain ⟨columns, marker⟩ := table
  obtain ⟨columns', marker'⟩ := table'
  obtain rfl : columns = columns' := OrderedMap.eq_of_names_eq hnames h.find?_eq
  obtain rfl : marker = marker' := h.marker
  rfl

section Reordered

variable (hbefore : before.Reordered before') (hafter : after.Reordered after')

include hbefore hafter

/-- Whether columns can become others does not depend on their order. -/
theorem ColumnsAcceptable.of_reordered (h : ColumnsAcceptable config before after) :
    ColumnsAcceptable config before' after' := by
  have harrives {n : String} : Arrives before'.columns after'.columns n →
      Arrives before.columns after.columns n :=
    (Changes.arrives_iff_of_alike hbefore.alike hafter.alike).2
  have hdeparts {n : String} : Departs before'.columns after'.columns n →
      Departs before.columns after.columns n :=
    (Changes.departs_iff_of_alike hbefore.alike hafter.alike).2
  have hmoves {s t : String} : Moves Column.renamedFrom before.columns after.columns s t ↔
      Moves Column.renamedFrom before'.columns after'.columns s t :=
    Changes.moves_iff_of_alike hbefore.alike hafter.alike (congrArg _)
  refine ⟨h.markers.of_alike hbefore.alike hafter.alike (congrArg _), ?_, ?_, ?_, ?_, ?_⟩
  · intro name column hnew hfind hmarker
    exact h.created (harrives hnew) ((hafter.find?_eq name).trans hfind) hmarker
  · intro source target field field' hm hsource htarget
    exact h.moved (hmoves.2 hm) ((hbefore.field?_eq source).trans hsource)
      ((hafter.field?_eq target).trans htarget)
  · intro name field hgone hleft hfield
    exact h.removed (hdeparts hgone) (fun target hm => hleft target (hmoves.1 hm))
      ((hbefore.field?_eq name).trans hfield)
  · intro name field field' hplain hfield hfield'
    exact h.kept hplain ((hbefore.field?_eq name).trans hfield)
      ((hafter.field?_eq name).trans hfield')
  · intro name hreserved hleft
    rw [← hbefore.field?_eq, ← hafter.field?_eq]
    exact h.reserved hreserved fun target hm => hleft target (hmoves.1 hm)

/-- Reordered columns are changed by the same statements in another order. -/
theorem columnStatements_perm (name : String)
    (honoured : MarkersHonoured Column.renamedFrom before.columns after.columns) :
    (columnStatements name before.columns after.columns).Perm
      (columnStatements name before'.columns after'.columns) := by
  have hperm := Changes.turns_perm hbefore.alike hafter.alike (congrArg _) honoured
  -- Both sides have the same columns, so reading a turn from the others leaves it as it is.
  have hsame : (turns Column.renamedFrom before.columns after.columns).map
      (Turn.readFrom before'.columns after'.columns) =
        turns Column.renamedFrom before.columns after.columns := by
    apply (List.map_congr_left _).trans (List.map_id _)
    intro t ht
    exact ((Changes.mem_turns_iff honoured).1 ht).readFrom_eq_self hbefore.find?_eq hafter.find?_eq
  rw [hsame] at hperm
  exact hperm.flatMap_right _

end Reordered

end Columns

/-! ### Tables in another order -/

/-- The same tables in another order, and the columns of each in another order. -/
def Schema.Reordered (schema schema' : Schema) : Prop :=
  ∃ entries : List (String × Table), schema.tables.entries.Perm entries ∧
    entries.Forall₂ (fun e e' => e.1 = e'.1 ∧ e.2.Reordered e'.2) schema'.tables.entries

/-- A table of the next schema is new and has no marker. -/
def Created (prev next : Schema) (name : String) (table : Table) : Prop :=
  Arrives prev.tables next.tables name ∧ next.table? name = some table ∧ table.renamedFrom = none

/-- The tables that are created on both ways have their columns in the same order. -/
def CreatedInOrder (prev next prev' next' : Schema) : Prop :=
  ∀ name table table', Created prev next name table → Created prev' next' name table' →
    table.columns.names = table'.columns.names

section Tables

variable {config : MigrationConfig} {schema schema' prev prev' next next' : Schema}

/-- Entries that are related one by one are related under each name. -/
theorem Entries.rel_find? {α : Type u} {R : α → α → Prop} {es es' : List (String × α)}
    (h : es.Forall₂ (fun e e' => e.1 = e'.1 ∧ R e.2 e'.2) es') (name : String) :
    Option.Rel R (find? es name) (find? es' name) := by
  induction h with
  | nil => exact .none
  | @cons e e' _ _ hentry _ ih =>
    obtain ⟨n, entity⟩ := e
    obtain ⟨n', entity'⟩ := e'
    obtain ⟨rfl, hrel⟩ := hentry
    by_cases hname : n = name
    · simpa [find?, hname] using hrel
    · simpa [find?, hname] using ih

theorem Schema.Reordered.alike (h : schema.Reordered schema') :
    Alike Table.Reordered schema.tables schema'.tables := by
  obtain ⟨entries, hperm, hentries⟩ := h
  have hnodup : (Entries.names entries).Nodup :=
    (hperm.map Prod.fst).nodup_iff.1 schema.tables.nodup
  -- The entries come into the other order first, and then each gives way to its reordered one.
  intro name
  rw [OrderedMap.find?_eq_of_perm (n := ⟨entries, hnodup⟩) hperm]
  exact Entries.rel_find? hentries name

theorem Schema.fieldsOf?_eq_of_alike (h : Alike Table.Reordered schema.tables schema'.tables)
    (name : String) : schema.fieldsOf? name = schema'.fieldsOf? name := by
  have hrel := h name
  unfold Schema.fieldsOf? Schema.table?
  cases hfind : schema.tables.find? name <;> cases hfind' : schema'.tables.find? name
  · rfl
  · simp [hfind, hfind'] at hrel
  · simp [hfind, hfind'] at hrel
  · rw [hfind, hfind', Option.rel_some_some] at hrel
    exact congrArg some (funext hrel.field?_eq)

section Alike

variable (hprev : Alike Table.Reordered prev.tables prev'.tables)
variable (hnext : Alike Table.Reordered next.tables next'.tables)

include hprev hnext

/-- Whether a schema can become another does not depend on their order. -/
theorem Acceptable.of_alike (h : Acceptable config prev next) : Acceptable config prev' next' := by
  have hvalid {s s' : Schema} (halike : Alike Table.Reordered s.tables s'.tables)
      (hs : s.validate = .ok ()) : s'.validate = .ok () := by
    rw [Schema.validate_eq_ok_iff_isValid] at hs ⊢
    exact hs.of_fieldsOf?_eq (Schema.fieldsOf?_eq_of_alike halike)
  have hmoves {s t : String} : Moves Table.renamedFrom prev.tables next.tables s t ↔
      Moves Table.renamedFrom prev'.tables next'.tables s t :=
    Changes.moves_iff_of_alike hprev hnext Table.Reordered.marker
  refine ⟨hvalid hprev h.valid_prev, hvalid hnext h.valid_next,
    h.markers.of_alike hprev hnext Table.Reordered.marker, ?_, ?_, ?_⟩
  · intro name hgone
    obtain ⟨target, hm⟩ | hdeprecated :=
      h.removed ((Changes.departs_iff_of_alike hprev hnext).2 hgone)
    · exact .inl ⟨target, hmoves.1 hm⟩
    · exact .inr hdeprecated
  · intro source target before' after' hcontinues hbefore' hafter'
    have hcontinued : Continues prev next source target := by
      rcases hcontinues with hsame | hm
      · exact .inl hsame
      · exact .inr (hmoves.2 hm)
    -- The tables of the first order are those from which the other two have been reordered.
    obtain ⟨before, hbefore, hrel⟩ := (hprev.symm Table.Reordered.symm).exists_find? hbefore'
    obtain ⟨after, hafter, hrel'⟩ := (hnext.symm Table.Reordered.symm).exists_find? hafter'
    exact (h.columns hcontinued hbefore hafter).of_reordered hrel.symm hrel'.symm
  · intro name hreserved hleft
    rw [← Schema.fieldsOf?_eq_of_alike hprev, ← Schema.fieldsOf?_eq_of_alike hnext]
    exact h.reserved hreserved fun target hm => hleft target (hmoves.1 hm)

/-- A turn of a table emits the same statements in another order, if a table that is created has its
columns in the same order. -/
theorem tableStatements_readFrom_perm (h : Acceptable config prev next)
    (horder : CreatedInOrder prev next prev' next')
    {t : Turn Table} (ht : t ∈ turns Table.renamedFrom prev.tables next.tables) :
    t.tableStatements.Perm (t.readFrom prev'.tables next'.tables).tableStatements := by
  have hfits := (Changes.mem_turns_iff h.markers).1 ht
  have hfits' := hfits.readFrom hprev hnext Table.Reordered.marker
  have hacceptable := h.turn ht
  cases t with
  | create name after =>
    obtain ⟨hnew, hafter, hmarker⟩ := hfits
    obtain ⟨after', hafter', hrel⟩ := hnext.exists_find? hafter
    simp only [Turn.readFrom, hafter', Option.getD_some] at hfits' ⊢
    obtain ⟨hnew', -, hmarker'⟩ := hfits'
    -- The definitions stand inside one statement, so the order of the columns has to be the same.
    rw [hrel.eq_of_names_eq
      (horder name after after' ⟨hnew, hafter, hmarker⟩ ⟨hnew', hafter', hmarker'⟩)]
  | move source target before after =>
    obtain ⟨-, hafter, -, hbefore⟩ := hfits
    obtain ⟨after', hafter', hrel'⟩ := hnext.exists_find? hafter
    obtain ⟨before', hbefore', hrel⟩ := hprev.exists_find? hbefore
    simp only [Turn.readFrom, hafter', hbefore', Option.getD_some]
    exact (columnStatements_perm hrel hrel' target hacceptable.markers).cons _
  | remove name before => exact .refl _
  | keep name before after =>
    obtain ⟨-, hbefore, hafter⟩ := hfits
    obtain ⟨after', hafter', hrel'⟩ := hnext.exists_find? hafter
    obtain ⟨before', hbefore', hrel⟩ := hprev.exists_find? hbefore
    simp only [Turn.readFrom, hafter', hbefore', Option.getD_some]
    exact columnStatements_perm hrel hrel' name hacceptable.markers

/-- The statements come in another order, if the tables that are created have their columns in the
same order. -/
theorem tableStatements_perm (h : Acceptable config prev next)
    (horder : CreatedInOrder prev next prev' next') :
    (tableStatements prev.tables next.tables).Perm
      (tableStatements prev'.tables next'.tables) := by
  have hperm := Changes.turns_perm hprev hnext Table.Reordered.marker h.markers
  have hread : (tableStatements prev.tables next.tables).Perm
      (((turns Table.renamedFrom prev.tables next.tables).map
        (Turn.readFrom prev'.tables next'.tables)).flatMap Turn.tableStatements) := by
    rw [List.flatMap_map]
    apply List.Perm.flatMap_left
    intro t ht
    exact tableStatements_readFrom_perm hprev hnext h horder ht
  exact hread.trans (hperm.flatMap_right _)

end Alike

/-- The order of declaration does not decide a migration: with the tables and the columns in another
order there is one exactly if there was one before, it reaches the same structure, and it has the
same statements in another order, as long as the tables that are created keep the order of their
columns. -/
theorem migrate_reordered (hprev : prev.Reordered prev') (hnext : next.Reordered next') :
    ((∃ migration, migrate config prev next = .ok migration) ↔
      ∃ migration, migrate config prev' next' = .ok migration) ∧
    ∀ migration migration', migrate config prev next = .ok migration →
      migrate config prev' next' = .ok migration' →
        migration.schema.sameStructure migration'.schema = true ∧
        (CreatedInOrder prev next prev' next' →
          migration.statements.Perm migration'.statements) := by
  have halike := hprev.alike
  have halike' := hnext.alike
  simp only [migrate_eq_ok_iff, exists_and_left, exists_eq, and_true]
  refine ⟨⟨.of_alike halike halike', .of_alike (halike.symm Table.Reordered.symm)
    (halike'.symm Table.Reordered.symm)⟩, ?_⟩
  rintro _ _ ⟨hacceptable, rfl⟩ ⟨-, rfl⟩
  refine ⟨?_, tableStatements_perm halike halike' hacceptable⟩
  apply Schema.sameStructure_iff.2
  intro name
  rw [Schema.fieldsOf?_canonical, Schema.fieldsOf?_canonical,
    Schema.fieldsOf?_eq_of_alike halike']

end Tables

/-! ### A schema in two orders -/

/-- A table of integer columns. -/
def Table.ofIntegers (columns : List String) : Table :=
  ⟨.ofList (columns.map fun column => (column, ⟨.integer "", none⟩)), none⟩

/-- A schema of tables of integer columns. -/
def Schema.ofIntegers (tables : List (String × List String)) : Schema :=
  ⟨.ofList (tables.map fun (name, columns) => (name, .ofIntegers columns))⟩

/-- Two tables with a further column each come in two orders, and so do the two statements. -/
theorem migrate_reordered_columns :
    ∃ migration migration',
      migrate {} (.ofIntegers [("u", ["x"]), ("t", ["x"])])
          (.ofIntegers [("u", ["x", "y"]), ("t", ["x", "z"]), ("v", ["a", "b"])]) =
        .ok migration ∧
      migrate {} (.ofIntegers [("t", ["x"]), ("u", ["x"])])
          (.ofIntegers [("v", ["a", "b"]), ("t", ["z", "x"]), ("u", ["y", "x"])]) =
        .ok migration' ∧
      migration.statements ≠ migration'.statements ∧
      migration.statements.Perm migration'.statements ∧
      migration.schema.sameStructure migration'.schema = true := by
  have hprev : Schema.Reordered (.ofIntegers [("u", ["x"]), ("t", ["x"])])
      (.ofIntegers [("t", ["x"]), ("u", ["x"])]) := by
    refine ⟨[("t", .ofIntegers ["x"]), ("u", .ofIntegers ["x"])], by decide, ?_⟩
    exact .cons ⟨rfl, .refl _, rfl⟩ (.cons ⟨rfl, .refl _, rfl⟩ .nil)
  have hnext : Schema.Reordered
      (.ofIntegers [("u", ["x", "y"]), ("t", ["x", "z"]), ("v", ["a", "b"])])
      (.ofIntegers [("v", ["a", "b"]), ("t", ["z", "x"]), ("u", ["y", "x"])]) := by
    refine ⟨[("v", .ofIntegers ["a", "b"]), ("t", .ofIntegers ["x", "z"]),
      ("u", .ofIntegers ["x", "y"])], by decide, ?_⟩
    exact .cons ⟨rfl, .refl _, rfl⟩
      (.cons ⟨rfl, .swap _ _ _, rfl⟩ (.cons ⟨rfl, .swap _ _ _, rfl⟩ .nil))
  obtain ⟨hverdict, hmigrations⟩ := @migrate_reordered {} _ _ _ _ hprev hnext
  obtain ⟨migration, hmigration⟩ : ∃ migration, migrate {}
      (.ofIntegers [("u", ["x"]), ("t", ["x"])])
      (.ofIntegers [("u", ["x", "y"]), ("t", ["x", "z"]), ("v", ["a", "b"])]) =
        .ok migration := ⟨_, rfl⟩
  obtain ⟨migration', hmigration'⟩ := hverdict.1 ⟨migration, hmigration⟩
  obtain ⟨hsame, hperm⟩ := hmigrations migration migration' hmigration hmigration'
  refine ⟨migration, migration', hmigration, hmigration', ?_, hperm ?_, hsame⟩
  · cases hmigration
    cases hmigration'
    decide
  · -- Only the last table is created, and its columns are in the same order.
    rintro name table table' ⟨⟨-, hname, hnew⟩, htable, -⟩ ⟨-, htable', -⟩
    obtain rfl : name = "v" := by
      have hnext : name ∈ ["u", "t", "v"] := hname
      have hprev : name ∉ ["u", "t"] := hnew
      simp only [List.mem_cons, List.not_mem_nil, or_false] at hnext hprev
      tauto
    cases htable
    cases htable'
    rfl

end Schemata
