import Mathlib.Data.List.Forall2
import Mathlib.Data.List.Induction
import Mathlib.Data.List.Perm.Basic
import Mathlib.Logic.Relation
import Schemata.Proofs.Schema.Persistence

/-!
# What does not matter in a persisted schema

A persisted schema is read from a document, and much of how the document is laid out does not
count: the order of the keys in a table or in a column, keys that are not known there, and whether a
table is an object or the array of its parts. Which keys are known in a column depends on its kind,
which may stand behind them. What does count is that a known key stands once, and that whatever
stands in a column, known or not, is a value that can be kept until its kind is told.

Tables, and the columns of a table, are read as maps, and there a name may be repeated. They are
written one after the other, so a repeated name keeps its first place and has its last value; but
each of its values has to be one that is read.

## Main definitions

* `Json.valuesUnder`, `Json.sole?`: what stands under a key, and the only thing that does
* `Json.AgreeOn`: members with the same under the keys that count
* `columnKeys`, `tableKeys`: the keys that count
* `HasParts`: the parts of a table, as an object or as an array
* `writeMembers?`: a map into which members are written one after the other
* `SameContent`: documents of schemas that differ in their structure only
* `RepeatsKeyInTable`: a key that counts is repeated

## Main results

* `Column.ofJson?_congr`, `Table.ofJson?_congr`: columns and tables depend on the keys that count
* `Table.ofJson?_eq_some_iff`: a table is read if its parts are
* `writeMembers?_eq_some_iff`: names at their first place, with their last value
* `RestructuresTable.ofJson?_eq`, `SameContent.ofJson?_eq`: one change of structure, and any number
* `RepeatsKeyInTable.ofJson?_eq_none`: a table with a repeated key is not read
* `Schema.ofText?_ignores_structure`: all of it, for the texts of schemas
-/

namespace Schemata

/-! ### Maps written from lists -/

namespace OrderedMap

universe u

variable {α : Type u} {m : OrderedMap α} {es : List (String × α)}

theorem names_insert (m : OrderedMap α) (name : String) (a : α) :
    (m.insert name a).names = if name ∈ m.names then m.names else m.names ++ [name] := by
  split
  · next h => exact Entries.names_set_of_mem a h
  · next h => exact Entries.names_set_of_not_mem a h

theorem ofList_concat (es : List (String × α)) (e : String × α) :
    ofList (es ++ [e]) = (ofList es).insert e.1 e.2 := by
  rw [ofList, List.foldl_append, ← ofList]
  rfl

/-- A name stands where it was first written. -/
theorem names_ofList (es : List (String × α)) :
    (ofList es).names = (Entries.names es).eraseDups := by
  induction es using List.reverseRecOn with
  | nil => rfl
  | append_singleton es e ih =>
    have hnames : Entries.names (es ++ [e]) = Entries.names es ++ [e.1] := List.map_append
    rw [ofList_concat, names_insert, ih, hnames, List.eraseDups_append]
    split
    · next h => simp [List.removeAll, List.mem_eraseDups.1 h]
    · next h => simp [List.removeAll, mt List.mem_eraseDups.2 h, List.eraseDups_cons]

/-- A name has the value that was last written. -/
theorem find?_ofList (es : List (String × α)) (name : String) :
    (ofList es).find? name = Entries.find? es.reverse name := by
  induction es using List.reverseRecOn with
  | nil => rfl
  | append_singleton es e ih =>
    rw [ofList_concat, find?_insert, ih, List.reverse_concat]
    rfl

theorem eq_ofList_iff : m = ofList es ↔ m.names = (Entries.names es).eraseDups ∧
    ∀ name, m.find? name = Entries.find? es.reverse name := by
  simp only [← names_ofList, ← find?_ofList]
  exact ⟨fun h => h ▸ ⟨rfl, fun _ => rfl⟩, fun h => eq_of_names_eq h.1 h.2⟩

end OrderedMap

namespace Json

variable {members members' before after : List (Option String × Json)}
variable {named named' : List (String × Json)} {values values' : List Json}
variable {keys : List String} {key other : String} {v : Json} {found : Option Json}

/-! ### What stands under a key -/

theorem named?_cons_some : named? ((some key, v) :: members) =
    (named? members).map fun named => (key, v) :: named := by
  rw [named?, List.mapM_cons, ← named?]
  cases named? members <;> rfl

theorem named?_eq_some_iff :
    named? members = some named ↔ members = named.map fun m => (some m.1, m.2) := by
  constructor
  · intro h
    induction members generalizing named with
    | nil =>
      cases h
      rfl
    | cons m rest ih =>
      obtain ⟨_ | key, v⟩ := m
      · cases h
      · rw [named?_cons_some, Option.map_eq_some_iff] at h
        obtain ⟨others, hothers, rfl⟩ := h
        rw [ih hothers, List.map_cons]
  · rintro rfl
    exact named?_map_some named

/-- Members have names exactly if their keys are texts. -/
theorem isSome_named? : (named? members).isSome = members.all fun m => m.1.isSome := by
  induction members with
  | nil => rfl
  | cons m rest ih =>
    obtain ⟨_ | key, v⟩ := m
    · rfl
    · rw [named?_cons_some, Option.isSome_map, ih]
      rfl

/-- The values under a key, in order. -/
def valuesUnder (members : List (Option String × Json)) (key : String) : List Json :=
  members.filterMap fun m => if m.1 = some key then some m.2 else none

/-- The only one of some values, if there is one, unless there are several. -/
def sole? : List Json → Option (Option Json)
  | [] => some none
  | [v] => some (some v)
  | _ => none

theorem valuesUnder_append :
    valuesUnder (before ++ after) key = valuesUnder before key ++ valuesUnder after key :=
  List.filterMap_append

theorem valuesUnder_cons_self :
    valuesUnder ((some key, v) :: members) key = v :: valuesUnder members key := by
  simp [valuesUnder]

/-- A member under another key does not count. -/
theorem valuesUnder_insert (h : other ≠ key) :
    valuesUnder (before ++ (some other, v) :: after) key = valuesUnder (before ++ after) key := by
  simp [valuesUnder, h]

theorem mem_valuesUnder_iff : v ∈ valuesUnder members key ↔ (some key, v) ∈ members := by
  simp only [valuesUnder, List.mem_filterMap, Prod.exists]
  constructor
  · rintro ⟨other, w, hmem, h⟩
    split at h
    · next hkey =>
      obtain rfl := Option.some.inj h
      exact hkey ▸ hmem
    · cases h
  · exact fun hmem => ⟨some key, v, hmem, if_pos rfl⟩

theorem sole?_eq_some_iff : sole? values = some found ↔ values = found.toList := by
  rcases values with _ | ⟨v, _ | ⟨w, rest⟩⟩ <;> cases found <;> simp [sole?]

theorem sole?_eq_none_iff : sole? values = none ↔ 2 ≤ values.length := by
  rcases values with _ | ⟨v, _ | ⟨w, rest⟩⟩ <;> simp [sole?]

/-- The order of the values does not matter for which one is the only one. -/
theorem sole?_of_perm (h : values.Perm values') : sole? values = sole? values' := by
  refine Option.ext fun found => ?_
  rw [sole?_eq_some_iff, sole?_eq_some_iff]
  cases found with
  | none => exact ⟨fun heq => (heq ▸ h).nil_eq.symm, fun heq => (heq ▸ h).eq_nil⟩
  | some v => exact ⟨fun heq => (heq ▸ h).singleton_eq.symm, fun heq => (heq ▸ h).eq_singleton⟩

theorem only?_eq_sole? (h : named? members = some named) (key : String) :
    only? named key = sole? (valuesUnder members key) := by
  obtain rfl := named?_eq_some_iff.1 h
  have hvalues : valuesUnder (named.map fun m => (some m.1, m.2)) key =
      (named.filter fun m => m.1 = key).map Prod.snd := by
    rw [valuesUnder, List.filterMap_map, ← List.filterMap_eq_map, List.filterMap_filter]
    exact List.filterMap_congr fun m _ => by simp
  rw [only?, hvalues]
  generalize named.filter (fun m => m.1 = key) = found
  rcases found with _ | ⟨_, _ | _⟩ <;> rfl

/-- Under another key there is what was there before some members were put aside. -/
theorem only?_filter_ne (h : key ≠ other) :
    only? (named.filter fun m => m.1 ≠ other) key = only? named key := by
  have hfilter : (named.filter fun m => m.1 ≠ other).filter (fun m => m.1 = key) =
      named.filter fun m => m.1 = key := by
    rw [List.filter_filter]
    refine List.filter_congr fun m _ => ?_
    by_cases hkey : m.1 = key <;> simp [hkey, h]
  rw [only?, only?, hfilter]

/-- Members agree on some keys if under each of them the same value is the only one, and if all
keys are texts among the one exactly if they are among the other. -/
structure AgreeOn (keys : List String) (members members' : List (Option String × Json)) : Prop where
  named : members.all (fun m => m.1.isSome) = members'.all fun m => m.1.isSome
  sole : ∀ key ∈ keys, sole? (valuesUnder members key) = sole? (valuesUnder members' key)

theorem AgreeOn.symm (h : AgreeOn keys members members') : AgreeOn keys members' members :=
  ⟨h.named.symm, fun key hkey => (h.sole key hkey).symm⟩

theorem AgreeOn.valuesUnder_eq (h : AgreeOn keys members members') (hkey : key ∈ keys)
    (hvalues : valuesUnder members key = found.toList) :
    valuesUnder members' key = found.toList := by
  rw [← sole?_eq_some_iff] at hvalues ⊢
  rw [← h.sole key hkey, hvalues]

/-- If all keys are texts, so are those of members that agree with these. -/
theorem AgreeOn.exists_named (h : AgreeOn keys members members')
    (hnamed : named? members = some named) :
    ∃ named', named? members' = some named' ∧
      ∀ key ∈ keys, only? named' key = only? named key := by
  have hsome : (named? members').isSome := by
    rw [isSome_named?, ← h.named, ← isSome_named?, hnamed]
    rfl
  obtain ⟨named', hnamed'⟩ := Option.isSome_iff_exists.1 hsome
  refine ⟨named', hnamed', fun key hkey => ?_⟩
  rw [only?_eq_sole? hnamed', ← h.sole key hkey, ← only?_eq_sole? hnamed]

/-- The order of the members does not count. -/
theorem AgreeOn.of_perm (h : members.Perm members') : AgreeOn keys members members' :=
  ⟨h.all_eq, fun _ _ => sole?_of_perm (h.filterMap _)⟩

/-- A member does not count under a key that does not. -/
theorem AgreeOn.insert (hkey : key ∉ keys) :
    AgreeOn keys (before ++ after) (before ++ (some key, v) :: after) := by
  refine ⟨by simp, fun other hother => ?_⟩
  have hne : key ≠ other := fun heq => hkey (heq ▸ hother)
  rw [valuesUnder_insert hne]

end Json

open Json (ofMembers ofText named? only? required? valuesUnder sole? AgreeOn)

/-! ### The keys of a column -/

/-- The names of the parts of a field. -/
def FieldKind.partNames : FieldKind → List String
  | .atom => ["sqlType", "valueType", "constraints"]
  | .relation => ["cardinality", "source", "destination"]
  | .aliasTo => ["target"]
  | .index | .constraint => ["definition"]

/-- The kind that the members of a column tell, wherever it stands among them. -/
def columnKind? (members : List (Option String × Json)) : Option FieldKind :=
  (sole? (valuesUnder members "kind")).join.bind FieldKind.ofJson?

/-- The keys that count in a column with these members. -/
def columnKeys (members : List (Option String × Json)) : List String :=
  "renamedFrom" :: "kind" :: (columnKind? members).elim [] FieldKind.partNames

/-- A value that may stand in a column, also under a key that does not count. -/
def isBearable (v : Json) : Bool := v.isPlain && v.depth ≤ maxNesting

/-- All members but the marker may stand in a column. -/
def areBearable (members : List (Option String × Json)) : Bool :=
  members.all fun m => m.1 = some "renamedFrom" || isBearable m.2

section Column

variable {members members' before after : List (Option String × Json)}
variable {named named' : List (String × Json)}
variable {key : String} {v : Json} {kind : FieldKind} {column : Column}

/-- No part of a field has the name of the marker. -/
theorem FieldKind.partNames_ne (h : key ∈ kind.partNames) : key ≠ "renamedFrom" := by
  cases kind <;> simp only [partNames, List.mem_cons, List.not_mem_nil, or_false] at h <;>
    rcases h with rfl | rfl | rfl <;> decide

/-- A field depends on its parts only. -/
theorem Field.ofMembers?_congr (h : ∀ key ∈ kind.partNames, only? named key = only? named' key) :
    Field.ofMembers? named kind = Field.ofMembers? named' kind := by
  cases kind <;> simp only [FieldKind.partNames, List.forall_mem_cons] at h <;>
    simp [Field.ofMembers?, textMember?, required?, h]

/-- A field is only read if none of its parts is repeated. -/
theorem Field.isSome_only?_of_ofMembers? {field : Field}
    (h : Field.ofMembers? named kind = some field) :
    ∀ key ∈ kind.partNames, (only? named key).isSome := by
  intro key hkey
  by_contra hnone
  rw [Option.not_isSome_iff_eq_none] at hnone
  cases kind
  all_goals
    simp only [FieldKind.partNames, List.mem_cons, List.not_mem_nil, or_false] at hkey
    rcases hkey with rfl | rfl | rfl <;> simp [ofMembers?, textMember?, required?, hnone] at h

theorem columnKind?_congr (h : AgreeOn (columnKeys members) members members') :
    columnKind? members = columnKind? members' := by
  rw [columnKind?, columnKind?, h.sole "kind" (by simp [columnKeys])]

/-- A column is read if all its members may stand there, and its marker, its kind and the parts of
that kind are read. -/
theorem Column.ofJson?_object_iff : Column.ofJson? (.object members) = some column ↔
    ∃ named kind, named? members = some named ∧ areBearable members ∧
      markerOfMembers? named = some column.renamedFrom ∧ columnKind? members = some kind ∧
      Field.ofMembers? named kind = some column.field := by
  cases hm : named? members with
  | none => simp [ofJson?, hm]
  | some named =>
    -- The marker is put aside before anything else is read, but nothing else has its name.
    have hbearable : ((named.filter fun m => m.1 ≠ "renamedFrom").all fun m =>
        m.2.isPlain && m.2.depth ≤ maxNesting) = areBearable members := by
      obtain rfl := Json.named?_eq_some_iff.1 hm
      rw [areBearable, List.all_filter, List.all_map]
      refine congrArg (named.all ·) (funext fun m => ?_)
      by_cases hkey : m.1 = "renamedFrom" <;> simp [isBearable, hkey]
    have hkind : (required? (named.filter fun m => m.1 ≠ "renamedFrom") "kind").bind
        FieldKind.ofJson? = columnKind? members := by
      rw [required?, Json.only?_filter_ne (by decide), Json.only?_eq_sole? hm, columnKind?]
    have hfield : ∀ kind, Field.ofMembers? (named.filter fun m => m.1 ≠ "renamedFrom") kind =
        Field.ofMembers? named kind := fun kind =>
      Field.ofMembers?_congr fun key hkey =>
        Json.only?_filter_ne (FieldKind.partNames_ne hkey)
    simp only [ofJson?, hm, Option.bind_eq_bind, Option.bind_some, hbearable, hfield,
      Option.bind_eq_some_iff, Option.pure_def, Option.some.injEq, Option.guard_eq_some',
      ← hkind, exists_const]
    constructor
    · rintro ⟨marker, hmarker, hall, v, hv, kind, hk, field, hf, rfl⟩
      exact ⟨named, kind, rfl, hall, hmarker, ⟨v, hv, hk⟩, hf⟩
    · rintro ⟨_, kind, rfl, hall, hmarker, ⟨v, hv, hk⟩, hf⟩
      exact ⟨_, hmarker, hall, v, hv, kind, hk, _, hf, rfl⟩

theorem Column.ofJson?_eq_some_of_agreeOn (h : AgreeOn (columnKeys members) members members')
    (hbearable : areBearable members = areBearable members')
    (hread : Column.ofJson? (.object members) = some column) :
    Column.ofJson? (.object members') = some column := by
  obtain ⟨named, kind, hnamed, hall, hmarker, hkind, hfield⟩ := Column.ofJson?_object_iff.1 hread
  obtain ⟨named', hnamed', honly⟩ := h.exists_named hnamed
  refine Column.ofJson?_object_iff.2 ⟨named', kind, hnamed', hbearable ▸ hall, ?_, ?_, ?_⟩
  · rw [← hmarker, markerOfMembers?, markerOfMembers?, honly _ (by simp [columnKeys])]
  · rw [← hkind, columnKind?_congr h]
  · rw [← hfield, Field.ofMembers?_congr]
    exact fun key hkey => honly key (by simp [columnKeys, hkind, hkey])

/-- A column depends on its keys that count only, if its members may stand there at all. -/
theorem Column.ofJson?_congr (h : AgreeOn (columnKeys members) members members')
    (hbearable : areBearable members = areBearable members') :
    Column.ofJson? (.object members) = Column.ofJson? (.object members') := by
  -- Members that agree on the keys of one of them tell the same kind, so both have these keys.
  have hsymm : AgreeOn (columnKeys members') members' members := by
    rw [columnKeys, ← columnKind?_congr h, ← columnKeys]
    exact h.symm
  exact Option.ext fun _ => ⟨ofJson?_eq_some_of_agreeOn h hbearable,
    ofJson?_eq_some_of_agreeOn hsymm hbearable.symm⟩

/-- A key that counts stands once. -/
theorem Column.ofJson?_eq_none_of_repeated (hkey : key ∈ columnKeys members)
    (hrepeated : 2 ≤ (valuesUnder members key).length) :
    Column.ofJson? (.object members) = none := by
  refine Option.eq_none_iff_forall_not_mem.2 fun column hread => ?_
  obtain ⟨named, kind, hnamed, -, hmarker, hkind, hfield⟩ := Column.ofJson?_object_iff.1 hread
  have hnone : only? named key = none := by
    rw [Json.only?_eq_sole? hnamed, Json.sole?_eq_none_iff.2 hrepeated]
  simp only [columnKeys, hkind, Option.elim_some, List.mem_cons] at hkey
  rcases hkey with rfl | rfl | hkey
  · simp [markerOfMembers?, hnone] at hmarker
  · simp [columnKind?, Json.sole?_eq_none_iff.2 hrepeated] at hkind
  · simpa [hnone] using Field.isSome_only?_of_ofMembers? hfield key hkey

end Column

/-! ### The parts of a table -/

/-- The keys that count in a table. -/
def tableKeys : List String := ["columns", "renamedFrom"]

/-- A table document has these columns and this marker: as an object with texts for keys, in which
the one stands once and the other at most once, or as the array of both. -/
inductive HasParts : Json → Json → Option Json → Prop
  | object {members : List (Option String × Json)} {columns : Json} {marker : Option Json}
      (hnamed : members.all fun m => m.1.isSome)
      (hcolumns : valuesUnder members "columns" = [columns])
      (hmarker : valuesUnder members "renamedFrom" = marker.toList) :
      HasParts (.object members) columns marker
  | array (columns : Json) (marker : Option Json) :
      HasParts (.array (columns :: marker.toList)) columns marker

/-- The marker of a part of a table, which may be missing. -/
def markerOfPart? (part : Option Json) : Option (Option String) :=
  part.elim (some none) markerOfJson?

section Table

variable {t t' columns columns' : Json} {marker marker' : Option Json} {table : Table}
variable {members members' before after : List (Option String × Json)} {key : String} {v : Json}
variable {named : List (String × Json)} {name : Option String}

theorem markerOfMembers?_eq_some_iff : markerOfMembers? named = some name ↔
    ∃ part, only? named "renamedFrom" = some part ∧ markerOfPart? part = some name := by
  rw [markerOfMembers?, Option.bind_eq_bind, Option.bind_eq_some_iff]
  refine exists_congr fun part => and_congr_right fun _ => ?_
  cases part <;> rfl

/-- A table is read if its parts are. -/
theorem Table.ofJson?_eq_some_iff : Table.ofJson? t = some table ↔
    ∃ columns marker, HasParts t columns marker ∧
      mapOfJson? Column.ofJson? columns = some table.columns ∧
      markerOfPart? marker = some table.renamedFrom := by
  constructor
  · intro h
    unfold Table.ofJson? at h
    split at h
    · next members =>
      simp only [Option.bind_eq_bind, Option.bind_eq_some_iff, Option.pure_def, Option.some.injEq,
        required?, Option.join_eq_some_iff, markerOfMembers?_eq_some_iff] at h
      obtain ⟨named, hnamed, columns, hcolumns, _, hread, _, ⟨marker, hmarker, hname⟩, rfl⟩ := h
      rw [Json.only?_eq_sole? hnamed, Json.sole?_eq_some_iff] at hcolumns hmarker
      exact ⟨columns, marker, .object (by rw [← Json.isSome_named?, hnamed]; rfl) hcolumns hmarker,
        hread, hname⟩
    · next columns =>
      obtain ⟨_, hread, ⟨⟩⟩ := Option.bind_eq_some_iff.1 h
      exact ⟨columns, none, .array columns none, hread, rfl⟩
    · next columns marker =>
      simp only [Option.bind_eq_bind, Option.bind_eq_some_iff, Option.pure_def,
        Option.some.injEq] at h
      obtain ⟨_, hread, _, hname, rfl⟩ := h
      exact ⟨columns, some marker, .array columns (some marker), hread, hname⟩
    · cases h
  · rintro ⟨columns, marker, hparts, hread, hname⟩
    cases hparts with
    | object hnamed hcolumns hmarker =>
      rw [← Json.isSome_named?, Option.isSome_iff_exists] at hnamed
      obtain ⟨named, hnamed⟩ := hnamed
      have honly : only? named "columns" = some (some columns) := by
        rw [Json.only?_eq_sole? hnamed, hcolumns]
        rfl
      have hfound : markerOfMembers? named = some table.renamedFrom :=
        markerOfMembers?_eq_some_iff.2
          ⟨marker, by rw [Json.only?_eq_sole? hnamed, Json.sole?_eq_some_iff.2 hmarker], hname⟩
      simp [Table.ofJson?, hnamed, required?, honly, hread, hfound]
    | array =>
      cases marker with
      | none =>
        obtain ⟨tableColumns, renamedFrom⟩ := table
        cases hname
        simp only at hread
        simp [Table.ofJson?, hread]
      | some marker =>
        have hfound : markerOfJson? marker = some table.renamedFrom := hname
        simp [Table.ofJson?, hread, hfound]

theorem HasParts.unique (h : HasParts t columns marker) (h' : HasParts t columns' marker') :
    columns = columns' ∧ marker = marker' := by
  have htoList : ∀ {a b : Option Json}, a.toList = b.toList → a = b := by
    rintro (_ | _) (_ | _) heq <;> simp_all
  cases h with
  | object _ hcolumns hmarker =>
    cases h' with
    | object _ hcolumns' hmarker' =>
      exact ⟨by simpa [hcolumns] using hcolumns', htoList (hmarker ▸ hmarker')⟩
  | array =>
    generalize hrest : marker.toList = rest at h'
    cases h' with
    | array => exact ⟨rfl, htoList hrest⟩

theorem Table.ofJson?_eq_of_hasParts_iff
    (h : ∀ columns marker, HasParts t columns marker ↔ HasParts t' columns marker) :
    Table.ofJson? t = Table.ofJson? t' := by
  refine Option.ext fun table => ?_
  rw [Table.ofJson?_eq_some_iff, Table.ofJson?_eq_some_iff]
  simp only [h]

theorem HasParts.of_agreeOn (h : AgreeOn tableKeys members members')
    (hparts : HasParts (.object members) columns marker) :
    HasParts (.object members') columns marker := by
  cases hparts with
  | object hnamed hcolumns hmarker =>
    have hfound : valuesUnder members "columns" = (some columns).toList := hcolumns
    exact .object (h.named ▸ hnamed) (h.valuesUnder_eq (by simp [tableKeys]) hfound)
      (h.valuesUnder_eq (by simp [tableKeys]) hmarker)

/-- A table depends on its keys that count only. -/
theorem Table.ofJson?_congr (h : AgreeOn tableKeys members members') :
    Table.ofJson? (.object members) = Table.ofJson? (.object members') :=
  ofJson?_eq_of_hasParts_iff fun _ _ => ⟨.of_agreeOn h, .of_agreeOn h.symm⟩

/-- The columns that are among the members are the columns. -/
theorem HasParts.columns_eq (hparts : HasParts (.object members) columns marker)
    (hmem : (some "columns", columns') ∈ members) : columns' = columns := by
  cases hparts with
  | object _ hcolumns _ => simpa [hcolumns] using Json.mem_valuesUnder_iff.2 hmem

/-- Other columns in the place of the columns are the columns. -/
theorem HasParts.replace_columns
    (hparts : HasParts (.object (before ++ (some "columns", v) :: after)) columns marker) :
    HasParts (.object (before ++ (some "columns", columns') :: after)) columns' marker := by
  cases hparts with
  | object hnamed hcolumns hmarker =>
    rw [Json.valuesUnder_append, Json.valuesUnder_cons_self] at hcolumns
    -- The columns stand once, so there is nothing else under their key.
    have hothers : valuesUnder before "columns" = [] ∧ valuesUnder after "columns" = [] := by
      have hlength := congrArg List.length hcolumns
      simp only [List.length_append, List.length_cons, List.length_nil] at hlength
      exact ⟨List.eq_nil_of_length_eq_zero (by omega), List.eq_nil_of_length_eq_zero (by omega)⟩
    refine .object (by simpa using hnamed) ?_ ?_
    · rw [Json.valuesUnder_append, Json.valuesUnder_cons_self, hothers.1, hothers.2]
      rfl
    · rwa [Json.valuesUnder_insert (by decide)] at hmarker ⊢

/-- Of the columns, a table depends on the map that is read from them. -/
theorem Table.ofJson?_congr_columns
    (h : mapOfJson? Column.ofJson? columns = mapOfJson? Column.ofJson? columns') :
    Table.ofJson? (.object (before ++ (some "columns", columns) :: after)) =
      Table.ofJson? (.object (before ++ (some "columns", columns') :: after)) := by
  have hreplace : ∀ {columns columns'}, mapOfJson? Column.ofJson? columns =
      mapOfJson? Column.ofJson? columns' → ∀ {table},
      Table.ofJson? (.object (before ++ (some "columns", columns) :: after)) = some table →
      Table.ofJson? (.object (before ++ (some "columns", columns') :: after)) = some table := by
    intro columns columns' h table hread
    obtain ⟨v, marker, hparts, hcolumns, hmarker⟩ := ofJson?_eq_some_iff.1 hread
    have hself : columns = v := hparts.columns_eq (by simp)
    subst hself
    exact ofJson?_eq_some_iff.2 ⟨columns', marker, hparts.replace_columns, h ▸ hcolumns, hmarker⟩
  exact Option.ext fun _ => ⟨hreplace h, hreplace h.symm⟩

end Table

/-! ### Maps written member by member -/

/-- The map into which the members are written one after the other, each of them being read. -/
def writeMembers? {α : Type} (read? : Json → Option α) (members : List (Option String × Json)) :
    Option (OrderedMap α) :=
  members.foldlM (fun map m => do return map.insert (← m.1) (← read? m.2)) .empty

/-- A member is read as this entry. -/
def IsReadAs {α : Type} (read? : Json → Option α) (member : Option String × Json)
    (entry : String × α) : Prop :=
  member.1 = some entry.1 ∧ read? member.2 = some entry.2

section Map

variable {α : Type} {read? : Json → Option α} {map : OrderedMap α} {entries : List (String × α)}
variable {members before after : List (Option String × Json)} {key : Option String} {v v' : Json}

/-- Reading all members before the first is written makes no difference. -/
theorem mapOfJson?_object (read? : Json → Option α) (members : List (Option String × Json)) :
    mapOfJson? read? (.object members) = writeMembers? read? members := by
  -- Behind the first member something has been written already, so the map to start with is free.
  have hfrom : ∀ start : OrderedMap α, ((named? members).bind fun named =>
      (named.mapM fun m => (read? m.2).map fun a => (m.1, a)).map fun entries =>
        entries.foldl (fun map e => map.insert e.1 e.2) start) =
      members.foldlM (fun map m => do return map.insert (← m.1) (← read? m.2)) start := by
    induction members with
    | nil => exact fun _ => rfl
    | cons m rest ih =>
      intro start
      obtain ⟨_ | key, v⟩ := m
      · rfl
      · have hstep : (do return start.insert (← some key) (← read? v)) =
            (read? v).map (start.insert key) := by cases read? v <;> rfl
        rw [Json.named?_cons_some, List.foldlM_cons, hstep]
        cases h : read? v with
        | none => cases named? rest <;> simp [h]
        | some a =>
          refine Eq.trans ?_ (ih (start.insert key a))
          cases named? rest with
          | none => rfl
          | some named =>
            simp only [Option.map_some, Option.bind_some, List.mapM_cons, h]
            cases named.mapM fun m => (read? m.2).map fun a => (m.1, a) <;> rfl
  rw [writeMembers?, ← hfrom .empty, mapOfJson?]
  simp [OrderedMap.ofList, Option.map_eq_bind]

theorem foldlM_insert_eq_some_iff {start : OrderedMap α} :
    members.foldlM (fun map m => do return map.insert (← m.1) (← read? m.2)) start = some map ↔
      ∃ entries, List.Forall₂ (IsReadAs read?) members entries ∧
        map = entries.foldl (fun map e => map.insert e.1 e.2) start := by
  induction members generalizing start with
  | nil => simp [eq_comm]
  | cons m rest ih =>
    obtain ⟨key, v⟩ := m
    simp only [List.foldlM_cons, List.forall₂_cons_left_iff, Option.bind_eq_bind,
      Option.bind_eq_some_iff, Option.pure_def, Option.some.injEq]
    constructor
    · rintro ⟨_, ⟨name, hname, a, ha, rfl⟩, hrest⟩
      obtain ⟨entries, hentries, rfl⟩ := ih.1 hrest
      exact ⟨(name, a) :: entries, ⟨_, entries, ⟨hname, ha⟩, hentries, rfl⟩, rfl⟩
    · rintro ⟨_, ⟨e, entries, ⟨hname, ha⟩, hentries, rfl⟩, rfl⟩
      exact ⟨_, ⟨e.1, hname, e.2, ha, rfl⟩, ih.2 ⟨entries, hentries, rfl⟩⟩

/-- Every member is read; a name stands where it is first among them and has the value that is last
under it. -/
theorem writeMembers?_eq_some_iff : writeMembers? read? members = some map ↔
    ∃ entries, List.Forall₂ (IsReadAs read?) members entries ∧
      map.names = (Entries.names entries).eraseDups ∧
      ∀ name, map.find? name = Entries.find? entries.reverse name := by
  simp only [writeMembers?, foldlM_insert_eq_some_iff, ← OrderedMap.eq_ofList_iff]
  rfl

/-- Only an object is read as a map. -/
theorem mapOfJson?_eq_some_iff : mapOfJson? read? v = some map ↔
    ∃ members, v = .object members ∧ writeMembers? read? members = some map := by
  cases v with
  | object members => simp [mapOfJson?_object]
  | _ => simp [mapOfJson?]

/-- Of a member, a map depends on what is read from it. -/
theorem mapOfJson?_congr_member (h : read? v = read? v') :
    mapOfJson? read? (.object (before ++ (key, v) :: after)) =
      mapOfJson? read? (.object (before ++ (key, v') :: after)) := by
  simp only [mapOfJson?_object, writeMembers?, List.foldlM_append, List.foldlM_cons, h]

theorem mapOfJson?_eq_none_of_mem (hmem : (key, v) ∈ members) (h : read? v = none) :
    mapOfJson? read? (.object members) = none := by
  obtain ⟨before, after, rfl⟩ := List.append_of_mem hmem
  rw [mapOfJson?_object, writeMembers?]
  simp [List.foldlM_append, List.foldlM_cons, h]

end Map

/-! ### Incidental changes -/

/-- The members of an object are rearranged: their order is changed, or there is one more under a
key that does not count. -/
inductive Rearranges (keysOf : List (Option String × Json) → List String) (mayHold : Json → Bool) :
    Json → Json → Prop
  | permute {members members' : List (Option String × Json)} (h : members.Perm members') :
      Rearranges keysOf mayHold (.object members) (.object members')
  | insert {before after : List (Option String × Json)} {key : String} {v : Json}
      (hkey : key ∉ keysOf (before ++ after)) (hv : mayHold v) :
      Rearranges keysOf mayHold (.object (before ++ after))
        (.object (before ++ (some key, v) :: after))

/-- One member of an object is changed. -/
inductive InMember (change : Json → Json → Prop) : Json → Json → Prop
  | intro {before after : List (Option String × Json)} {key : Option String} {v v' : Json}
      (h : change v v') :
      InMember change (.object (before ++ (key, v) :: after))
        (.object (before ++ (key, v') :: after))

/-- A column is changed in its structure only. -/
def RestructuresColumn : Json → Json → Prop := Rearranges columnKeys isBearable

/-- A table is changed in its structure only: its keys are rearranged, it becomes the array of its
parts, or one of its columns is changed. -/
inductive RestructuresTable : Json → Json → Prop
  | keys {t t' : Json} (h : Rearranges (fun _ => tableKeys) (fun _ => true) t t') :
      RestructuresTable t t'
  | parts {members : List (Option String × Json)} {columns : Json} {marker : Option Json}
      (h : HasParts (.object members) columns marker) :
      RestructuresTable (.object members) (.array (columns :: marker.toList))
  | columns {before after : List (Option String × Json)} {columns columns' : Json}
      (h : InMember RestructuresColumn columns columns') :
      RestructuresTable (.object (before ++ (some "columns", columns) :: after))
        (.object (before ++ (some "columns", columns') :: after))
  | columnsInArray {columns columns' : Json} {rest : List Json}
      (h : InMember RestructuresColumn columns columns') :
      RestructuresTable (.array (columns :: rest)) (.array (columns' :: rest))

/-- Two documents of schemas differ in their structure only: any number of changes, each of them
made or taken back in one of the tables, leads from one to the other. -/
def SameContent : Json → Json → Prop := Relation.EqvGen (InMember RestructuresTable)

section Changes

variable {α : Type} {read? : Json → Option α} {change : Json → Json → Prop}
variable {v v' t t' document document' : Json}

theorem RestructuresColumn.ofJson?_eq (h : RestructuresColumn v v') :
    Column.ofJson? v = Column.ofJson? v' := by
  cases h with
  | permute h => exact Column.ofJson?_congr (.of_perm h) h.all_eq
  | insert hkey hv => exact Column.ofJson?_congr (.insert hkey) (by simp [areBearable, hv])

theorem InMember.mapOfJson?_eq (h : InMember change v v')
    (hread : ∀ v v', change v v' → read? v = read? v') :
    mapOfJson? read? v = mapOfJson? read? v' := by
  cases h with
  | intro h => exact mapOfJson?_congr_member (hread _ _ h)

theorem RestructuresTable.ofJson?_eq (h : RestructuresTable t t') :
    Table.ofJson? t = Table.ofJson? t' := by
  cases h with
  | keys h =>
    cases h with
    | permute h => exact Table.ofJson?_congr (.of_perm h)
    | insert hkey _ => exact Table.ofJson?_congr (.insert hkey)
  | parts h =>
    refine Table.ofJson?_eq_of_hasParts_iff fun columns marker => ⟨fun h' => ?_, fun h' => ?_⟩
    · obtain ⟨rfl, rfl⟩ := h.unique h'
      exact .array _ _
    · obtain ⟨rfl, rfl⟩ := (HasParts.array _ _).unique h'
      exact h
  | columns h =>
    exact Table.ofJson?_congr_columns (h.mapOfJson?_eq fun _ _ => RestructuresColumn.ofJson?_eq)
  | @columnsInArray columns columns' rest h =>
    have hcolumns := h.mapOfJson?_eq fun _ _ => RestructuresColumn.ofJson?_eq
    rcases rest with _ | ⟨marker, _ | _⟩ <;> simp [Table.ofJson?, hcolumns]

/-- One change after the other, the schema of the document stays. -/
theorem SameContent.ofJson?_eq (h : SameContent document document') :
    Schema.ofJson? document = Schema.ofJson? document' := by
  induction h with
  | rel document document' h =>
    rw [Schema.ofJson?, Schema.ofJson?, h.mapOfJson?_eq fun _ _ => RestructuresTable.ofJson?_eq]
  | refl => rfl
  | symm _ _ _ ih => exact ih.symm
  | trans _ _ _ _ _ ih ih' => exact ih.trans ih'

end Changes

/-! ### Repeated keys -/

/-- A key that counts is repeated in an object. -/
def RepeatsKey (keysOf : List (Option String × Json) → List String) : Json → Prop
  | .object members => ∃ key ∈ keysOf members, 2 ≤ (valuesUnder members key).length
  | _ => False

/-- Some member of an object is such. -/
def HasMember (p : Json → Prop) : Json → Prop
  | .object members => ∃ m ∈ members, p m.2
  | _ => False

/-- These are columns of a table, or stand where they are expected. -/
inductive HasColumns : Json → Json → Prop
  | object {members : List (Option String × Json)} {columns : Json}
      (h : (some "columns", columns) ∈ members) : HasColumns (.object members) columns
  | array (columns : Json) (rest : List Json) : HasColumns (.array (columns :: rest)) columns

/-- A key that counts is repeated in a table or in one of its columns. -/
def RepeatsKeyInTable (t : Json) : Prop :=
  RepeatsKey (fun _ => tableKeys) t ∨
    ∃ columns, HasColumns t columns ∧ HasMember (RepeatsKey columnKeys) columns

section Repeated

variable {α : Type} {read? : Json → Option α} {p : Json → Prop}
variable {v t columns document : Json} {marker : Option Json}

theorem HasMember.mapOfJson?_eq_none (h : HasMember p v) (hread : ∀ v, p v → read? v = none) :
    mapOfJson? read? v = none := by
  cases v with
  | object members =>
    obtain ⟨m, hmem, hp⟩ := h
    exact mapOfJson?_eq_none_of_mem hmem (hread _ hp)
  | _ => exact h.elim

theorem RepeatsKey.columnOfJson?_eq_none (h : RepeatsKey columnKeys v) :
    Column.ofJson? v = none := by
  cases v with
  | object members =>
    obtain ⟨key, hkey, hrepeated⟩ := h
    exact Column.ofJson?_eq_none_of_repeated hkey hrepeated
  | _ => exact h.elim

theorem HasColumns.eq {columns' : Json} (h : HasColumns t columns)
    (hparts : HasParts t columns' marker) : columns = columns' := by
  cases h with
  | object hmem => exact hparts.columns_eq hmem
  | array =>
    cases hparts
    rfl

theorem RepeatsKeyInTable.ofJson?_eq_none (h : RepeatsKeyInTable t) : Table.ofJson? t = none := by
  refine Option.eq_none_iff_forall_not_mem.2 fun table hread => ?_
  obtain ⟨columns, marker, hparts, hcolumns, -⟩ := Table.ofJson?_eq_some_iff.1 hread
  rcases h with h | ⟨columns', hhas, h⟩
  · cases hparts with
    | object _ hcolumns hmarker =>
      obtain ⟨key, hkey, hrepeated⟩ := h
      simp only [tableKeys, List.mem_cons, List.not_mem_nil, or_false] at hkey
      rcases hkey with rfl | rfl
      · simp [hcolumns] at hrepeated
      · cases marker <;> simp [hmarker] at hrepeated
    | array => exact h
  · obtain rfl := hhas.eq hparts
    rw [h.mapOfJson?_eq_none fun _ => RepeatsKey.columnOfJson?_eq_none] at hcolumns
    cases hcolumns

end Repeated

/-! ### Reading a text -/

/-- The schema of a text is that of its document. -/
theorem Schema.ofText?_of_parse? {text : String} {document : Json}
    (h : Json.parse? text = some document) : Schema.ofText? text = Schema.ofJson? document := by
  rw [ofText?, h]
  rfl

/-- The schema of a text depends on what its document says and not on how it is laid out. The order
of the keys of a table or column does not count, nor do keys that are not known there, and a table
may as well be the array of its parts; a known key that is repeated makes the text unreadable.
Tables and columns are written into a map one after the other, each of them being read. -/
theorem Schema.ofText?_ignores_structure :
    (∀ text text' document document', Json.parse? text = some document →
      Json.parse? text' = some document' → SameContent document document' →
        Schema.ofText? text = Schema.ofText? text') ∧
    (∀ text document, Json.parse? text = some document → HasMember RepeatsKeyInTable document →
      Schema.ofText? text = none) ∧
    (∀ text schema, Schema.ofText? text = some schema ↔
      ∃ members, Json.parse? text = some (.object members) ∧
        writeMembers? Table.ofJson? members = some schema.tables) ∧
    (∀ t table, Table.ofJson? t = some table ↔
      ∃ members marker, HasParts t (.object members) marker ∧
        writeMembers? Column.ofJson? members = some table.columns ∧
        markerOfPart? marker = some table.renamedFrom) ∧
    ∀ (α : Type) (read? : Json → Option α) members map, writeMembers? read? members = some map ↔
      ∃ entries, List.Forall₂ (IsReadAs read?) members entries ∧
        map.names = (Entries.names entries).eraseDups ∧
        ∀ name, map.find? name = Entries.find? entries.reverse name := by
  refine ⟨?_, ?_, ?_, ?_, fun _ _ _ _ => writeMembers?_eq_some_iff⟩
  · intro text text' document document' hparse hparse' hsame
    rw [ofText?_of_parse? hparse, ofText?_of_parse? hparse', hsame.ofJson?_eq]
  · intro text document hparse hrepeats
    rw [ofText?_of_parse? hparse, ofJson?,
      hrepeats.mapOfJson?_eq_none fun _ => RepeatsKeyInTable.ofJson?_eq_none]
    rfl
  · intro text schema
    obtain ⟨tables⟩ := schema
    simp only [ofText?, ofJson?, Option.bind_eq_bind, Option.bind_eq_some_iff, Option.pure_def,
      Option.some.injEq, mapOfJson?_eq_some_iff]
    constructor
    · rintro ⟨_, hparse, _, ⟨members, rfl, hread⟩, ⟨⟩⟩
      exact ⟨members, hparse, hread⟩
    · rintro ⟨members, hparse, hread⟩
      exact ⟨_, hparse, tables, ⟨members, rfl, hread⟩, rfl⟩
  · intro t table
    simp only [Table.ofJson?_eq_some_iff, mapOfJson?_eq_some_iff]
    constructor
    · rintro ⟨_, marker, hparts, ⟨members, rfl, hread⟩, hmarker⟩
      exact ⟨members, marker, hparts, hread, hmarker⟩
    · rintro ⟨members, marker, hparts, hread, hmarker⟩
      exact ⟨_, marker, hparts, ⟨members, rfl, hread⟩, hmarker⟩

/-- A table as the array of its parts, whose one column has its keys in another order and one that
is not known there, and the same with a key twice. -/
theorem Schema.ofText?_array_of_parts :
    Schema.ofText? (ofMembers [("t", ofMembers [("columns", ofMembers [("c",
        ofMembers [("kind", ofText "alias"), ("target", ofText "d")])])])]).pretty =
      Schema.ofText? (ofMembers [("t", .array [ofMembers [("c",
        ofMembers [("target", ofText "d"), ("x", .null), ("kind", ofText "alias")])]])]).pretty ∧
    Schema.ofText? (ofMembers [("t", .array [ofMembers [("c",
      ofMembers [("target", ofText "d"), ("kind", ofText "alias"), ("target", .null)])]])]).pretty =
        none := by
  have hparts : InMember RestructuresTable
      (ofMembers [("t", ofMembers [("columns", ofMembers [("c",
        ofMembers [("kind", ofText "alias"), ("target", ofText "d")])])])])
      (ofMembers [("t", .array [ofMembers [("c",
        ofMembers [("kind", ofText "alias"), ("target", ofText "d")])]])]) := by
    refine @InMember.intro _ [] [] _ _ _ (@RestructuresTable.parts _ _ none (.object ?_ ?_ ?_))
    all_goals rfl
  have hpermute : InMember RestructuresTable
      (ofMembers [("t", .array [ofMembers [("c",
        ofMembers [("kind", ofText "alias"), ("target", ofText "d")])]])])
      (ofMembers [("t", .array [ofMembers [("c",
        ofMembers [("target", ofText "d"), ("kind", ofText "alias")])]])]) :=
    @InMember.intro _ [] [] _ _ _ (.columnsInArray (@InMember.intro _ [] [] _ _ _
      (.permute (.swap _ _ _))))
  have hinsert : InMember RestructuresTable
      (ofMembers [("t", .array [ofMembers [("c",
        ofMembers [("target", ofText "d"), ("kind", ofText "alias")])]])])
      (ofMembers [("t", .array [ofMembers [("c",
        ofMembers [("target", ofText "d"), ("x", .null), ("kind", ofText "alias")])]])]) :=
    @InMember.intro _ [] [] _ _ _ (.columnsInArray (@InMember.intro _ [] [] _ _ _
      (@Rearranges.insert _ _ [(some "target", ofText "d")] [(some "kind", ofText "alias")] _ _
        (by decide) (by decide))))
  have hrepeats : HasMember RepeatsKeyInTable (ofMembers [("t", .array [ofMembers [("c",
      ofMembers [("target", ofText "d"), ("kind", ofText "alias"), ("target", .null)])]])]) :=
    ⟨_, .head _, .inr ⟨_, .array _ _, _, .head _, "target", by decide, by decide⟩⟩
  refine ⟨Schema.ofText?_ignores_structure.1 _ _ _ _ (Json.parse?_pretty ?_)
      (Json.parse?_pretty ?_) (.trans _ _ _ (.rel _ _ hparts) (.trans _ _ _ (.rel _ _ hpermute)
        (.rel _ _ hinsert))),
    Schema.ofText?_ignores_structure.2.1 _ _ (Json.parse?_pretty ?_) hrepeats⟩
  all_goals
    simp [ofMembers, ofText, Json.IsReadable, Json.MembersAreReadable, Json.ElementsAreReadable]

end Schemata
