import Schemata.Proofs.Inspection
import Schemata.Proofs.Schema.Validity
import Schemata.Text.Alphabetic

/-!
# What validation reports

Validation asks a schema for one thing after the other. Here the things are listed as such, each
with what it means for a schema to meet it and with the violation that is reported of a schema that
does not; none of that depends on the order in which they are asked for. Validation then inspects
the list: it accepts a schema that meets everything, and otherwise reports the first thing that the
schema does not meet.

The report of a requirement may name what was found instead of what was asked for, such as the kind
of a field that is not stored. Those that come before it make sure that there is something to name.

## Main definitions

* `IsPlainName`: names of letters and underscores
* `Requirement`, `Requirement.Met`: a thing that is asked for, and what it means
* `Requirement.Reports`: the violation of a schema that does not meet it
* `Schema.requirements`, `Schema.Asked`: all requirements in order, and what asking for them
  comes to

## Main results

* `Schema.asked_requirements`: validation asks for the requirements
* `Schema.validate_reports_first`: what validation accepts, and what it reports of other schemas
-/

namespace Schemata

/-- The name is made of ASCII letters and underscores, and of one at least. -/
def IsPlainName (name : String) : Prop :=
  name ≠ "" ∧ ∀ c ∈ name.toList, 'A' ≤ c ∧ c ≤ 'Z' ∨ 'a' ≤ c ∧ c ≤ 'z' ∨ c = '_'

theorem isIdentifier_iff {name : String} : isIdentifier name ↔ IsPlainName name := by
  have hletter (c : Char) : (c.isAlpha || c == '_') = true ↔
      'A' ≤ c ∧ c ≤ 'Z' ∨ 'a' ≤ c ∧ c ≤ 'z' ∨ c = '_' := by
    rw [Bool.or_eq_true, Text.isAlpha_iff, beq_iff_eq, or_assoc]
    exact Iff.rfl
  simp only [isIdentifier, IsPlainName, Bool.and_eq_true, Bool.not_eq_true', List.all_eq_true,
    hletter, List.isEmpty_eq_false_iff, ne_eq, String.toList_eq_nil_iff]

/-- A thing that validation asks of a schema. -/
inductive Requirement
  /-- A table or column has a plain name. -/
  | plainName (name : String)
  /-- A relation starts in the table that declares it. -/
  | startsAtHome (name source : ColumnRef)
  /-- The table on a side of a relation exists. -/
  | hasTable (name : ColumnRef) (side : Endpoint) (target : ColumnRef)
  /-- The column on a side of a relation exists. -/
  | hasColumn (name : ColumnRef) (side : Endpoint) (target : ColumnRef)
  /-- The column on a side of a relation is stored. -/
  | isStored (name : ColumnRef) (side : Endpoint) (target : ColumnRef)
  /-- The columns of a relation have the same SQL type. -/
  | sameType (name source destination : ColumnRef)
  /-- The column that an alias stands for exists. -/
  | hasTarget (name : ColumnRef) (target : String)

namespace Requirement

/-- The schema is as it is asked to be. -/
def Met (schema : Schema) : Requirement → Prop
  | plainName name => IsPlainName name
  | startsAtHome name source => source.table = name.table
  | hasTable _ _ target => target.table ∈ schema.tables.names
  | hasColumn _ _ target => ∃ field, schema.field? target = some field
  | isStored _ _ target => ∃ a, schema.field? target = some (.atom a)
  | sameType _ source destination => ∃ a b, schema.field? source = some (.atom a) ∧
      schema.field? destination = some (.atom b) ∧ a.sqlType = b.sqlType
  | hasTarget name target => ∃ field, schema.field? ⟨name.table, target⟩ = some field

/-- The violation is what is reported of a schema that is not as it is asked to be. -/
inductive Reports (schema : Schema) : Requirement → Violation → Prop
  | plainName {name : String} : Reports schema (.plainName name) (.invalidIdentifier name)
  | startsAtHome {name source : ColumnRef} :
      Reports schema (.startsAtHome name source) (.sourceMismatch name source.table)
  | hasTable {name target : ColumnRef} {side : Endpoint} :
      Reports schema (.hasTable name side target) (.tableNotFound name side target.table)
  | hasColumn {name target : ColumnRef} {side : Endpoint} :
      Reports schema (.hasColumn name side target) (.columnNotFound name side target)
  /-- The report names the kind of the column. -/
  | isStored {name target : ColumnRef} {side : Endpoint} {field : Field}
      (hfield : schema.field? target = some field) :
      Reports schema (.isStored name side target) (.notAtom name side target field.kind)
  /-- The report names the two types. -/
  | sameType {name source destination : ColumnRef} {a b : Atom}
      (hsource : schema.field? source = some (.atom a))
      (hdestination : schema.field? destination = some (.atom b)) :
      Reports schema (.sameType name source destination)
        (.typeMismatch name source a.sqlType destination b.sqlType)
  | hasTarget {name : ColumnRef} {target : String} :
      Reports schema (.hasTarget name target) (.danglingAlias name target)

/-- There is one report of a requirement only. -/
theorem Reports.unique {schema : Schema} {requirement : Requirement} {violation violation' : Violation}
    (h : requirement.Reports schema violation) (h' : requirement.Reports schema violation') :
    violation = violation' := by
  cases h with
  | isStored hfield =>
    cases h' with
    | isStored hfield' => rw [Option.some.inj (hfield.symm.trans hfield')]
  | sameType hsource hdestination =>
    cases h' with
    | sameType hsource' hdestination' =>
      rw [Field.atom.inj (Option.some.inj (hsource.symm.trans hsource')),
        Field.atom.inj (Option.some.inj (hdestination.symm.trans hdestination'))]
  | plainName | startsAtHome | hasTable | hasColumn | hasTarget => cases h'; rfl

end Requirement

/-- What is asked of the column on a side of a relation. -/
def Endpoint.requirements (side : Endpoint) (name target : ColumnRef) : List Requirement :=
  [.hasTable name side target, .hasColumn name side target, .isStored name side target]

/-- What is asked of a relation: the table that it starts in, its source, its destination, and
their types. -/
def Relation.requirements (relation : Relation) (name : ColumnRef) : List Requirement :=
  .startsAtHome name relation.source ::
    (Endpoint.source.requirements name relation.source ++
      (Endpoint.destination.requirements name relation.destination ++
        [.sameType name relation.source relation.destination]))

/-- What is asked of a field. -/
def Field.requirements (name : ColumnRef) : Field → List Requirement
  | .relation r => r.requirements name
  | .aliasTo target => [.hasTarget name target]
  | .atom _ | .index _ | .constraint _ => []

/-- What is asked of a schema: of each table its name, and then for each column of it the name
and the field. -/
def Schema.requirements (schema : Schema) : List Requirement :=
  schema.tables.entries.flatMap fun (tableName, table) =>
    .plainName tableName :: table.columns.entries.flatMap fun (columnName, column) =>
      .plainName columnName :: column.field.requirements ⟨tableName, columnName⟩

/-- Asking for the requirements comes to the outcome. -/
def Schema.Asked (schema : Schema) : List Requirement → Option Violation → Prop :=
  Inspects (Requirement.Met schema) (Requirement.Reports schema)

namespace Schema

variable {schema : Schema} {table : Table} {name : ColumnRef}

/-! ### The single checks -/

theorem asked_nameCheck (name : String) :
    schema.Asked [.plainName name] (nameCheck name) := by
  by_cases h : isIdentifier name
  · rw [nameCheck, if_pos h]
    exact .met (isIdentifier_iff.1 h) .nil
  · rw [nameCheck, if_neg h]
    exact .unmet (fun hplain => h (isIdentifier_iff.2 hplain)) .plainName

/-- A stored column is found where all that is asked of it is met. -/
theorem endpointAtom_cases (side : Endpoint) (name target : ColumnRef) :
    (∃ violation, schema.endpointAtom name side target = .error violation ∧
      ∀ more, schema.Asked (side.requirements name target ++ more) (some violation)) ∨
    ∃ a, schema.endpointAtom name side target = .ok a ∧ schema.field? target = some (.atom a) ∧
      schema.Asked (side.requirements name target) none := by
  -- Each of the three is asked for once the one before it is met, as the look-ups are nested.
  cases htable : schema.table? target.table with
  | none =>
    refine .inl ⟨.tableNotFound name side target.table, by simp only [endpointAtom, htable],
      fun more => .unmet (fun hmem => ?_) .hasTable⟩
    exact OrderedMap.find?_eq_none_iff.1 htable hmem
  | some table =>
    have hmem : target.table ∈ schema.tables.names := OrderedMap.mem_names_of_find? htable
    have hfind : schema.field? target = table.field? target.column :=
      field?_of_find? htable target.column
    cases hfield : table.field? target.column with
    | none =>
      refine .inl ⟨.columnNotFound name side target, by simp only [endpointAtom, htable, hfield],
        fun more => .met hmem (.unmet (fun hmet => ?_) .hasColumn)⟩
      obtain ⟨field, hsome⟩ := hmet
      rw [hfind, hfield] at hsome
      cases hsome
    | some field =>
      rw [hfield] at hfind
      by_cases hatom : ∃ a, field = .atom a
      · obtain ⟨a, rfl⟩ := hatom
        exact .inr ⟨a, by simp only [endpointAtom, htable, hfield], hfind,
          .met hmem (.met ⟨_, hfind⟩ (.met ⟨a, hfind⟩ .nil))⟩
      · refine .inl ⟨.notAtom name side target field.kind, ?_, fun more =>
          .met hmem (.met ⟨_, hfind⟩ (.unmet (fun hmet => ?_) (.isStored hfind)))⟩
        · cases field with
          | atom a => exact absurd ⟨a, rfl⟩ hatom
          | relation _ | aliasTo _ | index _ | constraint _ =>
            simp only [endpointAtom, htable, hfield]
        · obtain ⟨a, ha⟩ := hmet
          exact hatom ⟨a, Option.some.inj (hfind.symm.trans ha)⟩

theorem asked_relationCheck (name : ColumnRef) (relation : Relation) :
    schema.Asked (relation.requirements name) (schema.relationCheck name relation) := by
  unfold relationCheck
  by_cases htable : relation.source.table = name.table
  swap
  · rw [if_pos htable]
    exact .unmet htable .startsAtHome
  rw [if_neg (not_not_intro htable)]
  refine .met htable ?_
  -- The source is asked for first; a fault of it leaves the destination out.
  obtain ⟨violation, herror, hsource⟩ | ⟨a, hok, ha, hsource⟩ :=
    schema.endpointAtom_cases .source name relation.source
  · rw [herror]
    exact hsource _
  simp only [hok]
  refine hsource.append_of_none ?_
  obtain ⟨violation, herror, hdestination⟩ | ⟨b, hok, hb, hdestination⟩ :=
    schema.endpointAtom_cases .destination name relation.destination
  · simp only [herror]
    exact hdestination _
  simp only [hok]
  refine hdestination.append_of_none ?_
  -- Both columns are stored, and the types compared are those of the two.
  by_cases htype : a.sqlType = b.sqlType
  · rw [if_neg (not_not_intro htype)]
    exact .met ⟨a, b, ha, hb, htype⟩ .nil
  · rw [if_pos htype]
    refine .unmet (fun hmet => htype ?_) (.sameType ha hb)
    obtain ⟨a', b', ha', hb', htype'⟩ := hmet
    rwa [Field.atom.inj (Option.some.inj (ha.symm.trans ha')),
      Field.atom.inj (Option.some.inj (hb.symm.trans hb'))]

/-- An alias is looked up in its own table, which the schema has under the name in the report. -/
theorem asked_aliasCheck (htable : schema.table? name.table = some table) (target : String) :
    schema.Asked [.hasTarget name target] (aliasCheck table name target) := by
  have hmet : (Requirement.hasTarget name target).Met schema ↔ table.columns.contains target := by
    rw [Requirement.Met, field?_of_find? htable, ← Option.ne_none_iff_exists', ne_eq,
      Table.field?_eq_none_iff, not_not, OrderedMap.contains_iff]
  by_cases htarget : table.columns.contains target
  · rw [aliasCheck, if_pos htarget]
    exact .met (hmet.2 htarget) .nil
  · rw [aliasCheck, if_neg htarget]
    exact .unmet (fun h => htarget (hmet.1 h)) .hasTarget

theorem asked_fieldCheck (htable : schema.table? name.table = some table) (field : Field) :
    schema.Asked (field.requirements name) (schema.fieldCheck table name field) := by
  cases field with
  | relation relation => exact asked_relationCheck name relation
  | aliasTo target => exact asked_aliasCheck htable target
  | atom _ | index _ | constraint _ => exact .nil

/-! ### All of them -/

/-- The first violation, found table by table and column by column. -/
theorem violation?_eq (schema : Schema) : schema.violation? =
    schema.tables.entries.findSome? fun (tableName, table) =>
      (nameCheck tableName).or (table.columns.entries.findSome? fun (columnName, column) =>
        (nameCheck columnName).or
          (schema.fieldCheck table ⟨tableName, columnName⟩ column.field)) := by
  have hcons (outcome : Option Violation) (rest : List (Option Violation)) :
      (outcome :: rest).findSome? id = outcome.or (rest.findSome? id) := by
    cases outcome <;> rfl
  have hflatMap {κ : Type} (parts : List κ) (outcomesOf : κ → List (Option Violation)) :
      (parts.flatMap outcomesOf).findSome? id =
        parts.findSome? fun part => (outcomesOf part).findSome? id := by
    rw [← List.head?_filterMap, List.filterMap_flatMap, List.head?_flatMap]
    simp only [List.head?_filterMap]
  simp only [violation?, checks, hflatMap, hcons, List.findSome?_nil, Option.or_none]

/-- Validation inspects the requirements in their order. -/
theorem asked_requirements (schema : Schema) :
    schema.Asked schema.requirements schema.violation? := by
  rw [violation?_eq]
  refine .flatMap fun ⟨tableName, table⟩ htable => ?_
  refine (asked_nameCheck tableName).append (.flatMap fun ⟨columnName, column⟩ _ => ?_)
  refine (asked_nameCheck columnName).append (asked_fieldCheck ?_ column.field)
  exact OrderedMap.mem_entries_iff.1 htable

theorem validate_eq_error_iff {violation : Violation} :
    schema.validate = .error violation ↔ schema.violation? = some violation := by
  unfold validate
  cases schema.violation? with
  | none => simp
  | some found => simp

/-- Validation accepts exactly the schemas in which names are plain, relations join stored columns
of one type from the table that declares them, and aliases name columns of their table. Of any
other schema it reports the first requirement that is not met, when all before it are. -/
theorem validate_reports_first (schema : Schema) :
    (schema.validate = .ok () ↔
      (∀ name ∈ schema.tables.names, IsPlainName name) ∧
      ∀ ref field, schema.field? ref = some field → IsPlainName ref.column ∧
        (∀ relation, field = .relation relation → schema.Joins ref relation) ∧
        ∀ target, field = .aliasTo target →
          ∃ found, schema.field? ⟨ref.table, target⟩ = some found) ∧
    ∀ violation, schema.validate = .error violation ↔
      ∃ before requirement after, schema.requirements = before ++ requirement :: after ∧
        (∀ earlier ∈ before, earlier.Met schema) ∧ ¬requirement.Met schema ∧
          requirement.Reports schema violation := by
  constructor
  · rw [validate_eq_ok_iff_isValid]
    constructor
    · intro h
      refine ⟨fun name hname => ?_, fun ref field hfield => ⟨?_, ?_, ?_⟩⟩
      · obtain ⟨table, htable⟩ := OrderedMap.mem_names_iff.1 hname
        exact isIdentifier_iff.1 (h.table_name htable)
      · exact isIdentifier_iff.1 (h.column_name hfield)
      · rintro relation rfl
        exact h.joins hfield
      · rintro target rfl
        exact Option.isSome_iff_exists.1 (h.target hfield)
    · rintro ⟨htables, hfields⟩
      refine ⟨fun htable => ?_, fun hfield => ?_, fun hfield => ?_, fun hfield => ?_⟩
      · exact isIdentifier_iff.2 (htables _ (OrderedMap.mem_names_of_find? htable))
      · exact isIdentifier_iff.2 (hfields _ _ hfield).1
      · exact (hfields _ _ hfield).2.1 _ rfl
      · exact Option.isSome_iff_exists.2 ((hfields _ _ hfield).2.2 _ rfl)
  · intro violation
    rw [validate_eq_error_iff]
    exact schema.asked_requirements.eq_some_iff Requirement.Reports.unique

end Schema

end Schemata
