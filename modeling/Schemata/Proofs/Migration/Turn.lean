import Mathlib.Data.List.Nodup
import Mathlib.Data.List.Pairwise
import Schemata.Migration.Change
import Schemata.Proofs.Locality

/-!
# The turns of a traversal

The steps from one map of entities to the next fall into *turns*, one for each entity that is not
passed over: it is created, moved to a new name and changed there, removed, or kept. Two turns
never speak of the same name, so what becomes of a name is decided by one turn alone. Only reserved
names that no marker mentions are passed over, and names that stand in neither map.

There are turns for everything exactly if every marker of a new entity can be honoured.

## Main definitions

* `Arrives`, `Departs`, `Moves`: the names that are new, gone, and new with a marker
* `MarkersHonoured`: each marker of a new name takes a name that is gone, and none takes it twice
* `Turn`, `Turn.steps`, `Turn.names`: a turn, its steps, and the names it speaks of
* `turns`: the turns from one map to the next

## Main results

* `fault_between_eq_none_iff`: the traversal comes to its end exactly if the markers are honoured
* `steps_between`: its steps are those of the turns
* `independent_turns`: no name is spoken of in two turns
* `mem_turns_iff`: which turns there are
* `create_or_keep_of_mem_turns`: where no name is lost, every turn creates or keeps
* `untouched_iff`: the names that no turn speaks of
* `forall_eq_iff_of_turns`: when turn by turn all comes to be what it is to be
-/

namespace Schemata.Changes

universe u

variable {α : Type u}

/-! ### Names that are new, gone and moved -/

/-- The name is new: in the next map and not in the previous one. -/
def Arrives (prev next : OrderedMap α) (name : String) : Prop :=
  isReserved name = false ∧ name ∈ next.names ∧ name ∉ prev.names

/-- The name is gone: in the previous map and not in the next one. -/
def Departs (prev next : OrderedMap α) (name : String) : Prop :=
  isReserved name = false ∧ name ∈ prev.names ∧ name ∉ next.names

/-- A new name has the first name as its marker. -/
def Moves (marker : α → Option String) (prev next : OrderedMap α) (source target : String) : Prop :=
  Arrives prev next target ∧ (next.find? target).bind marker = some source

instance {prev next : OrderedMap α} {name : String} : Decidable (Arrives prev next name) :=
  inferInstanceAs (Decidable (_ ∧ _ ∧ _))

instance {marker : α → Option String} {prev next : OrderedMap α} {source target : String} :
    Decidable (Moves marker prev next source target) :=
  inferInstanceAs (Decidable (_ ∧ _))

/-- Each marker of a new name takes a name that was there before and is gone, and no two take the
same one. -/
structure MarkersHonoured (marker : α → Option String) (prev next : OrderedMap α) : Prop where
  before {source target : String} : Moves marker prev next source target → source ∈ prev.names
  gone {source target : String} : Moves marker prev next source target → source ∉ next.names
  once {source target other : String} : Moves marker prev next source target →
    Moves marker prev next source other → target = other

/-! ### Turns -/

/-- What is done about one entity. -/
inductive Turn (α : Type u)
  /-- The entity is new. -/
  | create (name : String) (next : α)
  /-- The entity gets another name and is changed there. -/
  | move (source target : String) (prev next : α)
  /-- The entity is gone. -/
  | remove (name : String) (prev : α)
  /-- The entity keeps its name and is changed. -/
  | keep (name : String) (prev next : α)

namespace Turn

/-- The steps of a turn. -/
def steps : Turn α → List (Change α)
  | create name next => [.create name next]
  | move source target prev next => [.rename source target prev, .change target prev next]
  | remove name prev => [.remove name prev]
  | keep name prev next => [.change name prev next]

/-- The names that a turn speaks of. -/
def names : Turn α → List String
  | create name _ | remove name _ | keep name _ _ => [name]
  | move source target _ _ => [source, target]

/-- The old name that a turn takes. -/
def source? : Turn α → Option String
  | move source _ _ _ => some source
  | _ => none

/-- The turn of a new entity; none if its marker names nothing. -/
def arrival? (marker : α → Option String) (prev : OrderedMap α) (e : String × α) :
    Option (Turn α) :=
  match marker e.2 with
  | none => some (.create e.1 e.2)
  | some source => (prev.find? source).map fun before => .move source e.1 before e.2

/-- The turn does what the two maps and the markers ask for the entity. -/
def Fits (marker : α → Option String) (prev next : OrderedMap α) : Turn α → Prop
  | create name entity =>
      Arrives prev next name ∧ next.find? name = some entity ∧ marker entity = none
  | move source target before entity =>
      Arrives prev next target ∧ next.find? target = some entity ∧ marker entity = some source ∧
        prev.find? source = some before
  | remove name before =>
      Departs prev next name ∧ prev.find? name = some before ∧
        ∀ target, ¬Moves marker prev next name target
  | keep name before entity =>
      isReserved name = false ∧ prev.find? name = some before ∧ next.find? name = some entity

end Turn

/-- The turns of the new entities. -/
def arrivals (marker : α → Option String) (prev next : OrderedMap α) : List (Turn α) :=
  (select next (NameDiff.between prev.names next.names).added).filterMap (Turn.arrival? marker prev)

/-- The turns of the entities that are gone and have not been moved. -/
def departures (marker : α → Option String) (prev next : OrderedMap α) : List (Turn α) :=
  ((select prev (NameDiff.between prev.names next.names).removed).filter fun (name, _) =>
    !((arrivals marker prev next).filterMap Turn.source?).contains name).map
      fun (name, entity) => .remove name entity

/-- The turns of the entities that keep their names. -/
def stays (prev next : OrderedMap α) : List (Turn α) :=
  (select next (NameDiff.between prev.names next.names).common).filterMap fun (name, entity) =>
    (prev.find? name).map fun before => .keep name before entity

/-- The turns from one map to the next. -/
def turns (marker : α → Option String) (prev next : OrderedMap α) : List (Turn α) :=
  arrivals marker prev next ++ departures marker prev next ++ stays prev next

section Traversal

variable {marker : α → Option String} {prev next : OrderedMap α} {name source target : String}
variable {before entity : α}

theorem arrives_iff_mem_added :
    name ∈ (NameDiff.between prev.names next.names).added ↔ Arrives prev next name :=
  NameDiff.mem_added_iff

theorem departs_iff_mem_removed :
    name ∈ (NameDiff.between prev.names next.names).removed ↔ Departs prev next name :=
  NameDiff.mem_removed_iff

/-- A selected entity is the one of its name, and the name is among those selected. -/
theorem mem_select_iff {map : OrderedMap α} {names : List String} {e : String × α} :
    e ∈ select map names ↔ e.1 ∈ names ∧ map.find? e.1 = some e.2 := by
  obtain ⟨name, entity⟩ := e
  simp only [select, List.mem_filterMap, Option.map_eq_some_iff, Prod.mk.injEq]
  constructor
  · rintro ⟨n, hn, a, ha, rfl, rfl⟩
    exact ⟨hn, ha⟩
  · rintro ⟨hn, ha⟩
    exact ⟨name, hn, entity, ha, rfl, rfl⟩

/-- Names that are listed once are selected once. -/
theorem pairwise_select {map : OrderedMap α} {names : List String} (hnames : names.Nodup) :
    (select map names).Pairwise fun e e' => e.1 ≠ e'.1 := by
  rw [select, List.pairwise_filterMap]
  refine hnames.imp fun hne b hb b' hb' => ?_
  obtain ⟨_, -, rfl⟩ := Option.map_eq_some_iff.1 hb
  obtain ⟨_, -, rfl⟩ := Option.map_eq_some_iff.1 hb'
  exact hne

theorem moves_iff : Moves marker prev next source target ↔
    ∃ entity, Arrives prev next target ∧ next.find? target = some entity ∧
      marker entity = some source := by
  simp only [Moves, Option.bind_eq_some_iff]
  grind

/-- An entity that moves comes from the name that its marker takes. -/
theorem Turn.Fits.moves (h : (Turn.move source target before entity).Fits marker prev next) :
    Moves marker prev next source target :=
  moves_iff.2 ⟨entity, h.1, h.2.1, h.2.2.1⟩

theorem MarkersHonoured.of_not_moves (h : ∀ {s t}, ¬Moves marker prev next s t) :
    MarkersHonoured marker prev next :=
  ⟨fun hm => absurd hm h, fun hm => absurd hm h, fun hm => absurd hm h⟩

/-- Where no name is new no marker counts. -/
theorem MarkersHonoured.of_subset (hnames : ∀ n ∈ next.names, n ∈ prev.names) :
    MarkersHonoured marker prev next := by
  apply MarkersHonoured.of_not_moves
  intro source target hmoves
  exact hmoves.1.2.2 (hnames target hmoves.1.2.1)

/-- Between two maps with the same names no name is new. -/
theorem MarkersHonoured.of_mem_iff (h : ∀ n, n ∈ prev.names ↔ n ∈ next.names) :
    MarkersHonoured marker prev next :=
  .of_subset fun n => (h n).2

/-- An old name is never a new one. -/
theorem MarkersHonoured.ne (h : MarkersHonoured marker prev next)
    (hmoves : Moves marker prev next source target) (harrives : Arrives prev next name) :
    source ≠ name := by
  rintro rfl
  exact harrives.2.2 (h.before hmoves)

/-! ### The traversal takes the turns -/

theorem renameSource_eq_ok_iff {taken : List String} :
    renameSource prev next taken source = .ok before ↔
      prev.find? source = some before ∧ source ∉ next.names ∧ source ∉ taken := by
  unfold renameSource
  cases prev.find? source with
  | none => simp
  | some a =>
    rw [← OrderedMap.contains_iff]
    by_cases hnext : next.contains source
    · simp [hnext]
    · by_cases htaken : source ∈ taken <;> simp [hnext, htaken]

/-- The additions come to their end exactly if each marker can be honoured and no two of them are
the same. -/
theorem fault_additions_eq_none_iff {taken : List String} {es : List (String × α)} :
    (additions marker prev next taken es).fault = none ↔
      (∀ e ∈ es, ∀ s, marker e.2 = some s →
        s ∈ prev.names ∧ s ∉ next.names ∧ s ∉ taken) ∧
      es.Pairwise fun e e' => ∀ s, marker e.2 = some s → marker e'.2 ≠ some s := by
  induction es generalizing taken with
  | nil => simp [additions]
  | cons e es ih =>
    obtain ⟨name, entity⟩ := e
    rw [List.forall_mem_cons, List.pairwise_cons]
    cases hmarker : marker entity with
    | none => simp [additions, hmarker, ih]
    | some source =>
      cases hsource : renameSource prev next taken source with
      | error problem =>
        have hbad : ¬(source ∈ prev.names ∧ source ∉ next.names ∧ source ∉ taken) := by
          rintro ⟨hprev, hrest⟩
          obtain ⟨before, hbefore⟩ := OrderedMap.mem_names_iff.1 hprev
          rw [renameSource_eq_ok_iff.2 ⟨hbefore, hrest⟩] at hsource
          exact absurd hsource (by simp)
        -- The traversal stops here, and the marker of this entity is the one to blame.
        simp only [additions, hmarker, hsource, reduceCtorEq, false_iff]
        rintro ⟨⟨h, -⟩, -⟩
        exact hbad (h source rfl)
      | ok before =>
        -- The old name is taken from here on, so the others must differ from it.
        obtain ⟨hbefore, hgone, hfresh⟩ := renameSource_eq_ok_iff.1 hsource
        have hprev : source ∈ prev.names := OrderedMap.mem_names_of_find? hbefore
        simp only [additions, hmarker, hsource, ih, List.mem_cons, not_or, Option.some.injEq]
        grind

/-- Additions that come to their end take the turns of their entities. -/
theorem steps_additions {taken : List String} {es : List (String × α)}
    (h : (additions marker prev next taken es).fault = none) :
    (additions marker prev next taken es).steps =
      (es.filterMap (Turn.arrival? marker prev)).flatMap Turn.steps := by
  induction es generalizing taken with
  | nil => rfl
  | cons e es ih =>
    obtain ⟨name, entity⟩ := e
    cases hmarker : marker entity with
    | none =>
      simp only [additions, hmarker] at h ⊢
      simp [ih h, Turn.arrival?, hmarker, Turn.steps]
    | some source =>
      cases hsource : renameSource prev next taken source with
      | error problem => simp [additions, hmarker, hsource] at h
      | ok before =>
        simp only [additions, hmarker, hsource] at h ⊢
        have hbefore := (renameSource_eq_ok_iff.1 hsource).1
        simp [ih h, Turn.arrival?, hmarker, hbefore, Turn.steps]

theorem sources_flatMap_steps (ts : List (Turn α)) :
    sources (ts.flatMap Turn.steps) = ts.filterMap Turn.source? := by
  induction ts with
  | nil => rfl
  | cons t ts ih =>
    cases t <;> simp_all [sources, Turn.steps, Turn.source?, List.filterMap_cons]

/-- The new entities with markers are those that move. -/
theorem moves_iff_mem_select : Moves marker prev next source target ↔
    ∃ e ∈ select next (NameDiff.between prev.names next.names).added,
      e.1 = target ∧ marker e.2 = some source := by
  simp only [moves_iff, mem_select_iff, arrives_iff_mem_added]
  constructor
  · rintro ⟨entity, harrives, hfind, hmarker⟩
    exact ⟨(target, entity), ⟨harrives, hfind⟩, rfl, hmarker⟩
  · rintro ⟨⟨_, entity⟩, ⟨harrives, hfind⟩, rfl, hmarker⟩
    exact ⟨entity, harrives, hfind, hmarker⟩

/-- The traversal comes to its end exactly if the markers of the new names can be honoured. -/
theorem fault_between_eq_none_iff :
    (between marker prev next).fault = none ↔ MarkersHonoured marker prev next := by
  have hfault : (between marker prev next).fault = (additions marker prev next []
      (select next (NameDiff.between prev.names next.names).added)).fault := by
    unfold between
    dsimp only
    split <;> simp_all
  rw [hfault, fault_additions_eq_none_iff]
  constructor
  · rintro ⟨hgood, hpair⟩
    refine ⟨?_, ?_, ?_⟩
    · intro source target hmoves
      obtain ⟨e, he, -, hs⟩ := moves_iff_mem_select.1 hmoves
      exact (hgood e he _ hs).1
    · intro source target hmoves
      obtain ⟨e, he, -, hs⟩ := moves_iff_mem_select.1 hmoves
      exact (hgood e he _ hs).2.1
    · intro source target other hmoves hmoves'
      obtain ⟨e, he, rfl, hs⟩ := moves_iff_mem_select.1 hmoves
      obtain ⟨e', he', rfl, hs'⟩ := moves_iff_mem_select.1 hmoves'
      by_contra hne
      -- The condition on two entities does not depend on which of them comes first.
      have hsymm : Std.Symm fun e e' : String × α => ∀ s, marker e.2 = some s →
          marker e'.2 ≠ some s := ⟨fun _ _ h s hs hs' => h s hs' hs⟩
      exact hpair.forall he he' (fun h => hne (congrArg Prod.fst h)) _ hs hs'
  · intro honoured
    have hmoves {e : String × α} {s : String}
        (he : e ∈ select next (NameDiff.between prev.names next.names).added)
        (hs : marker e.2 = some s) : Moves marker prev next s e.1 :=
      moves_iff_mem_select.2 ⟨e, he, rfl, hs⟩
    refine ⟨?_, ?_⟩
    · intro e he s hs
      exact ⟨honoured.before (hmoves he hs), honoured.gone (hmoves he hs), by simp⟩
    · refine (pairwise_select NameDiff.nodup_added).imp_of_mem fun he he' hne s hs hs' => ?_
      exact hne (honoured.once (hmoves he hs) (hmoves he' hs'))

/-- A traversal that comes to its end takes the turns. -/
theorem steps_between (h : MarkersHonoured marker prev next) :
    (between marker prev next).steps = (turns marker prev next).flatMap Turn.steps := by
  have hfault := fault_between_eq_none_iff.2 h
  unfold between at hfault ⊢
  dsimp only at hfault ⊢
  split at hfault
  · simp_all
  · rename_i hadditions
    rw [steps_additions hadditions, sources_flatMap_steps]
    simp only [turns, arrivals, departures, stays, List.flatMap_append]
    congr 1
    · congr 1
      rw [List.flatMap_map, List.map_eq_flatMap]
      rfl
    · rw [List.filterMap_eq_flatMap_toList, List.filterMap_eq_flatMap_toList, List.flatMap_assoc]
      congr 1
      funext e
      cases prev.find? e.1 <;> rfl

/-! ### The turn of a name -/

theorem Turn.arrival?_eq_some_iff {e : String × α} {t : Turn α} :
    Turn.arrival? marker prev e = some t ↔
      (marker e.2 = none ∧ t = .create e.1 e.2) ∨
        ∃ source before, marker e.2 = some source ∧ prev.find? source = some before ∧
          t = .move source e.1 before e.2 := by
  unfold Turn.arrival?
  cases marker e.2 with
  | none => simp [eq_comm]
  | some source => simp [@eq_comm _ t]

theorem mem_arrivals_iff {t : Turn α} : t ∈ arrivals marker prev next ↔
    ∃ name entity, Arrives prev next name ∧ next.find? name = some entity ∧
      ((marker entity = none ∧ t = .create name entity) ∨
        ∃ source before, marker entity = some source ∧ prev.find? source = some before ∧
          t = .move source name before entity) := by
  simp only [arrivals, List.mem_filterMap, mem_select_iff, arrives_iff_mem_added, Prod.exists,
    and_assoc, Turn.arrival?_eq_some_iff]

theorem mem_stays_iff {t : Turn α} : t ∈ stays prev next ↔
    ∃ name before entity, isReserved name = false ∧ prev.find? name = some before ∧
      next.find? name = some entity ∧ t = .keep name before entity := by
  simp only [stays, List.mem_filterMap, mem_select_iff, NameDiff.mem_common_iff, Prod.exists,
    Option.map_eq_some_iff]
  constructor
  · rintro ⟨name, entity, ⟨⟨hplain, -, -⟩, hnext⟩, before, hprev, rfl⟩
    exact ⟨name, before, entity, hplain, hprev, hnext, rfl⟩
  · rintro ⟨name, before, entity, hplain, hprev, hnext, rfl⟩
    exact ⟨name, entity, ⟨⟨hplain, OrderedMap.mem_names_of_find? hprev,
      OrderedMap.mem_names_of_find? hnext⟩, hnext⟩, before, hprev, rfl⟩

/-- The turns of the new names take exactly the markers that name something. -/
theorem mem_sources_arrivals_iff (h : MarkersHonoured marker prev next) :
    name ∈ (arrivals marker prev next).filterMap Turn.source? ↔
      ∃ target, Moves marker prev next name target := by
  simp only [List.mem_filterMap, mem_arrivals_iff]
  constructor
  · rintro ⟨t, ⟨target, entity, harrives, hnext, ⟨-, rfl⟩ | ⟨source, before, hmarker, -, rfl⟩⟩,
      hsource⟩
    · exact absurd hsource (by simp [Turn.source?])
    · obtain rfl : source = name := by simpa [Turn.source?] using hsource
      exact ⟨target, moves_iff.2 ⟨entity, harrives, hnext, hmarker⟩⟩
  · rintro ⟨target, hmoves⟩
    obtain ⟨entity, harrives, hnext, hmarker⟩ := moves_iff.1 hmoves
    obtain ⟨before, hbefore⟩ := OrderedMap.mem_names_iff.1 (h.before hmoves)
    exact ⟨.move name target before entity,
      ⟨target, entity, harrives, hnext, .inr ⟨name, before, hmarker, hbefore, rfl⟩⟩, rfl⟩

theorem mem_departures_iff (h : MarkersHonoured marker prev next) {t : Turn α} :
    t ∈ departures marker prev next ↔ ∃ name before, Departs prev next name ∧
      prev.find? name = some before ∧ (∀ target, ¬Moves marker prev next name target) ∧
      t = .remove name before := by
  simp only [departures, List.mem_map, List.mem_filter, mem_select_iff, departs_iff_mem_removed,
    Bool.not_eq_true', List.contains_eq_mem, decide_eq_false_iff_not, mem_sources_arrivals_iff h,
    not_exists, Prod.exists]
  grind

/-- A turn is taken exactly if it fits the two maps. -/
theorem mem_turns_iff (h : MarkersHonoured marker prev next) {t : Turn α} :
    t ∈ turns marker prev next ↔ t.Fits marker prev next := by
  simp only [turns, List.mem_append, mem_arrivals_iff, mem_departures_iff h, mem_stays_iff]
  constructor
  · rintro
      ((⟨name, entity, harrives, hnext, harrival⟩ | ⟨name, before, hdeparts, hprev, hleft, rfl⟩)
      | ⟨name, before, entity, hplain, hprev, hnext, rfl⟩)
    · rcases harrival with ⟨hmarker, rfl⟩ | ⟨source, before, hmarker, hbefore, rfl⟩
      · exact ⟨harrives, hnext, hmarker⟩
      · exact ⟨harrives, hnext, hmarker, hbefore⟩
    · exact ⟨hdeparts, hprev, hleft⟩
    · exact ⟨hplain, hprev, hnext⟩
  · intro hfits
    cases t with
    | create name entity =>
      obtain ⟨harrives, hnext, hmarker⟩ := hfits
      exact .inl (.inl ⟨name, entity, harrives, hnext, .inl ⟨hmarker, rfl⟩⟩)
    | move source target before entity =>
      obtain ⟨harrives, hnext, hmarker, hbefore⟩ := hfits
      exact .inl (.inl ⟨target, entity, harrives, hnext, .inr ⟨_, _, hmarker, hbefore, rfl⟩⟩)
    | remove name before =>
      obtain ⟨hdeparts, hprev, hleft⟩ := hfits
      exact .inl (.inr ⟨name, before, hdeparts, hprev, hleft, rfl⟩)
    | keep name before entity =>
      obtain ⟨hplain, hprev, hnext⟩ := hfits
      exact .inr ⟨name, before, entity, hplain, hprev, hnext, rfl⟩

/-- The names of a turn that fits are new, or moved, or gone, or kept; this tells which turn it
is. -/
theorem Turn.Fits.unique (h : MarkersHonoured marker prev next) {t t' : Turn α}
    (hfits : t.Fits marker prev next) (hfits' : t'.Fits marker prev next) (hname : name ∈ t.names)
    (hname' : name ∈ t'.names) : t = t' := by
  have hgone {s n : String} : Moves marker prev next s n → s ∈ prev.names ∧ s ∉ next.names :=
    fun hmoves => ⟨h.before hmoves, h.gone hmoves⟩
  have honce {s n n' : String} (hmoves : Moves marker prev next s n)
      (hmoves' : Moves marker prev next s n') : n = n' := h.once hmoves hmoves'
  have hmoves {n s : String} {e : α} (harrives : Arrives prev next n)
      (hnext : next.find? n = some e) (hs : marker e = some s) : Moves marker prev next s n :=
    moves_iff.2 ⟨e, harrives, hnext, hs⟩
  have hprev {n : String} {e : α} (hfind : prev.find? n = some e) : n ∈ prev.names :=
    OrderedMap.mem_names_of_find? hfind
  have hnext {n : String} {e : α} (hfind : next.find? n = some e) : n ∈ next.names :=
    OrderedMap.mem_names_of_find? hfind
  -- Of two different turns one would need the name where the other has it missing.
  cases t <;> cases t' <;> simp only [Turn.Fits, Turn.names, List.mem_cons, List.not_mem_nil,
    or_false, Arrives, Departs] at * <;> grind

theorem nodup_select {map : OrderedMap α} {names : List String} (hnames : names.Nodup) :
    (select map names).Nodup :=
  (pairwise_select hnames).imp fun hne heq => hne (congrArg Prod.fst heq)

/-- An entity has one turn at most, so no turn is taken twice. -/
theorem nodup_turns (h : MarkersHonoured marker prev next) : (turns marker prev next).Nodup := by
  have harrivals : (arrivals marker prev next).Nodup := by
    refine List.Nodup.filterMap (fun e e' t ht ht' => ?_) (nodup_select NameDiff.nodup_added)
    obtain ⟨-, rfl⟩ | ⟨_, _, -, -, rfl⟩ := Turn.arrival?_eq_some_iff.1 ht <;>
      simp_all [Turn.arrival?_eq_some_iff, Prod.ext_iff]
  have hdepartures : (departures marker prev next).Nodup := by
    refine List.Nodup.map (fun e e' heq => ?_) ((nodup_select NameDiff.nodup_removed).filter _)
    exact Prod.ext (Turn.remove.inj heq).1 (Turn.remove.inj heq).2
  have hstays : (stays prev next).Nodup := by
    refine List.Nodup.filterMap (fun e e' t ht ht' => ?_) (nodup_select NameDiff.nodup_common)
    obtain ⟨before, -, rfl⟩ := Option.map_eq_some_iff.1 ht
    obtain ⟨before', -, heq⟩ := Option.map_eq_some_iff.1 ht'
    exact Prod.ext (Turn.keep.inj heq).1.symm (Turn.keep.inj heq).2.2.symm
  -- Turns of different kinds are made by different constructors.
  refine List.nodup_append.2 ⟨List.nodup_append.2 ⟨harrivals, hdepartures, ?_⟩, hstays, ?_⟩
  · rintro t ht t' ht' rfl
    obtain ⟨name, before, -, -, -, rfl⟩ := (mem_departures_iff h).1 ht'
    obtain ⟨_, _, -, -, ⟨-, heq⟩ | ⟨_, _, -, -, heq⟩⟩ := mem_arrivals_iff.1 ht <;>
      exact absurd heq (by simp)
  · rintro t ht t' ht' rfl
    obtain ⟨name, before, entity, -, -, -, rfl⟩ := mem_stays_iff.1 ht'
    rcases List.mem_append.1 ht with ht | ht
    · obtain ⟨_, _, -, -, ⟨-, heq⟩ | ⟨_, _, -, -, heq⟩⟩ := mem_arrivals_iff.1 ht <;>
        exact absurd heq (by simp)
    · obtain ⟨_, _, -, -, -, heq⟩ := (mem_departures_iff h).1 ht
      exact absurd heq (by simp)

/-- No name is spoken of in two turns. -/
theorem independent_turns (h : MarkersHonoured marker prev next) :
    Independent Turn.names (turns marker prev next) := by
  refine List.Pairwise.imp_of_mem (fun ht ht' hne name hname hname' => hne ?_) (nodup_turns h)
  exact ((mem_turns_iff h).1 ht).unique h ((mem_turns_iff h).1 ht') hname hname'

/-- Where no name is lost, every turn creates or keeps. -/
theorem create_or_keep_of_mem_turns (h : MarkersHonoured marker prev next)
    (hnames : ∀ {n}, n ∈ prev.names → n ∈ next.names) {t : Turn α}
    (ht : t ∈ turns marker prev next) :
    (∃ name entity, Arrives prev next name ∧ t = .create name entity) ∨
      ∃ name before entity, prev.find? name = some before ∧ next.find? name = some entity ∧
        t = .keep name before entity := by
  have hfits := (mem_turns_iff h).1 ht
  cases t with
  | create name entity => exact .inl ⟨name, entity, hfits.1, rfl⟩
  | move source target before entity =>
    -- The old name would be lost.
    exact absurd (hnames (h.before hfits.moves)) (h.gone hfits.moves)
  | remove name before =>
    obtain ⟨⟨-, hprev, hgone⟩, -, -⟩ := hfits
    exact absurd (hnames hprev) hgone
  | keep name before entity =>
    obtain ⟨-, hprev, hnext⟩ := hfits
    exact .inr ⟨name, before, entity, hprev, hnext, rfl⟩

/-- A name that moves has a turn. -/
theorem exists_turn_of_moves (h : MarkersHonoured marker prev next)
    (hmoves : Moves marker prev next name target) :
    ∃ t : Turn α, t.Fits marker prev next ∧ name ∈ t.names := by
  obtain ⟨entity, harrives, hnext, hmarker⟩ := moves_iff.1 hmoves
  obtain ⟨before, hbefore⟩ := OrderedMap.mem_names_iff.1 (h.before hmoves)
  exact ⟨.move name target before entity, ⟨harrives, hnext, hmarker, hbefore⟩, by simp [Turn.names]⟩

/-- A new name has a turn. -/
theorem exists_turn_of_arrives (h : MarkersHonoured marker prev next)
    (harrives : Arrives prev next name) :
    ∃ t : Turn α, t.Fits marker prev next ∧ name ∈ t.names := by
  obtain ⟨entity, hentity⟩ := OrderedMap.mem_names_iff.1 harrives.2.1
  cases hmarker : marker entity with
  | none => exact ⟨.create name entity, ⟨harrives, hentity, hmarker⟩, by simp [Turn.names]⟩
  | some source =>
    have hmoves : Moves marker prev next source name :=
      moves_iff.2 ⟨entity, harrives, hentity, hmarker⟩
    obtain ⟨before, hbefore⟩ := OrderedMap.mem_names_iff.1 (h.before hmoves)
    exact ⟨.move source name before entity, ⟨harrives, hentity, hmarker, hbefore⟩,
      by simp [Turn.names]⟩

/-- A name that is gone has a turn. -/
theorem exists_turn_of_departs (h : MarkersHonoured marker prev next)
    (hdeparts : Departs prev next name) :
    ∃ t : Turn α, t.Fits marker prev next ∧ name ∈ t.names := by
  by_cases hmoves : ∃ target, Moves marker prev next name target
  · obtain ⟨target, hmoves⟩ := hmoves
    exact exists_turn_of_moves h hmoves
  · rw [not_exists] at hmoves
    obtain ⟨before, hbefore⟩ := OrderedMap.mem_names_iff.1 hdeparts.2.1
    exact ⟨.remove name before, ⟨hdeparts, hbefore, hmoves⟩, by simp [Turn.names]⟩

/-- A name that is not reserved and stands in one of the maps has a turn. -/
theorem exists_turn_of_mem (h : MarkersHonoured marker prev next)
    (hplain : isReserved name = false) (hname : name ∈ prev.names ∨ name ∈ next.names) :
    ∃ t : Turn α, t.Fits marker prev next ∧ name ∈ t.names := by
  by_cases hprev : name ∈ prev.names
  · by_cases hnext : name ∈ next.names
    · obtain ⟨before, hbefore⟩ := OrderedMap.mem_names_iff.1 hprev
      obtain ⟨entity, hentity⟩ := OrderedMap.mem_names_iff.1 hnext
      exact ⟨.keep name before entity, ⟨hplain, hbefore, hentity⟩, by simp [Turn.names]⟩
    · exact exists_turn_of_departs h ⟨hplain, hprev, hnext⟩
  · exact exists_turn_of_arrives h ⟨hplain, hname.resolve_left hprev, hprev⟩

/-- A name that a turn speaks of moves, or it is not reserved and stands in one of the maps. -/
theorem Turn.Fits.moves_or_mem {t : Turn α} (hfits : t.Fits marker prev next)
    (hname : name ∈ t.names) : (∃ target, Moves marker prev next name target) ∨
      isReserved name = false ∧ (name ∈ prev.names ∨ name ∈ next.names) := by
  cases t with
  | create n entity =>
    obtain rfl : name = n := by simpa [Turn.names] using hname
    exact .inr ⟨hfits.1.1, .inr hfits.1.2.1⟩
  | move source target before entity =>
    rcases List.mem_cons.1 hname with rfl | hname
    · exact .inl ⟨target, hfits.moves⟩
    · obtain rfl : name = target := by simpa using hname
      exact .inr ⟨hfits.1.1, .inr hfits.1.2.1⟩
  | remove n before =>
    obtain rfl : name = n := by simpa [Turn.names] using hname
    exact .inr ⟨hfits.1.1, .inl hfits.1.2.1⟩
  | keep n before entity =>
    obtain rfl : name = n := by simpa [Turn.names] using hname
    exact .inr ⟨hfits.1, .inl (OrderedMap.mem_names_iff.2 ⟨before, hfits.2.1⟩)⟩

/-- A name that no turn speaks of moves nowhere, and it is reserved or stands in neither map. -/
theorem untouched_iff (h : MarkersHonoured marker prev next) :
    (∀ t ∈ turns marker prev next, name ∉ t.names) ↔
      (∀ target, ¬Moves marker prev next name target) ∧
        (isReserved name = true ∨ name ∉ prev.names ∧ name ∉ next.names) := by
  simp only [mem_turns_iff h]
  constructor
  · intro huntouched
    have hnone : ¬∃ t : Turn α, t.Fits marker prev next ∧ name ∈ t.names :=
      fun ⟨t, hfits, hname⟩ => huntouched t hfits hname
    refine ⟨fun target hmoves => hnone (exists_turn_of_moves h hmoves), ?_⟩
    by_cases hreserved : isReserved name = true
    · exact .inl hreserved
    · rw [Bool.not_eq_true] at hreserved
      exact .inr (not_or.1 fun hname => hnone (exists_turn_of_mem h hreserved hname))
  · rintro ⟨hleft, hrest⟩ t hfits hname
    rcases hfits.moves_or_mem hname with ⟨target, hmoves⟩ | ⟨hplain, hmem⟩
    · exact hleft target hmoves
    · rw [hplain] at hrest
      exact not_or.2 (hrest.resolve_left (by simp)) hmem

section Untouched

variable {ν : Type*} {f f' g : String → ν}

/-- What holds of reserved names that move nowhere, and of names that stand in neither map, holds of
all names that no turn speaks of. -/
theorem eq_of_untouched (h : MarkersHonoured marker prev next)
    (hreserved : ∀ n, isReserved n = true → (∀ target, ¬Moves marker prev next n target) →
      f n = g n)
    (hmissing : ∀ n, n ∉ prev.names → n ∉ next.names → f n = g n)
    (hname : ∀ t ∈ turns marker prev next, name ∉ t.names) : f name = g name := by
  obtain ⟨hleft, hname | ⟨hprev, hnext⟩⟩ := (untouched_iff h).1 hname
  · exact hreserved name hname hleft
  · exact hmissing name hprev hnext

/-- What is reached turn by turn is what is asked for exactly if it is so under the names of each
turn, and what is there before is so under reserved names that move nowhere. -/
theorem forall_eq_iff_of_turns (h : MarkersHonoured marker prev next)
    (huntouched : ∀ n, (∀ t ∈ turns marker prev next, n ∉ t.names) → f' n = f n)
    (hmissing : ∀ n, n ∉ prev.names → n ∉ next.names → f n = g n) :
    (∀ n, f' n = g n) ↔ (∀ t ∈ turns marker prev next, ∀ n ∈ t.names, f' n = g n) ∧
      ∀ n, isReserved n = true → (∀ target, ¬Moves marker prev next n target) → f n = g n := by
  constructor
  · intro hall
    refine ⟨fun _ _ n _ => hall n, ?_⟩
    intro n hreserved hleft
    rw [← hall n, huntouched n ((untouched_iff h).2 ⟨hleft, .inl hreserved⟩)]
  · rintro ⟨hturns, hreserved⟩ n
    by_cases htouched : ∃ t ∈ turns marker prev next, n ∈ t.names
    · obtain ⟨t, ht, hn⟩ := htouched
      exact hturns t ht n hn
    · push Not at htouched
      rw [huntouched n htouched]
      exact eq_of_untouched h hreserved hmissing htouched

end Untouched

end Traversal

end Schemata.Changes
