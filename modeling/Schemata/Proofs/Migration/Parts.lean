import Schemata.Proofs.Migration.Turn

/-!
# Turns between parts of two maps

A part of a map are the entities that satisfy a predicate. Between the parts of two maps fewer
things can happen than between the maps, but also others: what stays in the maps can be new in the
parts. If no entity enters or leaves the part by moving or staying, this cannot be, and the turns
between the parts are just those turns between the maps that are about the parts, in their order.

A change of the entities under their names takes turns to turns in any case.

## Main definitions

* `Changes.Uniform`: no entity enters or leaves the part by moving or staying
* `Turn.satisfies`, `Turn.map`: whether a turn is about the part, and a turn of other entities

## Main results

* `arrivals_eq`, `departures_eq`, `stays_eq`: the turns by the entries of the two maps
* `turns_filter`: the turns between the parts are the turns that are about them
* `moves_filter_iff`, `MarkersHonoured.filter`: what moves in the parts
* `turns_map`: the turns of maps whose entities are changed under their names
-/

namespace Schemata

universe u

/-! ### Turns between parts of two maps -/

namespace Changes

variable {α : Type u} {marker : α → Option String} {p : α → Bool} {prev next : OrderedMap α}

/-- An entity that moves or stays satisfies the predicate after it exactly if it did before. -/
structure Uniform (p : α → Bool) (marker : α → Option String) (prev next : OrderedMap α) :
    Prop where
  moved {source target : String} {before after : α} : Moves marker prev next source target →
    prev.find? source = some before → next.find? target = some after → p before = p after
  kept {name : String} {before after : α} : isReserved name = false →
    prev.find? name = some before → next.find? name = some after → p before = p after

/-- The turn is about an entity that satisfies the predicate. -/
def Turn.satisfies (p : α → Bool) : Turn α → Bool
  | create _ entity | remove _ entity | move _ _ _ entity | keep _ _ entity => p entity

/-- The turn with the images of its entities. -/
def Turn.map (f : α → α) : Turn α → Turn α
  | create name entity => create name (f entity)
  | move source target before entity => move source target (f before) (f entity)
  | remove name before => remove name (f before)
  | keep name before entity => keep name (f before) (f entity)

/-! Of the names of a map the traversal takes those that are not reserved, in their order. -/

theorem relevant_names (map : OrderedMap α) :
    NameDiff.relevant map.names = map.names.filter fun n => !isReserved n := by
  have hdups (names : List String) (hnodup : names.Nodup) : names.eraseDups = names := by
    induction names with
    | nil => rfl
    | cons first rest ih =>
      obtain ⟨hfirst, hrest⟩ := List.nodup_cons.1 hnodup
      have hsame : rest.filter (fun n => !n == first) = rest :=
        List.filter_eq_self.2 fun n hn => by simpa using ne_of_mem_of_not_mem hn hfirst
      rw [List.eraseDups_cons, hsame, ih hrest]
  exact hdups _ (map.nodup_names.filter _)

/-- Selecting some of the names of a map selects their entries. -/
theorem select_names (map : OrderedMap α) (q : String → Bool) :
    select map (map.names.filter q) = map.entries.filter fun e => q e.1 := by
  rw [select, OrderedMap.names, Entries.names, List.filter_map, List.filterMap_map]
  refine (List.filterMap_congr fun e he => ?_).trans List.filterMap_some
  have hfind := OrderedMap.mem_entries_iff.1 (List.mem_of_mem_filter he)
  simp [hfind]

/-- The entries of a map that are selected by whether another one has their names. -/
theorem select_relevant (map other : OrderedMap α) (q : Bool → Bool) :
    select map ((NameDiff.relevant map.names).filter fun n =>
        q ((NameDiff.relevant other.names).contains n)) =
      map.entries.filter fun e => !isReserved e.1 && q (other.contains e.1) := by
  rw [relevant_names map, List.filter_filter, select_names]
  apply List.filter_congr
  intro e _
  rw [Bool.and_comm]
  cases hplain : isReserved e.1 with
  | true => rfl
  | false =>
    have hcontains : (NameDiff.relevant other.names).contains e.1 = other.contains e.1 := by
      rw [Bool.eq_iff_iff, List.contains_iff_mem, NameDiff.mem_relevant_iff,
        OrderedMap.contains_iff]
      simp [hplain]
    rw [hcontains]

theorem arrivals_eq (marker : α → Option String) (prev next : OrderedMap α) :
    arrivals marker prev next =
      (next.entries.filter fun e => !isReserved e.1 && !prev.contains e.1).filterMap
        (Turn.arrival? marker prev) := by
  rw [arrivals, NameDiff.between, select_relevant next prev not]

theorem departures_eq (marker : α → Option String) (prev next : OrderedMap α) :
    departures marker prev next =
      ((prev.entries.filter fun e => !isReserved e.1 && !next.contains e.1).filter fun e =>
        !((arrivals marker prev next).filterMap Turn.source?).contains e.1).map
          fun e => .remove e.1 e.2 := by
  rw [departures, NameDiff.between, select_relevant prev next not]

theorem stays_eq (prev next : OrderedMap α) :
    stays prev next =
      (next.entries.filter fun e => !isReserved e.1 && prev.contains e.1).filterMap fun e =>
        (prev.find? e.1).map fun before => .keep e.1 before e.2 := by
  rw [stays]
  exact congrArg _ (select_relevant next prev id)

namespace Uniform

variable (h : Uniform p marker prev next)

include h

/-- Whether a name is in the previous map does not change when only a part of both is looked at. -/
theorem contains_prev {e : String × α} (he : e ∈ next.entries) (hp : p e.2 = true)
    (hplain : isReserved e.1 = false) : (prev.filter p).contains e.1 = prev.contains e.1 := by
  rw [OrderedMap.contains, OrderedMap.contains, OrderedMap.find?_filter]
  cases hbefore : prev.find? e.1 with
  | none => rfl
  | some before =>
    have hsame := h.kept hplain hbefore (OrderedMap.mem_entries_iff.1 he)
    simp [Option.filter, hsame, hp]

theorem contains_next {e : String × α} (he : e ∈ prev.entries) (hp : p e.2 = true)
    (hplain : isReserved e.1 = false) : (next.filter p).contains e.1 = next.contains e.1 := by
  rw [OrderedMap.contains, OrderedMap.contains, OrderedMap.find?_filter]
  cases hafter : next.find? e.1 with
  | none => rfl
  | some after =>
    have hsame := h.kept hplain (OrderedMap.mem_entries_iff.1 he) hafter
    simp [Option.filter, ← hsame, hp]

/-- The entity that a move starts from is in the part exactly if the one it leads to is. -/
theorem find?_source {source target : String} {entity : α} (harrives : Arrives prev next target)
    (hnext : next.find? target = some entity) (hmarker : marker entity = some source)
    (hp : p entity = true) : (prev.filter p).find? source = prev.find? source := by
  rw [OrderedMap.find?_filter]
  cases hbefore : prev.find? source with
  | none => rfl
  | some before =>
    have hmoves := moves_iff.2 ⟨entity, harrives, hnext, hmarker⟩
    have hsame := h.moved hmoves hbefore hnext
    simp [Option.filter, hsame, hp]

end Uniform

/-- Entries can be chosen by their names and by the predicate in any order, if the predicate does
not change which names count. -/
theorem chosen_filter {map other other' : OrderedMap α}
    (hcontains : ∀ e ∈ map.entries, p e.2 = true → isReserved e.1 = false →
      other'.contains e.1 = other.contains e.1) (q : Bool → Bool) :
    ((map.filter p).entries.filter fun e => !isReserved e.1 && q (other'.contains e.1)) =
      (map.entries.filter fun e => !isReserved e.1 && q (other.contains e.1)).filter
        fun e => p e.2 := by
  rw [OrderedMap.filter, List.filter_filter, List.filter_filter]
  apply List.filter_congr
  intro e he
  cases hp : p e.2 with
  | false => simp
  | true =>
    cases hplain : isReserved e.1 with
    | true => rfl
    | false => rw [hcontains e he hp hplain, Bool.and_true, Bool.true_and]

section Parts

variable (h : Uniform p marker prev next)

include h

theorem arrivals_filter : arrivals marker (prev.filter p) (next.filter p) =
    (arrivals marker prev next).filter (Turn.satisfies p) := by
  rw [arrivals_eq, arrivals_eq, chosen_filter (fun _ => h.contains_prev) not,
    List.filterMap_filter, List.filter_filterMap]
  apply List.filterMap_congr
  intro e he
  obtain ⟨hentry, hname⟩ := List.mem_filter.1 he
  have hnext := OrderedMap.mem_entries_iff.1 hentry
  have harrives : Arrives prev next e.1 := by
    simpa [Arrives, ← OrderedMap.contains_iff, OrderedMap.contains, hnext] using hname
  cases hmarker : marker e.2 with
  | none => cases hp : p e.2 <;> simp [Turn.arrival?, hmarker, Turn.satisfies, Option.filter, hp]
  | some source =>
    cases hp : p e.2 with
    | true =>
      simp only [Turn.arrival?, hmarker, h.find?_source harrives hnext hmarker hp]
      cases prev.find? source <;> simp [Option.filter, Turn.satisfies, hp]
    | false =>
      simp only [Turn.arrival?, hmarker]
      cases prev.find? source <;> simp [Option.filter, Turn.satisfies, hp]

/-- An entity that satisfies the predicate has been moved in the parts exactly if it has been. -/
theorem contains_sources {e : String × α} (he : e ∈ prev.entries) (hp : p e.2 = true) :
    ((arrivals marker (prev.filter p) (next.filter p)).filterMap Turn.source?).contains e.1 =
      ((arrivals marker prev next).filterMap Turn.source?).contains e.1 := by
  rw [Bool.eq_iff_iff, List.contains_iff_mem, List.contains_iff_mem, arrivals_filter h]
  simp only [List.mem_filterMap, List.mem_filter]
  constructor
  · rintro ⟨t, ⟨ht, -⟩, hsource⟩
    exact ⟨t, ht, hsource⟩
  · rintro ⟨t, ht, hsource⟩
    refine ⟨t, ⟨ht, ?_⟩, hsource⟩
    obtain ⟨name, entity, harrives, hnext, ⟨-, rfl⟩ | ⟨source, before, hmarker, hbefore, rfl⟩⟩ :=
      mem_arrivals_iff.1 ht
    · exact absurd hsource (by simp [Turn.source?])
    · obtain rfl : source = e.1 := by simpa [Turn.source?] using hsource
      have hmoves := moves_iff.2 ⟨entity, harrives, hnext, hmarker⟩
      rw [Turn.satisfies, ← h.moved hmoves (OrderedMap.mem_entries_iff.1 he) hnext, hp]

theorem departures_filter : departures marker (prev.filter p) (next.filter p) =
    (departures marker prev next).filter (Turn.satisfies p) := by
  -- What has not been moved in the parts has not been moved at all.
  have hleft : ∀ chosen ⊆ prev.entries,
      ((chosen.filter fun e => p e.2).filter fun e => !((arrivals marker (prev.filter p)
          (next.filter p)).filterMap Turn.source?).contains e.1) =
        (chosen.filter fun e =>
          !((arrivals marker prev next).filterMap Turn.source?).contains e.1).filter
            fun e => p e.2 := by
    intro chosen hchosen
    rw [List.filter_filter, List.filter_filter]
    apply List.filter_congr
    intro e he
    cases hp : p e.2 with
    | false => rw [Bool.and_false, Bool.false_and]
    | true => rw [contains_sources h (hchosen he) hp, Bool.and_true, Bool.true_and]
  rw [departures_eq, departures_eq, chosen_filter (fun _ => h.contains_next) not, List.filter_map,
    hleft _ List.filter_sublist.subset]
  rfl

theorem stays_filter : stays (prev.filter p) (next.filter p) =
    (stays prev next).filter (Turn.satisfies p) := by
  have hchosen := chosen_filter (fun e (he : e ∈ next.entries) => h.contains_prev he)
    fun known => known
  rw [stays_eq, stays_eq, hchosen, List.filterMap_filter, List.filter_filterMap]
  apply List.filterMap_congr
  intro e he
  obtain ⟨hentry, hname⟩ := List.mem_filter.1 he
  have hnext := OrderedMap.mem_entries_iff.1 hentry
  rw [OrderedMap.find?_filter]
  cases hbefore : prev.find? e.1 with
  | none => simp
  | some before =>
    have hplain : isReserved e.1 = false := by
      simp only [Bool.and_eq_true, Bool.not_eq_true'] at hname
      exact hname.1
    have hsame := h.kept hplain hbefore hnext
    cases hp : p e.2 <;> simp [Option.filter, Turn.satisfies, hsame, hp]

/-- The turns between the parts are the turns that are about them. -/
theorem turns_filter : turns marker (prev.filter p) (next.filter p) =
    (turns marker prev next).filter (Turn.satisfies p) := by
  rw [turns, turns, arrivals_filter h, departures_filter h, stays_filter h, List.filter_append,
    List.filter_append]

theorem arrives_filter_iff {name : String} : Arrives (prev.filter p) (next.filter p) name ↔
    Arrives prev next name ∧ ∃ entity, next.find? name = some entity ∧ p entity = true := by
  simp only [Arrives, OrderedMap.mem_names_filter_iff]
  constructor
  · rintro ⟨hplain, ⟨entity, hnext, hp⟩, hnew⟩
    refine ⟨⟨hplain, OrderedMap.mem_names_of_find? hnext, fun hprev => hnew ?_⟩, entity, hnext, hp⟩
    -- A name that was there before was in the part before.
    obtain ⟨before, hbefore⟩ := OrderedMap.mem_names_iff.1 hprev
    exact ⟨before, hbefore, (h.kept hplain hbefore hnext).trans hp⟩
  · rintro ⟨⟨hplain, -, hnew⟩, hentity⟩
    refine ⟨hplain, hentity, ?_⟩
    rintro ⟨before, hbefore, -⟩
    exact hnew (OrderedMap.mem_names_of_find? hbefore)

/-- What moves between the parts is what moves and satisfies the predicate. -/
theorem moves_filter_iff {source target : String} :
    Moves marker (prev.filter p) (next.filter p) source target ↔
      Moves marker prev next source target ∧
        ∃ entity, next.find? target = some entity ∧ p entity = true := by
  simp only [moves_iff, arrives_filter_iff h, OrderedMap.find?_filter, Option.filter_eq_some_iff]
  constructor
  · rintro ⟨entity, ⟨harrives, -⟩, ⟨hnext, hp⟩, hmarker⟩
    exact ⟨⟨entity, harrives, hnext, hmarker⟩, entity, hnext, hp⟩
  · rintro ⟨⟨entity, harrives, hnext, hmarker⟩, other, hother, hp⟩
    obtain rfl : entity = other := Option.some.inj (hnext.symm.trans hother)
    exact ⟨entity, ⟨harrives, entity, hnext, hp⟩, ⟨hnext, hp⟩, hmarker⟩

/-- The markers in the parts are honoured if all are. -/
theorem MarkersHonoured.filter (honoured : MarkersHonoured marker prev next) :
    MarkersHonoured marker (prev.filter p) (next.filter p) := by
  refine ⟨?_, ?_, ?_⟩
  · intro source target hmoves
    obtain ⟨hmoves, entity, hnext, hp⟩ := (moves_filter_iff h).1 hmoves
    obtain ⟨before, hbefore⟩ := OrderedMap.mem_names_iff.1 (honoured.before hmoves)
    exact OrderedMap.mem_names_filter_iff.2
      ⟨before, hbefore, (h.moved hmoves hbefore hnext).trans hp⟩
  · intro source target hmoves hsource
    obtain ⟨after, hafter, -⟩ := OrderedMap.mem_names_filter_iff.1 hsource
    exact honoured.gone ((moves_filter_iff h).1 hmoves).1 (OrderedMap.mem_names_of_find? hafter)
  · intro source target other hmoves hmoves'
    exact honoured.once ((moves_filter_iff h).1 hmoves).1 ((moves_filter_iff h).1 hmoves').1

end Parts

/-! ### Turns of changed entities -/

section Images

variable {f : α → α} (hmarker : ∀ entity, marker (f entity) = marker entity)

include hmarker

theorem moves_map_iff {source target : String} :
    Moves marker (prev.map f) (next.map f) source target ↔ Moves marker prev next source target := by
  have hsame : marker ∘ f = marker := funext hmarker
  simp only [Moves, Arrives, OrderedMap.names_map, OrderedMap.find?_map, Option.bind_map, hsame]

theorem MarkersHonoured.map (honoured : MarkersHonoured marker prev next) :
    MarkersHonoured marker (prev.map f) (next.map f) := by
  refine ⟨?_, ?_, ?_⟩
  · intro source target hmoves
    rw [OrderedMap.names_map]
    exact honoured.before ((moves_map_iff hmarker).1 hmoves)
  · intro source target hmoves
    rw [OrderedMap.names_map]
    exact honoured.gone ((moves_map_iff hmarker).1 hmoves)
  · intro source target other hmoves hmoves'
    exact honoured.once ((moves_map_iff hmarker).1 hmoves) ((moves_map_iff hmarker).1 hmoves')

/-- The turns of maps whose entities are changed under their names, and keep their markers. -/
theorem turns_map :
    turns marker (prev.map f) (next.map f) = (turns marker prev next).map (Turn.map f) := by
  have hselect (map : OrderedMap α) (names : List String) :
      select (map.map f) names = (select map names).map fun e => (e.1, f e.2) := by
    rw [select, select, List.map_filterMap]
    apply List.filterMap_congr
    intro name _
    rw [OrderedMap.find?_map, Option.map_map, Option.map_map]
    rfl
  have harrival (e : String × α) : Turn.arrival? marker (prev.map f) (e.1, f e.2) =
      (Turn.arrival? marker prev e).map (Turn.map f) := by
    cases hsource : marker e.2 with
    | none => simp [Turn.arrival?, hmarker, hsource, Turn.map]
    | some source =>
      simp only [Turn.arrival?, hmarker, hsource, OrderedMap.find?_map, Option.map_map]
      rfl
  have harrivals : arrivals marker (prev.map f) (next.map f) =
      (arrivals marker prev next).map (Turn.map f) := by
    rw [arrivals, arrivals, OrderedMap.names_map, OrderedMap.names_map, hselect,
      List.filterMap_map, List.map_filterMap]
    exact List.filterMap_congr fun e _ => harrival e
  -- A change under the names takes no old name and gives none free.
  have hsources : (arrivals marker (prev.map f) (next.map f)).filterMap Turn.source? =
      (arrivals marker prev next).filterMap Turn.source? := by
    rw [harrivals, List.filterMap_map]
    apply List.filterMap_congr
    intro t _
    cases t <;> rfl
  have hdepartures : departures marker (prev.map f) (next.map f) =
      (departures marker prev next).map (Turn.map f) := by
    rw [departures, departures, hsources, OrderedMap.names_map, OrderedMap.names_map, hselect,
      List.filter_map, List.map_map, List.map_map]
    rfl
  have hstays : stays (prev.map f) (next.map f) = (stays prev next).map (Turn.map f) := by
    rw [stays, stays, OrderedMap.names_map, OrderedMap.names_map, hselect, List.filterMap_map,
      List.map_filterMap]
    apply List.filterMap_congr
    intro e _
    simp only [Function.comp_apply, OrderedMap.find?_map, Option.map_map]
    rfl
  rw [turns, turns, harrivals, hdepartures, hstays, List.map_append, List.map_append]

end Images

end Changes

end Schemata
