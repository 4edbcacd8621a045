import Schemata.Migration.Plan
import Schemata.Proofs.Migration.Parts

/-!
# Every entity once

A traversal tells a driver what to do, one call after the other. If it comes to its end, each
entity of either map that is not reserved has had its turn once: one of the next map as created,
moved to or kept, and one of the previous map as moved from, removed or kept. New entities come
first, then those that are gone, then those that stay, each in the order of its map.

A traversal that does not come to its end stops at the first new entity whose marker cannot be
honoured, after the calls for the new entities before it.

## Main definitions

* `Turn.new?`, `Turn.old?`: the name that a turn is about in the next map, and in the previous one
* `newcomers`: the entries that are new, in order
* `Honours`, `Blames`: the marker of an entry can be honoured after others, and what is wrong if not

## Main results

* `called_arrivals`, `called_departures`, `called_stays`: the order of the turns
* `count_new`, `count_old`: each name has its turn once
* `additions_of_blames`, `exists_blames`: where a traversal stops
* `between_spec`: the calls of a traversal, and its fault
-/

namespace Schemata.Changes

/-! ### The names of turns -/

namespace Turn

variable {α : Type} {marker : α → Option String} {prev next : OrderedMap α} {n : String}

/-- The name that a turn is called by: the new one of an entity that is moved. -/
def called : Turn α → String
  | create name _ | move _ name _ _ | remove name _ | keep name _ _ => name

/-- The name of the entity that a turn is about in the next map. -/
def new? : Turn α → Option String
  | create name _ | move _ name _ _ | keep name _ _ => some name
  | remove _ _ => none

/-- The name of the entity that a turn is about in the previous map. -/
def old? : Turn α → Option String
  | move name _ _ _ | remove name _ | keep name _ _ => some name
  | create _ _ => none

theorem mem_names_of_new? {t : Turn α} (h : t.new? = some n) : n ∈ t.names := by
  cases t <;> simp_all [new?, names]

theorem mem_names_of_old? {t : Turn α} (h : t.old? = some n) : n ∈ t.names := by
  cases t <;> simp_all [old?, names]

/-- A reserved name comes up as one that is moved from, and in no other way. -/
theorem Fits.source?_of_isReserved {t : Turn α} (h : t.Fits marker prev next) (hn : n ∈ t.names)
    (hreserved : isReserved n = true) : t.source? = some n := by
  have hplain {m : String} (hm : isReserved m = false) : n ≠ m := by
    rintro rfl
    exact absurd (hm.symm.trans hreserved) (by simp)
  cases t with
  | create m _ => exact absurd (List.mem_singleton.1 hn) (hplain h.1.1)
  | remove m _ => exact absurd (List.mem_singleton.1 hn) (hplain h.1.1)
  | keep m _ _ => exact absurd (List.mem_singleton.1 hn) (hplain h.1)
  | move source target _ _ =>
    rcases List.mem_cons.1 hn with rfl | hn
    · rfl
    · exact absurd (List.mem_singleton.1 hn) (hplain h.1.1)

end Turn

variable {α : Type} {marker : α → Option String} {prev next : OrderedMap α}
variable {name source : String} {earlier before after es : List (String × α)} {e : String × α}
variable {taken : List String} {fault : RenameFault}

/-! ### The order of the turns -/

/-- The entries that are new and not reserved, in the order of the next map. -/
def newcomers (prev next : OrderedMap α) : List (String × α) :=
  next.entries.filter fun e => !isReserved e.1 && !prev.contains e.1

theorem select_added :
    select next (NameDiff.between prev.names next.names).added = newcomers prev next :=
  select_relevant next prev not

theorem mem_newcomers_iff :
    e ∈ newcomers prev next ↔ Arrives prev next e.1 ∧ next.find? e.1 = some e.2 := by
  rw [← select_added, mem_select_iff, arrives_iff_mem_added]

/-- The turns of new entities fit. -/
theorem fits_of_mem_arrivals (hes : ∀ e ∈ es, e ∈ newcomers prev next) {t : Turn α}
    (ht : t ∈ es.filterMap (Turn.arrival? marker prev)) : t.Fits marker prev next := by
  obtain ⟨e, he, harrival⟩ := List.mem_filterMap.1 ht
  obtain ⟨harrives, hfind⟩ := mem_newcomers_iff.1 (hes e he)
  obtain ⟨hmarker, rfl⟩ | ⟨source, entity, hmarker, hbefore, rfl⟩ :=
    Turn.arrival?_eq_some_iff.1 harrival
  · exact ⟨harrives, hfind, hmarker⟩
  · exact ⟨harrives, hfind, hmarker, hbefore⟩

/-- Additions that come to their end have a turn for every entry. -/
theorem called_arrivals (h : (additions marker prev next taken es).fault = none) :
    (es.filterMap (Turn.arrival? marker prev)).map Turn.called = es.map Prod.fst := by
  have hsources := (fault_additions_eq_none_iff.1 h).1
  rw [List.map_filterMap, ← List.filterMap_eq_map]
  refine List.filterMap_congr fun e he => ?_
  cases hmarker : marker e.2 with
  | none => simp [Turn.arrival?, hmarker, Turn.called]
  | some source =>
    obtain ⟨entity, hentity⟩ := OrderedMap.mem_names_iff.1 (hsources e he source hmarker).1
    simp [Turn.arrival?, hmarker, hentity, Turn.called]

theorem called_departures : (departures marker prev next).map Turn.called =
    prev.names.filter fun n => !isReserved n && !next.contains n &&
      !((arrivals marker prev next).filterMap Turn.source?).contains n := by
  rw [departures_eq, List.map_map, List.filter_filter, OrderedMap.names, Entries.names,
    List.filter_map]
  refine congrArg _ (List.filter_congr fun e _ => ?_)
  exact Bool.and_comm ..

theorem called_stays : (stays prev next).map Turn.called =
    next.names.filter fun n => !isReserved n && prev.contains n := by
  rw [stays_eq, List.map_filterMap, OrderedMap.names, Entries.names, List.filter_map,
    ← List.filterMap_eq_map]
  refine List.filterMap_congr fun e he => ?_
  obtain ⟨-, hname⟩ := List.mem_filter.1 he
  have hcontains : prev.contains e.1 = true := by simp_all
  obtain ⟨entity, hentity⟩ := Option.isSome_iff_exists.1 hcontains
  simp [hentity, Turn.called]

theorem names_newcomers : (newcomers prev next).map Prod.fst =
    next.names.filter fun n => !isReserved n && !prev.contains n := by
  rw [newcomers, OrderedMap.names, Entries.names, List.filter_map]
  rfl

/-- Only the turns of new entities take old names. -/
theorem sources_turns : (turns marker prev next).filterMap Turn.source? =
    (arrivals marker prev next).filterMap Turn.source? := by
  have hdepartures : (departures marker prev next).filterMap Turn.source? = [] := by
    rw [departures, List.filterMap_map]
    exact List.filterMap_eq_nil_iff.2 fun _ _ => rfl
  have hstays : (stays prev next).filterMap Turn.source? = [] := by
    rw [List.filterMap_eq_nil_iff]
    intro t ht
    obtain ⟨_, _, _, -, -, -, rfl⟩ := mem_stays_iff.1 ht
    rfl
  rw [turns, List.filterMap_append, List.filterMap_append, hdepartures, hstays, List.append_nil,
    List.append_nil]

/-! ### Every name once -/

section Once

variable (h : MarkersHonoured marker prev next)

include h

/-- A name comes up once among the names that the turns are asked for, if it comes up at all. -/
theorem count_eq_one {f : Turn α → Option String}
    (hf : ∀ t : Turn α, ∀ n, f t = some n → n ∈ t.names)
    (hname : ∃ t : Turn α, t.Fits marker prev next ∧ f t = some name) :
    ((turns marker prev next).filterMap f).count name = 1 := by
  have hnodup : ((turns marker prev next).filterMap f).Nodup := by
    rw [List.Nodup, List.pairwise_filterMap]
    refine (independent_turns h).imp fun hapart n hn m hm heq => ?_
    subst heq
    exact hapart (hf _ _ hn) (hf _ _ hm)
  obtain ⟨t, hfits, ht⟩ := hname
  exact List.count_eq_one_of_mem hnodup (List.mem_filterMap.2 ⟨t, (mem_turns_iff h).2 hfits, ht⟩)

theorem count_new (hname : name ∈ next.names) (hplain : isReserved name = false) :
    ((turns marker prev next).filterMap Turn.new?).count name = 1 := by
  refine count_eq_one h (fun _ _ => Turn.mem_names_of_new?) ?_
  obtain ⟨t, hfits, ht⟩ := exists_turn_of_mem h hplain (.inr hname)
  refine ⟨t, hfits, ?_⟩
  cases t with
  | create n _ => exact congrArg some (List.mem_singleton.1 ht).symm
  | keep n _ _ => exact congrArg some (List.mem_singleton.1 ht).symm
  | remove n _ =>
    obtain rfl := List.mem_singleton.1 ht
    exact absurd hname hfits.1.2.2
  | move source target before entity =>
    -- An old name that is moved from is not in the next map.
    rcases List.mem_cons.1 ht with rfl | ht
    · have hmoves := hfits.moves
      exact absurd hname (h.gone hmoves)
    · exact congrArg some (List.mem_singleton.1 ht).symm

theorem count_old (hname : name ∈ prev.names) (hplain : isReserved name = false) :
    ((turns marker prev next).filterMap Turn.old?).count name = 1 := by
  refine count_eq_one h (fun _ _ => Turn.mem_names_of_old?) ?_
  obtain ⟨t, hfits, ht⟩ := exists_turn_of_mem h hplain (.inl hname)
  refine ⟨t, hfits, ?_⟩
  cases t with
  | remove n _ => exact congrArg some (List.mem_singleton.1 ht).symm
  | keep n _ _ => exact congrArg some (List.mem_singleton.1 ht).symm
  | create n _ =>
    obtain rfl := List.mem_singleton.1 ht
    exact absurd hname hfits.1.2.2
  | move source target before entity =>
    rcases List.mem_cons.1 ht with rfl | ht
    · rfl
    · obtain rfl := List.mem_singleton.1 ht
      exact absurd hname hfits.1.2.2

end Once

/-! ### The first marker that cannot be honoured -/

/-- The marker of the entry, if it has one, can be honoured after those of the earlier entries. -/
def Honours (marker : α → Option String) (prev next : OrderedMap α) (earlier : List (String × α))
    (e : String × α) : Prop :=
  ∀ source, marker e.2 = some source →
    source ∈ prev.names ∧ source ∉ next.names ∧ ∀ e' ∈ earlier, marker e'.2 ≠ some source

/-- The first thing that is wrong with a marker after those of the earlier entries. -/
def Refuses (marker : α → Option String) (prev next : OrderedMap α) (earlier : List (String × α))
    (source : String) : MarkerProblem → Prop
  | .noSource => source ∉ prev.names
  | .sourceKept => source ∈ prev.names ∧ source ∈ next.names
  | .sourceTaken =>
      source ∈ prev.names ∧ source ∉ next.names ∧ ∃ e ∈ earlier, marker e.2 = some source

/-- The fault is the one of the entry. -/
def Blames (marker : α → Option String) (prev next : OrderedMap α) (earlier : List (String × α))
    (e : String × α) (fault : RenameFault) : Prop :=
  e.1 = fault.name ∧ marker e.2 = some fault.source ∧
    Refuses marker prev next earlier fault.source fault.problem

/-- The old names taken are those in the markers of the earlier entries. -/
def TakenBy (marker : α → Option String) (earlier : List (String × α)) (taken : List String) :
    Prop :=
  ∀ source, source ∈ taken ↔ ∃ e ∈ earlier, marker e.2 = some source

theorem takenBy_nil : TakenBy marker [] [] := fun source => by simp

theorem TakenBy.unmarked (h : TakenBy marker earlier taken) (hmarker : marker e.2 = none) :
    TakenBy marker (earlier ++ [e]) taken := by
  intro source
  simp [h source, or_and_right, exists_or, hmarker]

theorem TakenBy.marked (h : TakenBy marker earlier taken) (hmarker : marker e.2 = some source) :
    TakenBy marker (earlier ++ [e]) (source :: taken) := by
  intro other
  simp [h other, or_and_right, exists_or, hmarker, or_comm, eq_comm]

theorem renameSource_eq_error_iff (h : TakenBy marker earlier taken) {problem : MarkerProblem} :
    renameSource prev next taken source = .error problem ↔
      Refuses marker prev next earlier source problem := by
  unfold renameSource
  cases hfind : prev.find? source with
  | none =>
    have hprev : source ∉ prev.names := OrderedMap.find?_eq_none_iff.1 hfind
    cases problem <;> simp [Refuses, hprev]
  | some entity =>
    have hprev : source ∈ prev.names := OrderedMap.mem_names_of_find? hfind
    by_cases hnext : source ∈ next.names
    · have hkept : next.contains source = true := OrderedMap.contains_iff.2 hnext
      cases problem <;> simp [Refuses, hprev, hnext, hkept]
    · have hgone : next.contains source = false := by
        rwa [Bool.eq_false_iff, ne_eq, OrderedMap.contains_iff]
      by_cases hclaim : source ∈ taken
      · cases problem <;> simp [Refuses, hprev, hnext, hgone, hclaim, ← h source]
      · cases problem <;> simp [Refuses, hprev, hnext, hgone, hclaim, ← h source]

theorem honours_iff : Honours marker prev next earlier e ↔
    ∀ fault, ¬Blames marker prev next earlier e fault := by
  constructor
  · rintro h ⟨name, source, problem⟩ ⟨-, hmarker, hrefuses⟩
    obtain ⟨hprev, hnext, hfresh⟩ := h source hmarker
    cases problem with
    | noSource => exact hrefuses hprev
    | sourceKept => exact hnext hrefuses.2
    | sourceTaken =>
      obtain ⟨e', he', hclaim⟩ := hrefuses.2.2
      exact hfresh e' he' hclaim
  · intro h source hmarker
    have hprev : source ∈ prev.names := by
      by_contra hprev
      exact h ⟨e.1, source, .noSource⟩ ⟨rfl, hmarker, hprev⟩
    have hnext : source ∉ next.names := fun hnext =>
      h ⟨e.1, source, .sourceKept⟩ ⟨rfl, hmarker, hprev, hnext⟩
    exact ⟨hprev, hnext, fun e' he' hclaim =>
      h ⟨e.1, source, .sourceTaken⟩ ⟨rfl, hmarker, hprev, hnext, e', he', hclaim⟩⟩

/-- The additions stop at the first entry that is to blame, after the steps of those before it. -/
theorem additions_of_blames (htaken : TakenBy marker earlier taken)
    (hbefore : (additions marker prev next taken before).fault = none)
    (hblames : Blames marker prev next (earlier ++ before) e fault) :
    additions marker prev next taken (before ++ e :: after) =
      ⟨(additions marker prev next taken before).steps, some fault⟩ := by
  induction before generalizing taken earlier with
  | nil =>
    obtain ⟨name, entity⟩ := e
    obtain ⟨rfl, hmarker, hrefuses⟩ := hblames
    rw [List.append_nil, ← renameSource_eq_error_iff htaken] at hrefuses
    simp only [List.nil_append, additions, hmarker, hrefuses]
  | cons first rest ih =>
    obtain ⟨name, entity⟩ := first
    rw [List.append_cons] at hblames
    cases hmarker : marker entity with
    | none =>
      simp only [List.cons_append, additions, hmarker] at hbefore ⊢
      rw [ih (htaken.unmarked hmarker) hbefore hblames]
    | some source =>
      cases hsource : renameSource prev next taken source with
      | error problem => simp [additions, hmarker, hsource] at hbefore
      | ok entity' =>
        simp only [List.cons_append, additions, hmarker, hsource] at hbefore ⊢
        rw [ih (htaken.marked hmarker) hbefore hblames]

theorem exists_blames (htaken : TakenBy marker earlier taken)
    (h : (additions marker prev next taken es).fault = some fault) :
    ∃ before e after, es = before ++ e :: after ∧
      (additions marker prev next taken before).fault = none ∧
        Blames marker prev next (earlier ++ before) e fault := by
  -- The old names taken grow with the entries passed, so both stay general in the induction.
  induction es generalizing taken earlier with
  | nil => cases h
  | cons first rest ih =>
    obtain ⟨name, entity⟩ := first
    cases hmarker : marker entity with
    | none =>
      simp only [additions, hmarker] at h
      obtain ⟨before, e, after, rfl, hbefore, hblames⟩ :=
        ih (htaken.unmarked (e := (name, entity)) hmarker) h
      refine ⟨(name, entity) :: before, e, after, rfl, ?_, ?_⟩
      · simpa only [additions, hmarker] using hbefore
      · rwa [List.append_cons]
    | some source =>
      cases hsource : renameSource prev next taken source with
      | error problem =>
        simp only [additions, hmarker, hsource, Option.some.injEq] at h
        subst h
        refine ⟨[], (name, entity), rest, rfl, rfl, rfl, hmarker, ?_⟩
        rwa [List.append_nil, ← renameSource_eq_error_iff htaken]
      | ok entity' =>
        simp only [additions, hmarker, hsource] at h
        obtain ⟨before, e, after, rfl, hbefore, hblames⟩ :=
          ih (htaken.marked (e := (name, entity)) hmarker) h
        refine ⟨(name, entity) :: before, e, after, rfl, ?_, ?_⟩
        · simpa only [additions, hmarker, hsource] using hbefore
        · rwa [List.append_cons]

/-- Additions come to their end exactly if every marker can be honoured after those before it. -/
theorem fault_additions_eq_none_iff_honours :
    (additions marker prev next [] es).fault = none ↔
      ∀ before e after, es = before ++ e :: after → Honours marker prev next before e := by
  constructor
  · rintro h before e after rfl
    rw [honours_iff]
    intro fault hblames
    cases hbefore : (additions marker prev next [] before).fault with
    | none =>
      rw [additions_of_blames takenBy_nil hbefore hblames] at h
      cases h
    | some earliest =>
      -- An entry before it is to blame already.
      obtain ⟨pre, e', post, rfl, hpre, hblames'⟩ := exists_blames takenBy_nil hbefore
      rw [List.append_assoc, List.cons_append, additions_of_blames takenBy_nil hpre hblames'] at h
      cases h
  · intro h
    cases hfault : (additions marker prev next [] es).fault with
    | none => rfl
    | some fault =>
      obtain ⟨before, e, after, rfl, -, hblames⟩ := exists_blames takenBy_nil hfault
      exact absurd hblames (honours_iff.1 (h before e after rfl) fault)

/-- The fault of a traversal is that of its additions. -/
theorem fault_between : (between marker prev next).fault =
    (additions marker prev next [] (newcomers prev next)).fault := by
  unfold between
  dsimp only
  rw [select_added]
  cases hadditions : (additions marker prev next [] (newcomers prev next)).fault with
  | none => rfl
  | some fault => exact hadditions

/-- After a fault there is nothing else. -/
theorem between_of_fault (h : (between marker prev next).fault = some fault) :
    between marker prev next = additions marker prev next [] (newcomers prev next) := by
  rw [fault_between] at h
  unfold between
  dsimp only
  rw [select_added, h]

/-! ### The calls of a traversal -/

/-- The calls of a traversal, for a driver that does as it is told: if there is no fault, they are
those of turns that fit the two maps, one for each name that is not reserved, in three phases. A
fault there is exactly if a marker of a new entity cannot be honoured; it is the first that there
is, and the calls are those for the new entities before it. -/
theorem between_spec (marker : α → Option String) (prev next : OrderedMap α) :
    (∀ (call : Plan → Change α → Plan) (qualify : String → String) (plan : Plan),
      Plan.follow (fun plan change => .ok (call plan change)) qualify plan
          (between marker prev next) =
        match (between marker prev next).fault with
        | none => .ok ((between marker prev next).steps.foldl call plan)
        | some fault =>
          .error (.invalidRename (qualify fault.name) (qualify fault.source) fault.problem)) ∧
    ((between marker prev next).fault = none →
      ∃ ts : List (Turn α), (between marker prev next).steps = ts.flatMap Turn.steps ∧
        (∀ t ∈ ts, t.Fits marker prev next) ∧
        (∀ name ∈ next.names, isReserved name = false →
          (ts.filterMap Turn.new?).count name = 1) ∧
        (∀ name ∈ prev.names, isReserved name = false →
          (ts.filterMap Turn.old?).count name = 1) ∧
        (∀ t ∈ ts, ∀ name ∈ t.names, isReserved name = true → t.source? = some name) ∧
        ts.map Turn.called =
          (next.names.filter fun n => !isReserved n && !prev.contains n) ++
          (prev.names.filter fun n => !isReserved n && !next.contains n &&
            !(ts.filterMap Turn.source?).contains n) ++
          next.names.filter fun n => !isReserved n && prev.contains n) ∧
    ((between marker prev next).fault ≠ none ↔
      ∃ before e after, newcomers prev next = before ++ e :: after ∧
        ¬Honours marker prev next before e) ∧
    ∀ fault, (between marker prev next).fault = some fault ↔
      ∃ before e after, newcomers prev next = before ++ e :: after ∧
        (∀ pre e' post, before = pre ++ e' :: post → Honours marker prev next pre e') ∧
        Blames marker prev next before e fault ∧
        ∃ ts : List (Turn α), (between marker prev next).steps = ts.flatMap Turn.steps ∧
          ts.map Turn.called = before.map Prod.fst ∧ ∀ t ∈ ts, t.Fits marker prev next := by
  refine ⟨?_, ?_, ?_, ?_⟩
  -- The driver follows all steps; the fault only shows in the outcome.
  · intro call qualify plan
    have hsteps : (between marker prev next).steps.foldlM
        (fun plan change => Except.ok (call plan change)) plan =
          (Except.ok ((between marker prev next).steps.foldl call plan) :
            Except MigrationError Plan) :=
      List.foldlM_pure
    rw [Plan.follow, hsteps]
    cases (between marker prev next).fault <;> rfl
  · intro hfault
    have h := fault_between_eq_none_iff.1 hfault
    refine ⟨turns marker prev next, steps_between h, fun t => (mem_turns_iff h).1,
      fun name => count_new h, fun name => count_old h, ?_, ?_⟩
    · intro t ht name hname hreserved
      exact ((mem_turns_iff h).1 ht).source?_of_isReserved hname hreserved
    · rw [fault_between] at hfault
      rw [sources_turns, turns, List.map_append, List.map_append, called_departures, called_stays,
        arrivals, select_added, called_arrivals hfault, names_newcomers]
  · rw [fault_between, ne_eq, fault_additions_eq_none_iff_honours]
    push Not
    rfl
  · intro fault
    constructor
    · intro hfault
      rw [between_of_fault hfault]
      rw [fault_between] at hfault
      obtain ⟨before, e, after, hnew, hbefore, hblames⟩ := exists_blames takenBy_nil hfault
      refine ⟨before, e, after, hnew, fault_additions_eq_none_iff_honours.1 hbefore, hblames,
        before.filterMap (Turn.arrival? marker prev), ?_, called_arrivals hbefore, ?_⟩
      -- The entries before the one to blame came to their end, so their steps are those of turns.
      · rw [hnew, additions_of_blames takenBy_nil hbefore hblames]
        exact steps_additions hbefore
      · intro t
        refine fits_of_mem_arrivals fun e' he' => ?_
        rw [hnew]
        exact List.mem_append_left _ he'
    · rintro ⟨before, e, after, hnew, hhonours, hblames, -⟩
      rw [fault_between, hnew, additions_of_blames takenBy_nil
        (fault_additions_eq_none_iff_honours.2 hhonours) hblames]

/-- Entities that are nothing but their markers: one is new, one renamed, one gone and one kept. -/
example : (between id (.ofList [("a", none), ("b", none), ("old", none)])
    (.ofList [("c", none), ("b", none), ("new", some "old")])).steps =
      [.create "c" none, .rename "old" "new" none, .change "new" none (some "old"),
        .remove "a" none, .change "b" none none] := by
  rfl

end Schemata.Changes
