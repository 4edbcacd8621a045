import Schemata.Entries

/-!
# Maps that keep the order of insertion

A map from names to values whose entries stand in the order in which their names were first
written. No name occurs twice; the type carries the proof, so every map built by the
operations below is a map without a side condition.

## Main definitions

* `OrderedMap.insert`, `OrderedMap.erase`, `OrderedMap.map`, `OrderedMap.filter`: the operations
* `OrderedMap.find?`, `OrderedMap.names`: the view of a map

## Main results

* `find?_insert`, `find?_erase`, `find?_map`, `find?_filter`: one look-up law per operation
* `mem_entries_iff`: an entry is in the map exactly if its name is found with its value
* `find?_eq_of_perm`, `eq_of_names_eq`: a look-up does not see the order of the entries, and the
  look-ups and that order are all there is to a map
* `map_eq_self_iff`: a map is its own image exactly if all its values are
* `ofList_entries`, `mem_entries_ofList`: a map is read back from its entries, and holds only what
  was written
-/

namespace Schemata

universe u v

/-- A map from names to values, in order of first insertion. -/
structure OrderedMap (α : Type u) where
  /-- The named values in order. -/
  entries : List (String × α)
  /-- No name occurs twice. -/
  nodup : (Entries.names entries).Nodup := by simp
  deriving DecidableEq

namespace OrderedMap

variable {α : Type u} {β : Type v}

/-- The map without entries. -/
def empty : OrderedMap α := ⟨[], by simp⟩

instance : EmptyCollection (OrderedMap α) := ⟨empty⟩

instance : Inhabited (OrderedMap α) := ⟨empty⟩

/-- The names in order. -/
def names (m : OrderedMap α) : List String := Entries.names m.entries

/-- The values in order. -/
def values (m : OrderedMap α) : List α := m.entries.map Prod.snd

/-- The value under a name. -/
def find? (m : OrderedMap α) (name : String) : Option α := Entries.find? m.entries name

/-- Whether a name has a value. -/
def contains (m : OrderedMap α) (name : String) : Bool := (m.find? name).isSome

/-- Writes a value under a name; a new name goes to the end, a known one keeps its place. -/
def insert (m : OrderedMap α) (name : String) (a : α) : OrderedMap α :=
  ⟨Entries.set m.entries name a, Entries.nodup_names_set name a m.nodup⟩

/-- Removes a name and closes the gap. -/
def erase (m : OrderedMap α) (name : String) : OrderedMap α :=
  ⟨Entries.erase m.entries name, Entries.nodup_names_erase name m.nodup⟩

/-- The same names with the images of their values. -/
def map (f : α → β) (m : OrderedMap α) : OrderedMap β :=
  ⟨Entries.mapValues f m.entries, by simpa using m.nodup⟩

/-- The entries whose values satisfy the predicate. -/
def filter (p : α → Bool) (m : OrderedMap α) : OrderedMap α :=
  ⟨m.entries.filter fun e => p e.2, m.nodup.sublist (List.filter_sublist.map _)⟩

/-- The map that results from writing the pairs one after the other. -/
def ofList (es : List (String × α)) : OrderedMap α :=
  es.foldl (fun m e => m.insert e.1 e.2) empty

@[ext] theorem ext {m n : OrderedMap α} (h : m.entries = n.entries) : m = n := by
  cases m; cases n; cases h; rfl

@[simp] theorem names_empty : (empty : OrderedMap α).names = [] := rfl

@[simp] theorem find?_empty (name : String) : (empty : OrderedMap α).find? name = none := rfl

theorem find?_insert (m : OrderedMap α) (name other : String) (a : α) :
    (m.insert name a).find? other = if name = other then some a else m.find? other :=
  Entries.find?_set ..

theorem find?_erase (m : OrderedMap α) (name other : String) :
    (m.erase name).find? other = if name = other then none else m.find? other :=
  Entries.find?_erase m.nodup ..

@[simp] theorem find?_map (f : α → β) (m : OrderedMap α) (name : String) :
    (m.map f).find? name = (m.find? name).map f :=
  Entries.find?_mapValues ..

@[simp] theorem names_map (f : α → β) (m : OrderedMap α) : (m.map f).names = m.names :=
  Entries.names_mapValues ..

theorem find?_eq_none_iff {m : OrderedMap α} {name : String} :
    m.find? name = none ↔ name ∉ m.names :=
  Entries.find?_eq_none_iff

theorem contains_iff {m : OrderedMap α} {name : String} : m.contains name ↔ name ∈ m.names :=
  Entries.isSome_find?_iff

theorem mem_names_iff {m : OrderedMap α} {name : String} :
    name ∈ m.names ↔ ∃ a, m.find? name = some a := by
  rw [← contains_iff, contains, Option.isSome_iff_exists]

theorem mem_names_of_find? {m : OrderedMap α} {name : String} {a : α}
    (h : m.find? name = some a) : name ∈ m.names :=
  mem_names_iff.2 ⟨a, h⟩

theorem nodup_names (m : OrderedMap α) : m.names.Nodup := m.nodup

/-- An entry is in the map exactly if looking its name up gives its value. -/
theorem mem_entries_iff {m : OrderedMap α} {name : String} {a : α} :
    (name, a) ∈ m.entries ↔ m.find? name = some a := by
  obtain ⟨es, hes⟩ := m
  simp only [find?]
  induction es with
  | nil => simp [Entries.find?]
  | cons e rest ih =>
    have hfresh : e.1 ∉ Entries.names rest := (List.nodup_cons.1 hes).1
    have := ih (List.nodup_cons.1 hes).2
    by_cases h : e.1 = name
    · subst h
      have hout : (e.1, a) ∉ rest := fun hm => hfresh (List.mem_map.2 ⟨_, hm, rfl⟩)
      simp [Entries.find?, hout, Prod.ext_iff, eq_comm]
    · simp [Entries.find?, h, this, Prod.ext_iff, Ne.symm h]

/-- A name is found in a part of the map exactly if its value is in that part. -/
theorem find?_filter (p : α → Bool) (m : OrderedMap α) (name : String) :
    (m.filter p).find? name = (m.find? name).filter p := by
  ext a
  rw [Option.filter_eq_some_iff, ← mem_entries_iff, ← mem_entries_iff]
  simp [filter]

theorem mem_names_filter_iff {p : α → Bool} {m : OrderedMap α} {name : String} :
    name ∈ (m.filter p).names ↔ ∃ a, m.find? name = some a ∧ p a = true := by
  simp only [mem_names_iff, find?_filter, Option.filter_eq_some_iff]

theorem mem_values_iff {m : OrderedMap α} {a : α} :
    a ∈ m.values ↔ ∃ name, m.find? name = some a := by
  simp only [values, List.mem_map, ← mem_entries_iff]
  constructor
  · rintro ⟨⟨name, a⟩, h, rfl⟩
    exact ⟨name, h⟩
  · rintro ⟨name, h⟩
    exact ⟨_, h, rfl⟩

/-- The order of the entries does not count when a name is looked up. -/
theorem find?_eq_of_perm {m n : OrderedMap α} (h : m.entries.Perm n.entries) (name : String) :
    m.find? name = n.find? name := by
  apply Option.ext
  intro a
  rw [← mem_entries_iff, ← mem_entries_iff, h.mem_iff]

/-- Maps with the same values under the same names in the same order are equal. -/
theorem eq_of_names_eq {m n : OrderedMap α} (hnames : m.names = n.names)
    (hfind : ∀ name, m.find? name = n.find? name) : m = n := by
  have hlength : m.entries.length = n.entries.length := by
    simpa [names, Entries.names] using congrArg List.length hnames
  apply OrderedMap.ext
  apply List.ext_getElem hlength
  intro i hm hn
  have hname : m.entries[i].1 = n.entries[i].1 := by
    have hat := congrArg (fun l => l[i]?) hnames
    simpa [names, Entries.names, List.getElem?_eq_getElem hm, List.getElem?_eq_getElem hn] using hat
  have hleft : m.find? m.entries[i].1 = some m.entries[i].2 :=
    mem_entries_iff.1 (List.getElem_mem hm)
  have hright : n.find? n.entries[i].1 = some n.entries[i].2 :=
    mem_entries_iff.1 (List.getElem_mem hn)
  rw [hname, hfind, hright] at hleft
  exact Prod.ext hname (Option.some.inj hleft).symm

/-- A map of values that a function leaves alone is left alone by it. -/
theorem map_eq_self_iff {f : α → α} {m : OrderedMap α} :
    m.map f = m ↔ ∀ a ∈ m.values, f a = a := by
  obtain ⟨es, nodup⟩ := m
  suffices Entries.mapValues f es = es ↔ ∀ a ∈ es.map Prod.snd, f a = a by
    simpa [map, values, OrderedMap.ext_iff] using this
  clear nodup
  induction es with
  | nil => simp [Entries.mapValues]
  | cons e rest ih =>
    simp only [Entries.mapValues, List.map_cons, List.cons.injEq, List.mem_cons] at ih ⊢
    rw [ih]
    constructor
    · rintro ⟨h, hrest⟩ a (rfl | ha)
      · exact congrArg Prod.snd h
      · exact hrest a ha
    · exact fun h => ⟨Prod.ext rfl (h _ (.inl rfl)), fun a ha => h a (.inr ha)⟩

/-! ### Maps written from lists -/

theorem entries_insert_of_not_mem {m : OrderedMap α} {name : String} (a : α)
    (h : name ∉ m.names) : (m.insert name a).entries = m.entries ++ [(name, a)] :=
  Entries.set_of_not_mem a h

/-- Entries of new names are written one behind the other. -/
theorem entries_foldl_insert (es : List (String × α)) (m : OrderedMap α)
    (h : (m.names ++ Entries.names es).Nodup) :
    (es.foldl (fun m e => m.insert e.1 e.2) m).entries = m.entries ++ es := by
  induction es generalizing m with
  | nil => simp
  | cons e rest ih =>
    have hnew : e.1 ∉ m.names := fun hm =>
      (List.nodup_append.1 h).2.2 e.1 hm e.1 (by simp) rfl
    have hentries := entries_insert_of_not_mem e.2 hnew
    have hnames : (m.insert e.1 e.2).names = m.names ++ [e.1] := by
      simp [names, Entries.names, hentries]
    rw [List.foldl_cons, ih _ (by simpa [hnames] using h), hentries]
    simp

/-- A map is read back from its entries. -/
theorem ofList_entries (m : OrderedMap α) : ofList m.entries = m := by
  apply ext
  rw [ofList, entries_foldl_insert]
  · rfl
  · simpa using m.nodup

/-- A map holds only what was written. -/
theorem mem_entries_foldl_insert {es : List (String × α)} {m : OrderedMap α} {e : String × α}
    (h : e ∈ (es.foldl (fun m e => m.insert e.1 e.2) m).entries) : e ∈ es ∨ e ∈ m.entries := by
  induction es generalizing m with
  | nil => exact .inr h
  | cons first rest ih =>
    rcases ih h with h | h
    · exact .inl (List.mem_cons_of_mem _ h)
    · rcases Entries.mem_of_mem_set h with rfl | h
      · exact .inl (by simp)
      · exact .inr h

theorem mem_entries_ofList {es : List (String × α)} {e : String × α}
    (h : e ∈ (ofList es).entries) : e ∈ es := by
  rcases mem_entries_foldl_insert h with h | h
  · exact h
  · cases h

theorem mem_values_ofList {es : List (String × α)} {a : α} (h : a ∈ (ofList es).values) :
    ∃ e ∈ es, e.2 = a := by
  obtain ⟨e, he, rfl⟩ := List.mem_map.1 h
  exact ⟨e, mem_entries_ofList he, rfl⟩

end OrderedMap

end Schemata
