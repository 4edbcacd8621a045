/-!
# Named entries in order

A list of named values in which the order is part of the value: the names of a schema's
tables, of a table's columns, of the fields of a projection, of the keys of a document.
Writing under a name that is already there changes the value and keeps the place; writing
under a new name adds at the end; removal closes the gap.

## Main definitions

* `Entries.find?`, `Entries.set`, `Entries.erase`: look-up, writing and removal
* `Entries.names`: the names in order

## Main results

* `find?_set`, `find?_erase`: what a look-up sees after a change
* `names_set_of_mem`, `names_set_of_not_mem`, `names_erase`: how a change moves the names
* `nodup_names_set`, `nodup_names_erase`: no operation makes a name occur twice
-/

namespace Schemata.Entries

universe u v

variable {α : Type u} {β : Type v}

/-- The names of the entries in order. -/
def names (es : List (String × α)) : List String := es.map Prod.fst

/-- The value of the first entry called `name`. -/
def find? (es : List (String × α)) (name : String) : Option α :=
  match es with
  | [] => none
  | (n, a) :: rest => if n = name then some a else find? rest name

/-- Writes `a` under `name`: in the place of the entry of that name, at the end if there is none. -/
def set (es : List (String × α)) (name : String) (a : α) : List (String × α) :=
  match es with
  | [] => [(name, a)]
  | (n, b) :: rest => if n = name then (n, a) :: rest else (n, b) :: set rest name a

/-- Removes the first entry called `name` and keeps the order of the others. -/
def erase (es : List (String × α)) (name : String) : List (String × α) :=
  match es with
  | [] => []
  | (n, b) :: rest => if n = name then rest else (n, b) :: erase rest name

/-- The value of every entry replaced by its image. -/
def mapValues (f : α → β) (es : List (String × α)) : List (String × β) :=
  es.map fun e => (e.1, f e.2)

@[simp] theorem names_nil : names ([] : List (String × α)) = [] := rfl

@[simp] theorem names_cons (e : String × α) (es : List (String × α)) :
    names (e :: es) = e.1 :: names es := rfl

@[simp] theorem names_mapValues (f : α → β) (es : List (String × α)) :
    names (mapValues f es) = names es := by
  simp [names, mapValues]

theorem find?_eq_none_iff {es : List (String × α)} {name : String} :
    find? es name = none ↔ name ∉ names es := by
  induction es with
  | nil => simp [find?]
  | cons e rest ih =>
    by_cases h : e.1 = name
    · simp [find?, h]
    · simp [find?, h, ih, Ne.symm h]

theorem isSome_find?_iff {es : List (String × α)} {name : String} :
    (find? es name).isSome ↔ name ∈ names es := by
  rw [← Decidable.not_iff_not, ← find?_eq_none_iff]
  simp

/-- Entries that are selected and changed under their names still differ in their names. -/
theorem nodup_names_filterMap {es : List (String × α)} (h : (names es).Nodup) (f : α → Option β) :
    (names (es.filterMap fun e => (f e.2).map (e.1, ·))).Nodup := by
  unfold names List.Nodup at *
  rw [List.pairwise_map] at h ⊢
  rw [List.pairwise_filterMap]
  refine h.imp fun hne b hb b' hb' => ?_
  obtain ⟨_, -, rfl⟩ := Option.map_eq_some_iff.1 hb
  obtain ⟨_, -, rfl⟩ := Option.map_eq_some_iff.1 hb'
  exact hne

theorem find?_set (es : List (String × α)) (name other : String) (a : α) :
    find? (set es name a) other = if name = other then some a else find? es other := by
  induction es with
  | nil => simp [set, find?]
  | cons e rest ih =>
    by_cases h : e.1 = name
    · subst h; by_cases h' : e.1 = other <;> simp [set, find?, h']
    · by_cases h' : e.1 = other
      · subst h'; simp [set, find?, h, Ne.symm h]
      · simp [set, find?, h, h', ih]

@[simp] theorem find?_set_self (es : List (String × α)) (name : String) (a : α) :
    find? (set es name a) name = some a := by
  simp [find?_set]

theorem find?_mapValues (f : α → β) (es : List (String × α)) (name : String) :
    find? (mapValues f es) name = (find? es name).map f := by
  induction es with
  | nil => rfl
  | cons e rest ih =>
    by_cases h : e.1 = name <;> simp_all [find?, mapValues]

/-- A value under a new name stands behind all others. -/
theorem set_of_not_mem {es : List (String × α)} {name : String} (a : α) (h : name ∉ names es) :
    set es name a = es ++ [(name, a)] := by
  induction es with
  | nil => rfl
  | cons e rest ih =>
    have hne : e.1 ≠ name := fun eq => h (by simp [eq])
    have hrest : name ∉ names rest := fun hm => h (by simp [hm])
    simp [set, hne, ih hrest]

/-- After writing there is what was written, and what was there. -/
theorem mem_of_mem_set {es : List (String × α)} {name : String} {a : α} {e : String × α}
    (h : e ∈ set es name a) : e = (name, a) ∨ e ∈ es := by
  induction es with
  | nil => exact .inl (List.mem_singleton.1 h)
  | cons first rest ih =>
    obtain ⟨n, b⟩ := first
    rw [set] at h
    split at h <;> rcases List.mem_cons.1 h with rfl | h
    · exact .inl (by simp_all)
    · exact .inr (List.mem_cons_of_mem _ h)
    · exact .inr (by simp)
    · exact (ih h).imp_right (List.mem_cons_of_mem _)

theorem names_set_of_mem {es : List (String × α)} {name : String} (a : α)
    (h : name ∈ names es) : names (set es name a) = names es := by
  induction es with
  | nil => simp at h
  | cons e rest ih =>
    by_cases he : e.1 = name
    · simp [set, he]
    · have : name ∈ names rest := by simpa [Ne.symm he] using h
      simp [set, he, ih this]

theorem names_set_of_not_mem {es : List (String × α)} {name : String} (a : α)
    (h : name ∉ names es) : names (set es name a) = names es ++ [name] := by
  induction es with
  | nil => simp [set]
  | cons e rest ih =>
    have he : e.1 ≠ name := fun eq => h (by simp [eq])
    have hr : name ∉ names rest := fun m => h (by simp [m])
    simp [set, he, ih hr]

theorem names_erase (es : List (String × α)) (name : String) :
    names (erase es name) = (names es).erase name := by
  induction es with
  | nil => rfl
  | cons e rest ih =>
    by_cases h : e.1 = name
    · simp [erase, h]
    · simp [erase, h, ih]

theorem nodup_names_set {es : List (String × α)} (name : String) (a : α)
    (h : (names es).Nodup) : (names (set es name a)).Nodup := by
  by_cases hm : name ∈ names es
  · rwa [names_set_of_mem a hm]
  · rw [names_set_of_not_mem a hm]
    refine List.nodup_append.2 ⟨h, by simp, fun x hx y hy => ?_⟩
    rw [List.mem_singleton] at hy
    subst hy
    exact fun eq => hm (eq ▸ hx)

theorem nodup_names_erase {es : List (String × α)} (name : String) (h : (names es).Nodup) :
    (names (erase es name)).Nodup := by
  rw [names_erase]
  exact h.erase name

theorem find?_erase {es : List (String × α)} (h : (names es).Nodup) (name other : String) :
    find? (erase es name) other = if name = other then none else find? es other := by
  induction es with
  | nil => simp [erase, find?]
  | cons e rest ih =>
    have hrest : (names rest).Nodup := (List.nodup_cons.1 h).2
    have hfresh : e.1 ∉ names rest := (List.nodup_cons.1 h).1
    by_cases he : e.1 = name
    · subst he
      by_cases ho : e.1 = other
      · subst ho; simpa [erase, find?] using find?_eq_none_iff.2 hfresh
      · simp [erase, find?, ho]
    · by_cases ho : e.1 = other
      · subst ho; simp [erase, find?, he, Ne.symm he]
      · simp [erase, find?, he, ho, ih hrest]

end Schemata.Entries
