import Schemata.Migration.NameDiff

/-!
# The changes between two ordered maps

What it takes to get from one map of named entities to the next: first the added entities in
their new order, each created or renamed from an entity of the first map; then the removals in
the old order; then the entities present on both sides in the new order. A renaming is followed
at once by the change of the contents.

A renaming has to take a name that exists before, is gone after and is not taken twice. The
first one that does not is a fault, and nothing follows it.

## Main definitions

* `Change`: one step
* `RenameFault`: a marker that cannot be honoured
* `changes`: the steps from one map to the next, up to the first fault
-/

namespace Schemata

universe u

/-- A step from one map of entities to the next. -/
inductive Change (α : Type u)
  /-- The entity is new. -/
  | create (name : String) (next : α)
  /-- The entity gets another name. -/
  | rename (source target : String) (prev : α)
  /-- The entity is gone. -/
  | remove (name : String) (prev : α)
  /-- The entity stays, with contents that may differ. -/
  | change (name : String) (prev next : α)

/-- Why a marker cannot be honoured. -/
inductive MarkerProblem
  /-- The old name does not exist before. -/
  | noSource
  /-- The old name still exists after. -/
  | sourceKept
  /-- Another entity took the old name already. -/
  | sourceTaken
  deriving DecidableEq

/-- The words for the problem. -/
def MarkerProblem.text : MarkerProblem → String
  | noSource => "the source does not exist"
  | sourceKept => "the source still exists"
  | sourceTaken => "the source was already renamed to something else"

/-- A marker that cannot be honoured. -/
structure RenameFault where
  /-- The entity with the marker. -/
  name : String
  /-- The name in the marker. -/
  source : String
  /-- Why it cannot be honoured. -/
  problem : MarkerProblem
  deriving DecidableEq

/-- The steps of a map, and the fault that ends them, if there is one. -/
structure Changes (α : Type u) where
  /-- The steps in order. -/
  steps : List (Change α)
  /-- The fault after them. -/
  fault : Option RenameFault

namespace Changes

variable {α : Type u}

/-- The old names that the steps take. -/
def sources (steps : List (Change α)) : List String :=
  steps.filterMap fun
    | .rename source _ _ => some source
    | _ => none

/-- The entity before a renaming, or the problem with it. The names in `taken` are already used. -/
def renameSource (prev next : OrderedMap α) (taken : List String) (source : String) :
    Except MarkerProblem α :=
  match prev.find? source with
  | none => .error .noSource
  | some entity =>
    if next.contains source then .error .sourceKept
    else if taken.contains source then .error .sourceTaken
    else .ok entity

/-- The steps of the added entities. -/
def additions (marker : α → Option String) (prev next : OrderedMap α) (taken : List String) :
    List (String × α) → Changes α
  | [] => ⟨[], none⟩
  | (name, entity) :: rest =>
    match marker entity with
    | none =>
      let later := additions marker prev next taken rest
      ⟨.create name entity :: later.steps, later.fault⟩
    | some source =>
      -- A fault ends the steps here; those before it have been taken.
      match renameSource prev next taken source with
      | .error problem => ⟨[], some ⟨name, source, problem⟩⟩
      | .ok before =>
        let later := additions marker prev next (source :: taken) rest
        -- The contents are compared under the new name, right after the renaming.
        ⟨.rename source name before :: .change name before entity :: later.steps, later.fault⟩

/-- The entities of the given names, with their names. -/
def select (map : OrderedMap α) (names : List String) : List (String × α) :=
  names.filterMap fun name => (map.find? name).map fun entity => (name, entity)

/-- The steps from one map to the next. -/
def between (marker : α → Option String) (prev next : OrderedMap α) : Changes α :=
  let diff := NameDiff.between prev.names next.names
  let added := additions marker prev next [] (select next diff.added)
  match added.fault with
  | some _ => added
  | none =>
    let removed := (select prev diff.removed).filter fun (name, _) =>
      !(sources added.steps).contains name
    let removals := removed.map fun (name, entity) => .remove name entity
    let common := (select next diff.common).filterMap fun (name, entity) =>
      (prev.find? name).map fun before => .change name before entity
    ⟨added.steps ++ removals ++ common, none⟩

end Changes

end Schemata
