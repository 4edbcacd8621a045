import Mathlib.Data.List.Nodup
import Mathlib.Data.List.Pairwise

/-!
# Runs of local steps

A step is *local* if it touches few names and changes nothing that is seen under other names. When
no two steps of a list touch the same name, their order does not matter for what is seen: each step
finds its own names as they were before the run, and what it makes of them still stands after it.

## Main definitions

* `Runs`: a list of steps leads from one state to another
* `IsLocal`: no step changes what is seen under a name that it does not touch

## Main results

* `Runs.of_start`: each step of a run finds its names as they are at the start
* `Runs.exists_step`: and leaves them as they are at the end
* `Runs.view_eq_of_untouched`: a name that no step touches is seen at the end as at the start
* `exists_runs`: if each step is possible wherever its own names are as at the start, all are
* `exists_runs_to`: and if each step takes its own names where they are to be, the run does
* `runs_foldlM_ok_iff`, `runs_foldlM_some_iff`: runs of functions that may fail
* `exists_of_foldlM_eq_error`: where a run of such a function fails
-/

namespace Schemata

universe u v w

/-- The steps of the list, one after the other, lead from the first state to the second. -/
inductive Runs {σ : Type u} {τ : Type v} (step : σ → τ → σ → Prop) : σ → List τ → σ → Prop
  | nil (s : σ) : Runs step s [] s
  | cons {s s' s'' : σ} {t : τ} {rest : List τ} :
      step s t s' → Runs step s' rest s'' → Runs step s (t :: rest) s''

section Runs

variable {σ : Type u} {τ : Type v} {step : σ → τ → σ → Prop} {s s' : σ} {t : τ} {ts : List τ}

@[simp] theorem runs_nil_iff : Runs step s [] s' ↔ s = s' := by
  constructor
  · rintro ⟨⟩
    rfl
  · rintro rfl
    exact .nil s

@[simp] theorem runs_cons_iff :
    Runs step s (t :: ts) s' ↔ ∃ m, step s t m ∧ Runs step m ts s' := by
  constructor
  · rintro (_ | ⟨hstep, hrest⟩)
    exact ⟨_, hstep, hrest⟩
  · rintro ⟨m, hstep, hrest⟩
    exact .cons hstep hrest

/-- A run over two lists in a row is a run over the first and one over the second. -/
theorem runs_append_iff {ts' : List τ} :
    Runs step s (ts ++ ts') s' ↔ ∃ m, Runs step s ts m ∧ Runs step m ts' s' := by
  induction ts generalizing s with
  | nil => simp
  | cons t ts ih =>
    simp only [List.cons_append, runs_cons_iff, ih]
    exact ⟨fun ⟨m, hstep, m', hrun, hrest⟩ => ⟨m', ⟨m, hstep, hrun⟩, hrest⟩,
      fun ⟨m', ⟨m, hstep, hrun⟩, hrest⟩ => ⟨m, hstep, m', hrun, hrest⟩⟩

/-- What every step of a run keeps, the run keeps. -/
theorem Runs.invariant {P : σ → Prop} (hrun : Runs step s ts s')
    (hkeep : ∀ a b, ∀ t ∈ ts, step a t b → P a → P b) (hs : P s) : P s' := by
  induction hrun with
  | nil s => exact hs
  | cons hstep _ ih =>
    exact ih (fun a b t ht => hkeep a b t (List.mem_cons_of_mem _ ht))
      (hkeep _ _ _ List.mem_cons_self hstep hs)

/-- A run stays a run when each of its steps is known to be a step of another kind. -/
theorem Runs.imp {step' : σ → τ → σ → Prop} (hrun : Runs step s ts s')
    (himp : ∀ a b, ∀ t ∈ ts, step a t b → step' a t b) : Runs step' s ts s' := by
  induction hrun with
  | nil s => exact .nil s
  | cons hstep _ ih =>
    exact .cons (himp _ _ _ List.mem_cons_self hstep)
      (ih fun a b t ht => himp a b t (List.mem_cons_of_mem _ ht))

theorem runs_congr {step' : σ → τ → σ → Prop}
    (hstep : ∀ a b, ∀ t ∈ ts, step a t b ↔ step' a t b) : Runs step s ts s' ↔ Runs step' s ts s' :=
  ⟨fun hrun => hrun.imp fun a b t ht => (hstep a b t ht).1,
    fun hrun => hrun.imp fun a b t ht => (hstep a b t ht).2⟩

theorem runs_map_iff {υ : Type*} {f : υ → τ} {us : List υ} :
    Runs step s (us.map f) s' ↔ Runs (fun a u b => step a (f u) b) s us s' := by
  induction us generalizing s with
  | nil => simp
  | cons u us ih => simp only [List.map_cons, runs_cons_iff, ih]

/-- A list to which each step appends has all that they append at the end. -/
theorem Runs.append_eq {β : Type*} {f : σ → List β} {g : τ → List β} (hrun : Runs step s ts s')
    (hstep : ∀ a b, ∀ t ∈ ts, step a t b → f b = f a ++ g t) : f s' = f s ++ ts.flatMap g := by
  induction hrun with
  | nil s => simp
  | cons hfirst _ ih =>
    rw [ih fun a b t ht => hstep a b t (List.mem_cons_of_mem _ ht),
      hstep _ _ _ List.mem_cons_self hfirst, List.flatMap_cons, List.append_assoc]

/-- Every step of a run is taken somewhere. -/
theorem Runs.exists_of_mem (hrun : Runs step s ts s') (ht : t ∈ ts) : ∃ a b, step a t b := by
  induction hrun with
  | nil s => simp at ht
  | cons hstep _ ih =>
    rcases List.mem_cons.1 ht with rfl | ht
    · exact ⟨_, _, hstep⟩
    · exact ih ht

/-- Folding over lists in a row is folding over each of them in turn. -/
theorem foldlM_flatMap {m : Type u → Type w} [Monad m] [LawfulMonad m] {α : Type*} (f : σ → α → m σ)
    (g : τ → List α) (ts : List τ) (s : σ) :
    (ts.flatMap g).foldlM f s = ts.foldlM (fun a t => (g t).foldlM f a) s := by
  induction ts generalizing s with
  | nil => rfl
  | cons t ts ih => simp only [List.flatMap_cons, List.foldlM_append, List.foldlM_cons, ih]

/-- An element of several lists in a row is in one of them. -/
theorem exists_of_flatMap_eq_append_cons {α β : Type*} {f : α → List β} {l : List α} {b : β}
    {xs ys : List β} (h : l.flatMap f = xs ++ b :: ys) :
    ∃ us a vs xs' ys', l = us ++ a :: vs ∧ f a = xs' ++ b :: ys' ∧
      xs = us.flatMap f ++ xs' ∧ ys = ys' ++ vs.flatMap f := by
  induction l generalizing xs with
  | nil => simp at h
  | cons first l ih =>
    -- What comes before it reaches beyond the first of the lists, or it does not.
    obtain ⟨zs, rfl, hrest⟩ | ⟨zs, hfirst, hrest⟩ := List.append_eq_append_iff.1 h
    · obtain ⟨us, a, vs, xs', ys', rfl, ha, rfl, rfl⟩ := ih hrest
      exact ⟨first :: us, a, vs, xs', ys', rfl, ha, by simp, rfl⟩
    · cases zs with
      | nil =>
        have hempty : l.flatMap f = [] ++ b :: ys := hrest.symm
        obtain ⟨us, a, vs, xs', ys', rfl, ha, hxs, rfl⟩ := ih hempty
        refine ⟨first :: us, a, vs, xs', ys', rfl, ha, ?_, rfl⟩
        rw [List.flatMap_cons, hfirst, List.append_assoc, ← hxs]
        simp
      | cons c zs =>
        obtain ⟨rfl, rfl⟩ := List.cons_eq_cons.1 hrest
        exact ⟨[], first, l, xs, zs, rfl, hfirst, rfl, rfl⟩

/-- A computation and what follows it succeed together exactly if each of them does. -/
theorem bind_eq_ok_iff {ε : Type w} {α β : Type u} {x : Except ε α} {f : α → Except ε β} {b : β} :
    x >>= f = .ok b ↔ ∃ a, x = .ok a ∧ f a = .ok b := by
  cases x <;> simp [bind, Except.bind]

/-- A computation and what follows it fail together exactly if one of them does. -/
theorem bind_eq_error_iff {ε : Type w} {α β : Type u} {x : Except ε α} {f : α → Except ε β}
    {e : ε} :
    x >>= f = .error e ↔ x = .error e ∨ ∃ a, x = .ok a ∧ f a = .error e := by
  cases x <;> simp [bind, Except.bind]

/-- A function that may fail with an error runs exactly if it succeeds on every step in turn. -/
theorem runs_foldlM_ok_iff {ε : Type w} {f : σ → τ → Except ε σ} :
    ts.foldlM f s = .ok s' ↔ Runs (fun a t b => f a t = .ok b) s ts s' := by
  induction ts generalizing s with
  | nil => simp [pure, Except.pure]
  | cons t ts ih =>
    simp only [List.foldlM_cons, bind_eq_ok_iff, runs_cons_iff, ih]

/-- A run of a function that may fail does so at one of its steps, to which the others lead. -/
theorem exists_of_foldlM_eq_error {ε : Type w} {f : σ → τ → Except ε σ} {e : ε}
    (h : ts.foldlM f s = .error e) :
    ∃ before t after m,
      ts = before ++ t :: after ∧ before.foldlM f s = .ok m ∧ f m t = .error e := by
  induction ts generalizing s with
  | nil => cases h
  | cons first rest ih =>
    rw [List.foldlM_cons, bind_eq_error_iff] at h
    rcases h with hfirst | ⟨m, hfirst, hrest⟩
    · exact ⟨[], first, rest, s, rfl, rfl, hfirst⟩
    · obtain ⟨before, t, after, m', rfl, hbefore, hstep⟩ := ih hrest
      refine ⟨first :: before, t, after, m', rfl, ?_, hstep⟩
      rw [List.foldlM_cons, bind_eq_ok_iff]
      exact ⟨m, hfirst, hbefore⟩

/-- A partial function runs exactly if it is defined on every step in turn. -/
theorem runs_foldlM_some_iff {f : σ → τ → Option σ} :
    ts.foldlM f s = some s' ↔ Runs (fun a t b => f a t = some b) s ts s' := by
  induction ts generalizing s with
  | nil => simp
  | cons t ts ih =>
    rw [List.foldlM_cons, runs_cons_iff]
    cases h : f s t with
    | none => simp
    | some m => simp [ih]

end Runs

/-! ### Steps that touch few names -/

section Locality

variable {σ : Type u} {τ : Type v} {κ ν : Type*} {step : σ → τ → σ → Prop}
variable {view : σ → κ → ν} {touched : τ → List κ} {s s' : σ} {ts : List τ}

/-- No step changes what is seen under a name that it does not touch. -/
def IsLocal (view : σ → κ → ν) (touched : τ → List κ) (step : σ → τ → σ → Prop) : Prop :=
  ∀ a t b, step a t b → ∀ k ∉ touched t, view b k = view a k

/-- No two of the steps touch the same name. -/
def Independent (touched : τ → List κ) (ts : List τ) : Prop :=
  ts.Pairwise fun t t' => (touched t).Disjoint (touched t')

/-- A name tells which of the independent steps touches it. -/
theorem Independent.eq_of_mem {t t' : τ} {k : κ} (hind : Independent touched ts) (ht : t ∈ ts)
    (ht' : t' ∈ ts) (hk : k ∈ touched t) (hk' : k ∈ touched t') : t = t' := by
  by_contra hne
  have hsymm : Std.Symm fun t t' => (touched t).Disjoint (touched t') :=
    ⟨fun _ _ hdisjoint _ hx hx' => hdisjoint hx' hx⟩
  exact hind.forall ht ht' hne hk hk'

/-- Of lists that make up one without repetition, an element tells which it is in. -/
theorem eq_of_mem_flatMap {t t' : τ} {k : κ} (hnodup : (ts.flatMap touched).Nodup) (ht : t ∈ ts)
    (ht' : t' ∈ ts) (hk : k ∈ touched t) (hk' : k ∈ touched t') : t = t' :=
  Independent.eq_of_mem (List.nodup_flatMap.1 hnodup).2 ht ht' hk hk'

/-- Under a name that no step touches, the same is seen before and after. -/
theorem Runs.view_eq_of_untouched (hlocal : IsLocal view touched step) (hrun : Runs step s ts s')
    {k : κ} (hk : ∀ t ∈ ts, k ∉ touched t) : view s' k = view s k := by
  -- The induction is on the run, and what is seen at its end is brought back step by step.
  induction hrun with
  | nil s => rfl
  | cons hstep _ ih =>
    rw [ih fun t ht => hk t (List.mem_cons_of_mem _ ht)]
    exact hlocal _ _ _ hstep k (hk _ List.mem_cons_self)

/-- Each of a run's independent steps finds its names as they are at the start. -/
theorem Runs.of_start (hlocal : IsLocal view touched step) (hind : Independent touched ts)
    (hrun : Runs step s ts s') :
    Runs (fun a t b => step a t b ∧ ∀ k ∈ touched t, view a k = view s k) s ts s' := by
  induction hrun with
  | nil s => exact .nil s
  | @cons s m s' first rest hstep _ ih =>
    obtain ⟨hfirst, hind⟩ := List.pairwise_cons.1 hind
    -- A later step finds its names as they are after the first one, which does not touch them.
    refine .cons ⟨hstep, fun k _ => rfl⟩ ((ih hind).imp fun a b t ht hab => ⟨hab.1, fun k hk => ?_⟩)
    rw [hab.2 k hk]
    exact hlocal _ _ _ hstep k fun hk' => hfirst t ht hk' hk

/-- Each of a run's independent steps finds its names as they are at the start, and leaves them as
they are at the end. -/
theorem Runs.exists_step (hlocal : IsLocal view touched step) (hind : Independent touched ts)
    (hrun : Runs step s ts s') {t : τ} (ht : t ∈ ts) :
    ∃ a b, step a t b ∧ (∀ k ∈ touched t, view a k = view s k) ∧
      ∀ k ∈ touched t, view s' k = view b k := by
  induction hrun with
  | nil s => simp at ht
  | @cons s m s' first rest hstep hrest ih =>
    obtain ⟨hfirst, hind⟩ := List.pairwise_cons.1 hind
    rcases List.mem_cons.1 ht with rfl | ht
    · -- Nothing after the first step touches its names.
      refine ⟨s, m, hstep, fun k _ => rfl, fun k hk => ?_⟩
      exact hrest.view_eq_of_untouched hlocal fun t' ht' hk' => hfirst t' ht' hk hk'
    · obtain ⟨a, b, hab, hstart, hend⟩ := ih hind ht
      refine ⟨a, b, hab, fun k hk => ?_, hend⟩
      rw [hstart k hk]
      exact hlocal _ _ _ hstep k fun hk' => hfirst t ht hk' hk

/-- Independent steps run if each of them is possible wherever its own names are as they are at
the start. -/
theorem exists_runs (hlocal : IsLocal view touched step) (hind : Independent touched ts)
    (hready : ∀ t ∈ ts, ∀ a, (∀ k ∈ touched t, view a k = view s k) → ∃ b, step a t b) :
    ∃ s', Runs step s ts s' := by
  induction ts generalizing s with
  | nil => exact ⟨s, .nil s⟩
  | cons first rest ih =>
    obtain ⟨hfirst, hind⟩ := List.pairwise_cons.1 hind
    obtain ⟨m, hstep⟩ := hready first List.mem_cons_self s fun k _ => rfl
    -- What the rest needs at the start, the first step has left as it was.
    have hrest : ∀ t ∈ rest, ∀ a, (∀ k ∈ touched t, view a k = view m k) → ∃ b, step a t b := by
      intro t ht a ha
      refine hready t (List.mem_cons_of_mem _ ht) a fun k hk => ?_
      rw [ha k hk]
      exact hlocal _ _ _ hstep k fun hk' => hfirst t ht hk' hk
    obtain ⟨s', hrun⟩ := ih hind hrest
    exact ⟨s', .cons hstep hrun⟩

variable (step view) in
/-- Independent steps run from the one view to the other if each of them takes its own names there
and leaves the rest alone, and nothing is to become of the names that no step touches. -/
theorem exists_runs_to {start final : κ → ν} (hind : Independent touched ts)
    (hstep : ∀ t ∈ ts, ∀ a, (∀ k ∈ touched t, view a k = start k) →
      ∃ b, step a t b ∧
        (∀ k ∈ touched t, view b k = final k) ∧ ∀ k ∉ touched t, view b k = view a k)
    (hrest : ∀ k, (∀ t ∈ ts, k ∉ touched t) → start k = final k) (hs : ∀ k, view s k = start k) :
    ∃ s', Runs step s ts s' ∧ ∀ k, view s' k = final k := by
  -- Steps that also do what is asked of them are local by what is asked.
  let Step (a : σ) (t : τ) (b : σ) : Prop :=
    step a t b ∧ (∀ k ∈ touched t, view b k = final k) ∧ ∀ k ∉ touched t, view b k = view a k
  have hlocal : IsLocal view touched Step := fun a t b hab k hk => hab.2.2 k hk
  obtain ⟨s', hrun⟩ : ∃ s', Runs Step s ts s' := by
    refine exists_runs hlocal hind fun t ht a ha => hstep t ht a fun k hk => ?_
    rw [ha k hk, hs k]
  refine ⟨s', hrun.imp fun a b t _ hab => hab.1, fun k => ?_⟩
  by_cases hk : ∃ t ∈ ts, k ∈ touched t
  · obtain ⟨t, ht, hk⟩ := hk
    obtain ⟨a, b, hab, -, hend⟩ := hrun.exists_step hlocal hind ht
    rw [hend k hk, hab.2.1 k hk]
  · push Not at hk
    rw [hrun.view_eq_of_untouched hlocal hk, hs k, hrest k hk]

end Locality

end Schemata
