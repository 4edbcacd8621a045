import Schemata.Proofs.Indexes.Handover
import Schemata.Proofs.Migration.Execution

/-!
# What a migration does to indexes

To the indexes of a database each turn of a table is a handover of names. The statements on its
columns speak of the indexes by the name that the table has by then, so the names that a table holds
are those under its new name, and those that it owns are those under its old one.

Each turn of a column is a handover of a name or two, and those of one table come to a single one.

## Main definitions

* `Turn.indexHandover`: what a turn of a table means for the names of its indexes

## Main results

* `run?_columnStatements_iff`: the statements on the columns of a table
* `run?_tableStatements_iff`: the statements of a migration
-/

namespace Schemata

open Changes (Turn turns MarkersHonoured)

namespace Handover

variable {h h' : Handover} {hs : List Handover} {live live' : LiveIndexes} {n table : String}

/-- A turn is what it gives up, what it takes, and to whom it passes the rest. -/
theorem leads_congr (hlatter : h.latter = h'.latter) (hpassed : h.passed = h'.passed)
    (hgone : ∀ n, n ∈ h.held ∧ n ∉ h.wanted ↔ n ∈ h'.held ∧ n ∉ h'.wanted)
    (hnew : ∀ n, n ∈ h.wanted ∧ n ∉ h.held ↔ n ∈ h'.wanted ∧ n ∉ h'.held) :
    Leads live h live' ↔ Leads live h' live' := by
  have hready : h.Ready live ↔ h'.Ready live := by
    constructor
    · rintro ⟨hpresent, hfree⟩
      exact ⟨fun hsome n hn hn' => hpresent (hlatter ▸ hsome) n ((hgone n).2 ⟨hn, hn'⟩).1
        ((hgone n).2 ⟨hn, hn'⟩).2, fun n hn hn' => hfree n ((hnew n).2 ⟨hn, hn'⟩).1
        ((hnew n).2 ⟨hn, hn'⟩).2⟩
    · rintro ⟨hpresent, hfree⟩
      exact ⟨fun hsome n hn hn' => hpresent (hlatter ▸ hsome) n ((hgone n).1 ⟨hn, hn'⟩).1
        ((hgone n).1 ⟨hn, hn'⟩).2, fun n hn hn' => hfree n ((hnew n).1 ⟨hn, hn'⟩).1
        ((hnew n).1 ⟨hn, hn'⟩).2⟩
  have heffect : h.effect live = h'.effect live := by
    funext n
    simp only [effect, hgone, hnew, hlatter, hpassed]
  rw [Leads, Leads, hready, heffect]

/-- The handover of names within one table. -/
def within (table : String) (held wanted : List String) : Handover :=
  ⟨some table, some table, held, held, wanted⟩

theorem passed_within (held wanted : List String) : (within table held wanted).passed = some := by
  funext owner
  unfold passed within
  split_ifs with hformer
  · exact hformer
  · rfl

theorem effect_within {held wanted : List String} :
    (within table held wanted).effect live n =
      if n ∈ wanted ∧ n ∉ held then some table
      else if n ∈ held ∧ n ∉ wanted then none else live n := by
  rw [effect, passed_within, Option.bind_fun_some]
  simp [within]

section Within

variable {τ : Type} {held wanted : τ → List String} {ts : List τ} {t : τ}

theorem isLocal_within :
    IsLocal (fun (live : LiveIndexes) n => live n) (fun t => held t ++ wanted t)
      (fun a t b => Leads a (within table (held t) (wanted t)) b) := by
  rintro a t b ⟨-, rfl⟩ n hn
  rw [List.mem_append, not_or] at hn
  simp [effect_within, hn]

/-- What one of the turns gives up or takes, no other one has to do with. -/
theorem mem_flatMap_iff_of_independent (hind : Independent (fun t => held t ++ wanted t) ts)
    (ht : t ∈ ts) (hn : n ∈ held t ++ wanted t) :
    (n ∈ ts.flatMap held ↔ n ∈ held t) ∧ (n ∈ ts.flatMap wanted ↔ n ∈ wanted t) := by
  have heq {t' : τ} (ht' : t' ∈ ts) (hn' : n ∈ held t' ++ wanted t') : t = t' :=
    hind.eq_of_mem ht ht' hn hn'
  simp only [List.mem_flatMap]
  refine ⟨⟨?_, fun hheld => ⟨t, ht, hheld⟩⟩, ⟨?_, fun hwanted => ⟨t, ht, hwanted⟩⟩⟩
  · rintro ⟨t', ht', hheld⟩
    rwa [heq ht' (List.mem_append_left _ hheld)]
  · rintro ⟨t', ht', hwanted⟩
    rwa [heq ht' (List.mem_append_right _ hwanted)]

theorem effect_within_of_untouched (hn : ∀ t ∈ ts, n ∉ held t ++ wanted t) :
    (within table (ts.flatMap held) (ts.flatMap wanted)).effect live n = live n := by
  have hheld : n ∉ ts.flatMap held := by
    intro hmem
    obtain ⟨t, ht, hmem⟩ := List.mem_flatMap.1 hmem
    exact hn t ht (List.mem_append_left _ hmem)
  have hwanted : n ∉ ts.flatMap wanted := by
    intro hmem
    obtain ⟨t, ht, hmem⟩ := List.mem_flatMap.1 hmem
    exact hn t ht (List.mem_append_right _ hmem)
  rw [effect_within, if_neg fun hmem => hwanted hmem.1, if_neg fun hmem => hheld hmem.1]

/-- What the turns together make of a name, the one that has to do with it does. -/
theorem effect_within_of_mem (hind : Independent (fun t => held t ++ wanted t) ts) (ht : t ∈ ts)
    (hn : n ∈ held t ++ wanted t) (hlive : live' n = live n) :
    (within table (ts.flatMap held) (ts.flatMap wanted)).effect live n =
      (within table (held t) (wanted t)).effect live' n := by
  obtain ⟨hheld, hwanted⟩ := mem_flatMap_iff_of_independent hind ht hn
  simp only [effect_within, hheld, hwanted, hlive]

/-- What the turns do one after the other is what they do at once. -/
theorem leads_within_of_runs (hind : Independent (fun t => held t ++ wanted t) ts)
    (hrun : Runs (fun a t b => Leads a (within table (held t) (wanted t)) b) live ts live') :
    Leads live (within table (ts.flatMap held) (ts.flatMap wanted)) live' := by
  refine ⟨⟨?_, ?_⟩, funext fun n => ?_⟩
  · intro _ n hheld hwanted
    obtain ⟨t, ht, hn⟩ := List.mem_flatMap.1 hheld
    obtain ⟨a, b, hstep, hstart, -⟩ := hrun.exists_step isLocal_within hind ht
    rw [← hstart n (List.mem_append_left _ hn)]
    exact hstep.1.present rfl n hn fun hn' => hwanted (List.mem_flatMap.2 ⟨t, ht, hn'⟩)
  · intro n hwanted hheld
    obtain ⟨t, ht, hn⟩ := List.mem_flatMap.1 hwanted
    obtain ⟨a, b, hstep, hstart, -⟩ := hrun.exists_step isLocal_within hind ht
    rw [← hstart n (List.mem_append_right _ hn)]
    exact hstep.1.free n hn fun hn' => hheld (List.mem_flatMap.2 ⟨t, ht, hn'⟩)
  · by_cases htouched : ∃ t ∈ ts, n ∈ held t ++ wanted t
    · obtain ⟨t, ht, hn⟩ := htouched
      obtain ⟨a, b, ⟨-, rfl⟩, hstart, hend⟩ := hrun.exists_step isLocal_within hind ht
      rw [hend n hn, effect_within_of_mem hind ht hn (hstart n hn)]
    · push Not at htouched
      rw [effect_within_of_untouched htouched]
      exact (hrun.view_eq_of_untouched isLocal_within htouched).symm

/-- If the turns can be taken at once, each of them can be taken wherever its names are as they are
at the start. -/
theorem ready_within_of_mem (hind : Independent (fun t => held t ++ wanted t) ts) (ht : t ∈ ts)
    (hready : (within table (ts.flatMap held) (ts.flatMap wanted)).Ready live)
    (hlive : ∀ n ∈ held t ++ wanted t, live' n = live n) :
    (within table (held t) (wanted t)).Ready live' := by
  constructor
  · intro _ n hheld hwanted
    have hn := List.mem_append_left (wanted t) hheld
    obtain ⟨hheld', hwanted'⟩ := mem_flatMap_iff_of_independent hind ht hn
    rw [hlive n hn]
    exact hready.present rfl n (hheld'.2 hheld) (mt hwanted'.1 hwanted)
  · intro n hwanted hheld
    have hn := List.mem_append_right (held t) hwanted
    obtain ⟨hheld', hwanted'⟩ := mem_flatMap_iff_of_independent hind ht hn
    rw [hlive n hn]
    exact hready.free n (hwanted'.2 hwanted) (mt hheld'.1 hheld)

/-- Handovers within a table that have no name in common come to a single one. -/
theorem runs_within_iff (hind : Independent (fun t => held t ++ wanted t) ts) :
    Runs (fun a t b => Leads a (within table (held t) (wanted t)) b) live ts live' ↔
      Leads live (within table (ts.flatMap held) (ts.flatMap wanted)) live' := by
  constructor
  · exact leads_within_of_runs hind
  · rintro ⟨hready, rfl⟩
    have hstep (t : τ) (ht : t ∈ ts) (a : LiveIndexes)
        (ha : ∀ n ∈ held t ++ wanted t, a n = live n) :
        Leads a (within table (held t) (wanted t)) ((within table (held t) (wanted t)).effect a) :=
      ⟨ready_within_of_mem hind ht hready ha, rfl⟩
    obtain ⟨live'', hrun, hview⟩ := exists_runs_to
      (fun a t b => Leads a (within table (held t) (wanted t)) b) (fun live n => live n) hind
      (fun t ht a ha => ⟨_, hstep t ht a ha,
        fun n hn => (effect_within_of_mem hind ht hn (ha n hn)).symm,
        fun n hn => isLocal_within _ _ _ (hstep t ht a ha) n hn⟩)
      (fun n hn => (effect_within_of_untouched hn).symm) fun n => rfl
    rwa [← funext hview]

end Within

end Handover

open Handover (Leads within leads_congr)
open LiveIndexes (run?)

variable {live live' : LiveIndexes} {table column source target n : String}

namespace LiveIndexes

@[simp] theorem run?_nil : live.run? [] = some live := rfl

theorem run?_cons {s : Statement} {ss : List Statement} :
    live.run? (s :: ss) = (live.exec? s).bind (·.run? ss) :=
  List.foldlM_cons ..

end LiveIndexes

/-! ### Statements on the columns of a table -/

/-- Handing over what one keeps is doing nothing. -/
theorem leads_within_self_iff {names : List String} :
    Leads live (within table names names) live' ↔ live = live' := by
  have heffect : (within table names names).effect live = live := by
    funext n
    simp [Handover.effect_within]
  rw [Leads, heffect]
  exact ⟨And.right, fun heq =>
    ⟨⟨fun _ n hn hn' => absurd hn hn', fun n hn hn' => absurd hn hn'⟩, heq⟩⟩

theorem run?_createIndex_iff (definition : String) :
    live.run? [.createIndex table column definition] = some live' ↔
      Leads live (within table [] [indexName table column]) live' := by
  have heffect : (within table [] [indexName table column]).effect live =
      Function.update live (indexName table column) (some table) := by
    funext n
    simp [Handover.effect_within, Function.update_apply]
  rw [LiveIndexes.run?_cons, LiveIndexes.exec?, Leads, heffect]
  cases hlive : live (indexName table column) with
  | none =>
    refine ⟨fun heq => ⟨⟨by simp [within], by simp [within, hlive]⟩, by simpa using heq⟩, ?_⟩
    rintro ⟨-, rfl⟩
    rfl
  | some owner =>
    refine ⟨fun heq => absurd heq (by simp), ?_⟩
    rintro ⟨⟨-, hfree⟩, -⟩
    have hnone := hfree (indexName table column) (by simp [within]) (by simp [within])
    rw [hlive] at hnone
    exact absurd hnone (by simp)

theorem run?_dropIndex_iff :
    live.run? [.dropIndex table column] = some live' ↔
      Leads live (within table [indexName table column] []) live' := by
  have heffect : (within table [indexName table column] []).effect live =
      Function.update live (indexName table column) none := by
    funext n
    simp [Handover.effect_within, Function.update_apply]
  rw [LiveIndexes.run?_cons, LiveIndexes.exec?, Leads, heffect]
  cases hlive : live (indexName table column) with
  | none =>
    refine ⟨fun heq => absurd heq (by simp), ?_⟩
    rintro ⟨⟨hpresent, -⟩, -⟩
    have hsome := hpresent rfl (indexName table column) (by simp [within]) (by simp [within])
    rw [hlive] at hsome
    exact absurd hsome (by simp)
  | some owner =>
    refine ⟨fun heq => ⟨⟨by simp [within, hlive], by simp [within]⟩, by simpa using heq⟩, ?_⟩
    rintro ⟨-, rfl⟩
    rfl

/-- Giving up one name and taking another is one handover. -/
theorem run?_moveIndex_iff {definition : String} (hne : source ≠ target) :
    live.run? [.dropIndex table source, .createIndex table target definition] = some live' ↔
      Leads live (within table [indexName table source] [indexName table target]) live' := by
  -- Dropping the one and creating the other are two handovers that do not touch.
  have hind : Independent (fun t : List String × List String => t.1 ++ t.2)
      [([indexName table source], []), ([], [indexName table target])] := by
    simpa [Independent, indexName_inj] using hne
  have hmerge :
      Runs (fun a (t : List String × List String) b => Leads a (within table t.1 t.2) b) live
        _ live' ↔ _ :=
    Handover.runs_within_iff hind
  simp only [runs_cons_iff, runs_nil_iff, List.flatMap_cons, List.flatMap_nil, List.append_nil,
    List.nil_append, exists_eq_right] at hmerge
  rw [← hmerge, LiveIndexes.run?, List.foldlM_cons, Option.bind_eq_bind, Option.bind_eq_some_iff]
  refine exists_congr fun middle => and_congr ?_ (run?_createIndex_iff definition)
  rw [← run?_dropIndex_iff, LiveIndexes.run?_cons]
  cases live.exec? (.dropIndex table source) <;> simp

section Fields

variable {field : Field}

/-- The name of the index of a column, if it is one. -/
def Field.indexName? (field : Field) (table column : String) : List String :=
  if field.isIndex then [indexName table column] else []

theorem run?_addition_iff : live.run? ((Plan.addition? table column field).getD []) = some live' ↔
    Leads live (within table [] (field.indexName? table column)) live' := by
  cases field with
  | index definition => exact run?_createIndex_iff definition
  | atom a => exact Option.some_inj.trans leads_within_self_iff.symm
  | relation _ | aliasTo _ | constraint _ => exact Option.some_inj.trans leads_within_self_iff.symm

theorem run?_renaming_iff (hne : source ≠ target) :
    live.run? ((Plan.renaming? table source target field).getD []) = some live' ↔
      Leads live (within table (field.indexName? table source) (field.indexName? table target))
        live' := by
  cases field with
  | index definition => exact run?_moveIndex_iff hne
  | atom a => exact Option.some_inj.trans leads_within_self_iff.symm
  | relation _ | aliasTo _ | constraint _ => exact Option.some_inj.trans leads_within_self_iff.symm

theorem run?_removal_iff : live.run? ((Plan.removal? table column field).getD []) = some live' ↔
    Leads live (within table (field.indexName? table column) []) live' := by
  cases field with
  | index definition => exact run?_dropIndex_iff
  | atom a => exact Option.some_inj.trans leads_within_self_iff.symm
  | relation _ | aliasTo _ | constraint _ => exact Option.some_inj.trans leads_within_self_iff.symm

end Fields

/-- The names that a table of the given name has for the indexes that a turn speaks of. -/
def Changes.Turn.indexNames (table : Table) (name : String) (t : Turn Column) : List String :=
  (t.names.filter table.hasIndex).map (indexName name)

section Columns

variable {prev next : Table} {config : MigrationConfig}

theorem Field.CanBecome.isIndex_eq {before after : Field} (h : before.CanBecome after) :
    before.isIndex = after.isIndex := by
  obtain rfl | ⟨hbefore, hafter⟩ := h
  · rfl
  · cases before <;> cases after <;> simp_all [isIndex, isVirtual, kind, FieldKind.isVirtual]

/-- A turn of a column hands over the names that it gives up and takes. -/
theorem run?_columnTurn_iff
    (honoured : MarkersHonoured Column.renamedFrom prev.columns next.columns)
    {t : Turn Column} (hfits : t.Fits Column.renamedFrom prev.columns next.columns)
    (hreproduces : t.Reproduces) : live.run? (t.columnStatements table) = some live' ↔
      Leads live (within table (t.indexNames prev table) (t.indexNames next table)) live' := by
  cases t with
  | create column after =>
    obtain ⟨harrives, hafter, -⟩ := hfits
    have hprev := Table.hasIndex_of_not_mem harrives.2.2
    have hnext := Table.hasIndex_of_find? hafter
    rw [Turn.columnStatements, run?_addition_iff]
    simp [Turn.indexNames, Turn.names, List.filter, hprev, hnext, Field.indexName?]
    cases after.field.isIndex <;> rfl
  | move source target before after =>
    have hmoves := hfits.moves
    obtain ⟨harrives, hafter, -, hbefore⟩ := hfits
    have hsource := Table.hasIndex_of_find? hbefore
    have htarget := Table.hasIndex_of_find? hafter
    have hprev := Table.hasIndex_of_not_mem harrives.2.2
    have hnext := Table.hasIndex_of_not_mem (honoured.gone hmoves)
    rw [Turn.columnStatements, run?_renaming_iff (honoured.ne hmoves harrives)]
    simp [Turn.indexNames, Turn.names, List.filter, hprev, hnext, hsource, htarget,
      Field.indexName?, hreproduces.2.isIndex_eq]
    cases after.field.isIndex <;> rfl
  | remove column before =>
    obtain ⟨hdeparts, hbefore, -⟩ := hfits
    have hprev := Table.hasIndex_of_find? hbefore
    have hnext := Table.hasIndex_of_not_mem hdeparts.2.2
    rw [Turn.columnStatements, run?_removal_iff]
    simp [Turn.indexNames, Turn.names, List.filter, hprev, hnext, Field.indexName?]
    cases before.field.isIndex <;> rfl
  | keep column before after =>
    obtain ⟨-, hbefore, hafter⟩ := hfits
    -- There is no statement, so the names must be the same before and after.
    have hsame : (Turn.keep column before after).indexNames prev table =
        (Turn.keep column before after).indexNames next table := by
      simp [Turn.indexNames, Turn.names, List.filter, Table.hasIndex_of_find? hbefore,
        Table.hasIndex_of_find? hafter, Field.CanBecome.isIndex_eq hreproduces]
    rw [Turn.columnStatements, LiveIndexes.run?_nil, hsame, leads_within_self_iff, Option.some_inj]

theorem Changes.Turn.mem_indexNames_iff {declared : Table} {t : Turn Column} :
    n ∈ t.indexNames declared table ↔
      ∃ c ∈ t.names, declared.hasIndex c = true ∧ indexName table c = n := by
  simp [indexNames, and_assoc]

/-- Turns of different columns have to do with different indexes. -/
theorem independent_indexNames
    (honoured : MarkersHonoured Column.renamedFrom prev.columns next.columns) :
    Independent (fun t => t.indexNames prev table ++ t.indexNames next table)
      (turns Column.renamedFrom prev.columns next.columns) := by
  have hcolumn {t : Turn Column} {n : String}
      (hn : n ∈ t.indexNames prev table ++ t.indexNames next table) :
      ∃ c ∈ t.names, indexName table c = n := by
    rcases List.mem_append.1 hn with hn | hn
    · obtain ⟨c, hc, -, heq⟩ := Turn.mem_indexNames_iff.1 hn
      exact ⟨c, hc, heq⟩
    · obtain ⟨c, hc, -, heq⟩ := Turn.mem_indexNames_iff.1 hn
      exact ⟨c, hc, heq⟩
  refine (Changes.independent_turns honoured).imp fun hdisjoint n hn hn' => ?_
  obtain ⟨c, hc, rfl⟩ := hcolumn hn
  obtain ⟨c', hc', heq⟩ := hcolumn hn'
  obtain rfl := indexName_inj.1 heq
  exact hdisjoint hc hc'

/-- Of two tables that agree on the columns that no turn speaks of, the one has an index that the
other has not exactly if the turns say so. -/
theorem mem_flatMap_indexNames_iff {ts : List (Turn Column)} {declared other : Table}
    (hsame : ∀ c, (∀ t ∈ ts, c ∉ t.names) → declared.hasIndex c = other.hasIndex c) :
    n ∈ ts.flatMap (Turn.indexNames declared table) ∧
        n ∉ ts.flatMap (Turn.indexNames other table) ↔
      n ∈ declared.indexNames table ∧ n ∉ other.indexNames table := by
  simp only [List.mem_flatMap, Turn.mem_indexNames_iff, Table.mem_indexNames_iff]
  constructor
  · rintro ⟨⟨t, ht, c, hc, hdeclared, rfl⟩, hother⟩
    refine ⟨⟨c, hdeclared, rfl⟩, ?_⟩
    rintro ⟨c', hc', heq⟩
    obtain rfl := indexName_inj.1 heq
    exact hother ⟨t, ht, c', hc, hc', rfl⟩
  · rintro ⟨⟨c, hdeclared, rfl⟩, hother⟩
    have hnot : other.hasIndex c ≠ true := fun hc => hother ⟨c, hc, rfl⟩
    obtain ⟨t, ht, hc⟩ : ∃ t ∈ ts, c ∈ t.names := by
      by_contra htouched
      push Not at htouched
      exact hnot ((hsame c htouched).symm.trans hdeclared)
    refine ⟨⟨t, ht, c, hc, hdeclared, rfl⟩, ?_⟩
    rintro ⟨t', ht', c', hc', hother', heq⟩
    obtain rfl := indexName_inj.1 heq
    exact hnot hother'

/-- The statements on the columns of a table hand over the names of its indexes. -/
theorem run?_columnStatements_iff (h : ColumnsAcceptable config prev next) :
    live.run? (columnStatements table prev.columns next.columns) = some live' ↔
      Leads live (within table (prev.indexNames table) (next.indexNames table)) live' := by
  have honoured := h.markers
  -- A column that is passed over is an index in both tables or in none.
  have hsame (c : String)
      (hc : ∀ t ∈ turns Column.renamedFrom prev.columns next.columns, c ∉ t.names) :
      prev.hasIndex c = next.hasIndex c := by
    rw [Table.hasIndex, Table.hasIndex, h.field?_eq_of_untouched hc]
  have hturns : live.run? (columnStatements table prev.columns next.columns) = some live' ↔
      Runs
        (fun a t b => Leads a (within table (t.indexNames prev table) (t.indexNames next table)) b)
        live (turns Column.renamedFrom prev.columns next.columns) live' := by
    rw [columnStatements, run?, foldlM_flatMap, runs_foldlM_some_iff]
    exact runs_congr fun a b t ht =>
      run?_columnTurn_iff honoured ((Changes.mem_turns_iff honoured).1 ht) (h.turn ht).2
  rw [hturns, Handover.runs_within_iff (independent_indexNames honoured)]
  refine leads_congr rfl ?_ (fun n => mem_flatMap_indexNames_iff hsame)
    fun n => mem_flatMap_indexNames_iff fun c hc => (hsame c hc).symm
  rw [Handover.passed_within, Handover.passed_within]

end Columns

/-! ### Statements on tables -/

/-- What a turn of a table means for the names of its indexes. -/
def Changes.Turn.indexHandover : Turn Table → Handover
  | create name next => ⟨none, some name, [], [], next.indexNames name⟩
  | move source target prev next =>
      ⟨some source, some target, prev.indexNames source, prev.indexNames target,
        next.indexNames target⟩
  | remove name prev => ⟨some name, none, prev.indexNames name, prev.indexNames name, []⟩
  | keep name prev next => within name (prev.indexNames name) (next.indexNames name)

section Tables

variable {config : MigrationConfig}

/-- A table that is created takes the names of its indexes. -/
theorem run?_creating_iff {declared : Table} :
    live.run? (Statement.creating table declared) = some live' ↔
      Leads live ⟨none, some table, [], [], declared.indexNames table⟩ live' := by
  have hind : Independent (fun e : String × String => [] ++ [indexName table e.1])
      declared.indexes := by
    refine (List.pairwise_map.1 declared.nodup_names_indexes).imp fun hne => ?_
    simpa [indexName_inj, eq_comm] using hne
  have hruns : live.run? (Statement.creating table declared) = some live' ↔
      Runs (fun a (e : String × String) b => Leads a (within table [] [indexName table e.1]) b) live
        declared.indexes live' := by
    rw [Statement.creating, LiveIndexes.run?_cons, LiveIndexes.exec?, Option.bind_some, run?,
      runs_foldlM_some_iff, runs_map_iff]
    refine runs_congr fun a b e _ => ?_
    rw [← run?_createIndex_iff e.2, LiveIndexes.run?_cons]
    cases a.exec? (.createIndex table e.1 e.2) <;> simp
  rw [hruns, Handover.runs_within_iff hind]
  refine leads_congr rfl ?_ (fun n => ?_) fun n => ?_
  · rw [Handover.passed_within]
    rfl
  · simp [within]
  · simp [within, Table.indexNames, eq_comm]

/-- The names pass to the new owner first, and then some of them are given up and others taken. -/
theorem leads_within_iff {owned held wanted : List String} :
    Leads (fun n => if live n = some source then some target else live n)
        (within target held wanted) live' ↔
      Leads live ⟨some source, some target, owned, held, wanted⟩ live' := by
  have hpassed (n : String) : (if live n = some source then some target else live n) =
      (live n).bind (Handover.passed ⟨some source, some target, owned, held, wanted⟩) := by
    cases live n <;> simp [Handover.passed, eq_comm]
  -- A name is there, or free, whoever has it.
  have hnone (n : String) : (if live n = some source then some target else live n) = none ↔
      live n = none := by
    cases live n with
    | none => simp
    | some owner => by_cases howner : owner = source <;> simp [howner]
  have hsome (n : String) : (if live n = some source then some target else live n).isSome ↔
      (live n).isSome := by
    rw [Option.isSome_iff_ne_none, Option.isSome_iff_ne_none, ne_eq, ne_eq, hnone]
  refine and_congr ⟨fun hready => ⟨fun hlatter n hheld hwanted => ?_, fun n hwanted hheld => ?_⟩,
    fun hready => ⟨fun hlatter n hheld hwanted => ?_, fun n hwanted hheld => ?_⟩⟩
    (Eq.congr_left (funext fun n => ?_))
  · exact (hsome n).1 (hready.present rfl n hheld hwanted)
  · exact (hnone n).1 (hready.free n hwanted hheld)
  · exact (hsome n).2 (hready.present rfl n hheld hwanted)
  · exact (hnone n).2 (hready.free n hwanted hheld)
  · rw [Handover.effect_within, hpassed]
    simp [Handover.effect]

/-- A table that is dropped takes its indexes with it. -/
theorem run?_dropTable_iff {owned held : List String} :
    live.run? [.dropTable table] = some live' ↔
      Leads live ⟨some table, none, owned, held, []⟩ live' := by
  have heffect : (Handover.mk (some table) none owned held []).effect live =
      fun n => if live n = some table then none else live n := by
    funext n
    cases hlive : live n with
    | none => simp [Handover.effect, hlive]
    | some owner => simp [Handover.effect, hlive, Handover.passed, eq_comm]
  rw [LiveIndexes.run?_cons, LiveIndexes.exec?, Option.bind_some, LiveIndexes.run?_nil, Leads,
    heffect, Option.some_inj]
  refine ⟨fun heq => ⟨⟨fun hlatter => absurd hlatter (by simp), by simp⟩, heq⟩, And.right⟩

/-- A turn of a table hands over the names of its indexes. -/
theorem run?_tableTurn_iff {t : Turn Table} (h : t.Acceptable config) :
    live.run? t.tableStatements = some live' ↔ Leads live t.indexHandover live' := by
  cases t with
  | create name next => exact run?_creating_iff
  | move source target prev next =>
    rw [Turn.tableStatements, LiveIndexes.run?_cons, LiveIndexes.exec?, Option.bind_some,
      run?_columnStatements_iff h]
    exact leads_within_iff
  | remove name prev => exact run?_dropTable_iff
  | keep name prev next => exact run?_columnStatements_iff h

/-- The statements of a migration hand over the names of the indexes, turn by turn. -/
theorem run?_tableStatements_iff {prev next : Schema} (h : Acceptable config prev next) :
    live.run? (tableStatements prev.tables next.tables) = some live' ↔
      Runs Leads live
        ((turns Table.renamedFrom prev.tables next.tables).map Turn.indexHandover) live' := by
  rw [tableStatements, run?, foldlM_flatMap, runs_foldlM_some_iff, runs_map_iff]
  exact runs_congr fun a b t ht => run?_tableTurn_iff (h.turn ht)

end Tables

end Schemata
