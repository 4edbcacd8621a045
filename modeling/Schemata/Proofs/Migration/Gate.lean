import Schemata.Proofs.Migration.Acceptance

/-!
# The gate of removals

A configuration says which names give leave to remove their bearers, and it says nothing else.
Planning asks for that leave when a table or a stored column is to go, and ends at once if there is
none. So two configurations go the same way until one of them refuses: what a migration consists
of, and what is wrong where there is none, are the same as if everything were allowed.

This is carried by one relation on outcomes, which every computation keeps that asks the gate and
does nothing else with its configuration.

## Main definitions

* `AgreesUnlessRefused`: two outcomes are the same, or the first is a refusal
* `MigrationConfig.permissive`: the configuration that allows every removal
* `MovesIndex`: an index gets another name on a table that stays or moves
* `Statement.HaveLeave`: whatever the statements drop has leave to go

## Main results

* `migrate_agrees`: a stricter configuration refuses, or it makes no difference
* `Acceptable.haveLeave`: what a migration drops has leave to go, but for what is created again
* `migrate_gated`: configurations only gate
-/

namespace Schemata

open Changes (Moves Turn turns)

/-! ### Outcomes up to a refusal -/

/-- The two outcomes are the same, or the first is the refusal of a removal. -/
def AgreesUnlessRefused {α : Type} (outcome outcome' : Except MigrationError α) : Prop :=
  outcome = outcome' ∨ ∃ name, outcome = .error (.unsafeDrop name)

namespace AgreesUnlessRefused

variable {α β : Type} {x y : Except MigrationError α}

theorem refl (x : Except MigrationError α) : AgreesUnlessRefused x x := .inl rfl

theorem bind {f g : α → Except MigrationError β} (h : AgreesUnlessRefused x y)
    (hrest : ∀ a, AgreesUnlessRefused (f a) (g a)) : AgreesUnlessRefused (x >>= f) (y >>= g) := by
  obtain rfl | ⟨name, rfl⟩ := h
  · cases x with
    | error e => exact refl _
    | ok a => exact hrest a
  · -- What follows a refusal is never reached.
    exact .inr ⟨name, rfl⟩

theorem foldlM {step step' : β → α → Except MigrationError β} (items : List α)
    (h : ∀ b a, AgreesUnlessRefused (step b a) (step' b a)) (b : β) :
    AgreesUnlessRefused (items.foldlM step b) (items.foldlM step' b) := by
  induction items generalizing b with
  | nil => exact refl _
  | cons a rest ih =>
    rw [List.foldlM_cons, List.foldlM_cons]
    exact (h b a).bind ih

/-- An outcome that is no refusal is the other one. -/
theorem eq (h : AgreesUnlessRefused x y) (hallowed : ∀ name, x ≠ .error (.unsafeDrop name)) :
    x = y :=
  h.resolve_right fun ⟨name, hrefused⟩ => hallowed name hrefused

end AgreesUnlessRefused

/-! ### Two configurations -/

/-- The configuration that allows every removal: all names start with the empty text. -/
def MigrationConfig.permissive : MigrationConfig := ⟨[""]⟩

theorem MigrationConfig.isDeprecated_permissive (name : String) :
    permissive.isDeprecated name = true := by
  simp [permissive, isDeprecated, Text.startsWith, Text.asciiLower]

section Configurations

variable {config config' : MigrationConfig}
variable (h : ∀ name, config.isDeprecated name = true → config'.isDeprecated name = true)

include h

namespace Plan

theorem gate_agrees (name qualified : String) :
    AgreesUnlessRefused (gate config name qualified) (gate config' name qualified) := by
  unfold gate
  cases hname : config.isDeprecated name with
  | true => rw [h name hname]; exact .refl _
  | false => exact .inr ⟨qualified, rfl⟩

omit h in
theorem follow_agrees {α : Type} {step step' : Plan → Change α → Except MigrationError Plan}
    (hstep : ∀ plan change, AgreesUnlessRefused (step plan change) (step' plan change))
    (qualify : String → String) (plan : Plan) (changes : Changes α) :
    AgreesUnlessRefused (follow step qualify plan changes) (follow step' qualify plan changes) :=
  (AgreesUnlessRefused.foldlM changes.steps hstep plan).bind fun _ => .refl _

theorem columnStep_agrees (table : String) (plan : Plan) (change : Change Column) :
    AgreesUnlessRefused (columnStep config table plan change)
      (columnStep config' table plan change) := by
  cases change with
  | create name next => exact .refl _
  | rename source target prev => exact .refl _
  | remove name prev =>
    -- A virtual column goes without leave.
    simp only [columnStep]
    split
    · exact (gate_agrees h name _).bind fun _ => .refl _
    · exact .refl _
  | change name prev next => exact .refl _

theorem columnSteps_agrees (table : String) (plan : Plan) (prev next : OrderedMap Column) :
    AgreesUnlessRefused (columnSteps config table plan prev next)
      (columnSteps config' table plan prev next) :=
  follow_agrees (columnStep_agrees h table) _ plan _

theorem tableStep_agrees (plan : Plan) (change : Change Table) :
    AgreesUnlessRefused (tableStep config plan change) (tableStep config' plan change) := by
  cases change with
  | create name next => exact .refl _
  | rename source target prev => exact .refl _
  | remove name prev => exact (gate_agrees h name name).bind fun _ => .refl _
  | change name prev next => exact columnSteps_agrees h name plan prev.columns next.columns

end Plan

/-- A configuration that allows no more than another one refuses, or it makes no difference. -/
theorem migrate_agrees (prev next : Schema) :
    AgreesUnlessRefused (migrate config prev next) (migrate config' prev next) := by
  refine (AgreesUnlessRefused.refl (requireValid prev)).bind fun _ => ?_
  refine (AgreesUnlessRefused.refl (requireValid next)).bind fun _ => ?_
  exact (Plan.follow_agrees (Plan.tableStep_agrees h) id _ _).bind fun _ => .refl _

end Configurations

/-! ### What is dropped -/

/-- An index gets another name, on a table that stays or moves, and keeps its definition. -/
def MovesIndex (prev next : Schema) (table source target definition : String) : Prop :=
  ∃ declared before after, Continues prev next declared table ∧
    prev.table? declared = some before ∧ next.table? table = some after ∧
      Moves Column.renamedFrom before.columns after.columns source target ∧
        before.field? source = some (.index definition)

/-- What a statement drops has leave to go. An index that is moved needs none, if it is created
again by the first of the statements that follow. -/
def Statement.HasLeave (config : MigrationConfig)
    (moved : (table source target definition : String) → Prop) (after : List Statement) :
    Statement → Prop
  | dropTable name | dropColumn _ name => config.isDeprecated name = true
  | dropIndex table name => config.isDeprecated name = true ∨
      ∃ target definition rest, after = .createIndex table target definition :: rest ∧
        moved table name target definition
  | createTable _ _ _ | renameTable _ _ | addColumn _ _ _ | renameColumn _ _ _
  | createIndex _ _ _ => True

/-- Each of the statements has leave, with those that follow it. -/
def Statement.HaveLeave (config : MigrationConfig)
    (moved : (table source target definition : String) → Prop) : List Statement → Prop
  | [] => True
  | s :: after => s.HasLeave config moved after ∧ HaveLeave config moved after

section Drops

variable {config : MigrationConfig}
variable {moved : (table source target definition : String) → Prop}

open Statement (HaveLeave)

/-- What stands further behind does no harm. -/
theorem Statement.HasLeave.append {s : Statement} {after : List Statement}
    (h : s.HasLeave config moved after) (rest : List Statement) :
    s.HasLeave config moved (after ++ rest) := by
  cases s with
  | dropIndex table name =>
    refine h.imp_right ?_
    rintro ⟨target, definition, behind, rfl, hmoved⟩
    exact ⟨target, definition, behind ++ rest, rfl, hmoved⟩
  | _ => exact h

theorem Statement.HaveLeave.append {ss ss' : List Statement} (h : HaveLeave config moved ss)
    (h' : HaveLeave config moved ss') : HaveLeave config moved (ss ++ ss') := by
  induction ss with
  | nil => exact h'
  | cons s ss ih => exact ⟨h.1.append ss', ih h.2⟩

theorem Statement.HaveLeave.flatMap {α : Type} {items : List α} {f : α → List Statement}
    (h : ∀ a ∈ items, HaveLeave config moved (f a)) : HaveLeave config moved (items.flatMap f) := by
  induction items with
  | nil => trivial
  | cons a items ih =>
    rw [List.flatMap_cons]
    exact (h a List.mem_cons_self).append (ih fun a' ha' => h a' (List.mem_cons_of_mem _ ha'))

theorem haveLeave_creating (name : String) (table : Table) :
    HaveLeave config moved (Statement.creating name table) := by
  refine ⟨trivial, ?_⟩
  induction table.indexes with
  | nil => trivial
  | cons e rest ih => exact ⟨trivial, ih⟩

/-- The turns of columns drop what has leave, and what they move. -/
theorem haveLeave_columnStatements {before after : Table} {name : String}
    (h : ColumnsAcceptable config before after)
    (hmoved : ∀ {source target definition},
      Moves Column.renamedFrom before.columns after.columns source target →
        before.field? source = some (.index definition) → moved name source target definition) :
    HaveLeave config moved (columnStatements name before.columns after.columns) := by
  apply Statement.HaveLeave.flatMap
  intro t ht
  have hpermitted := (h.turn ht).1
  cases t with
  | create column declared =>
    cases hfield : declared.field <;>
      simp [Turn.columnStatements, hfield, Plan.addition?, HaveLeave, Statement.HasLeave]
  | move source target declared entity =>
    have hfits := (Changes.mem_turns_iff h.markers).1 ht
    have hmoves := hfits.moves
    obtain ⟨harrives, hafter, -, hbefore⟩ := hfits
    cases hfield : declared.field with
    | index definition =>
      -- The index is dropped under its old name and created at once under the new one.
      simp only [Turn.columnStatements, hfield, Plan.renaming?, Option.getD_some]
      refine ⟨.inr ⟨target, definition, [], rfl, hmoved hmoves ?_⟩, trivial, trivial⟩
      rw [Table.field?_of_find? hbefore, hfield]
    | atom _ | relation _ | aliasTo _ | constraint _ =>
      simp [Turn.columnStatements, hfield, Plan.renaming?, HaveLeave, Statement.HasLeave]
  | remove column declared =>
    -- Only what is not virtual has a statement here, and that is what asks for leave.
    cases hfield : declared.field <;>
      simp_all [Turn.columnStatements, Plan.removal?, HaveLeave, Statement.HasLeave,
        Turn.Permitted, Field.isVirtual, Field.kind, FieldKind.isVirtual]
  | keep column declared entity => trivial

/-- So do the turns of tables. -/
theorem Acceptable.haveLeave {prev next : Schema} (h : Acceptable config prev next) :
    HaveLeave config (MovesIndex prev next) (tableStatements prev.tables next.tables) := by
  apply Statement.HaveLeave.flatMap
  intro t ht
  have hfits := (Changes.mem_turns_iff h.markers).1 ht
  have hacceptable := h.turn ht
  cases t with
  | create name after => exact haveLeave_creating name after
  | move source target before after =>
    have hmoves := hfits.moves
    obtain ⟨harrives, hafter, -, hbefore⟩ := hfits
    exact ⟨trivial, haveLeave_columnStatements hacceptable fun hcolumn hfield =>
      ⟨source, before, after, .inr hmoves, hbefore, hafter, hcolumn, hfield⟩⟩
  | remove name before => exact ⟨hacceptable, trivial⟩
  | keep name before after =>
    obtain ⟨hplain, hbefore, hafter⟩ := hfits
    exact haveLeave_columnStatements hacceptable fun hcolumn hfield =>
      ⟨name, before, after, .inl ⟨hplain, rfl⟩, hbefore, hafter, hcolumn, hfield⟩

end Drops

/-- A configuration only gates. Two of them that refuse nothing give the same outcome, be it a
migration or a failure; a migration stays what it is under every configuration that allows more;
and what a migration drops had leave to go, but for an index that is created again at once under
its new name. -/
theorem migrate_gated {prev next : Schema} :
    (∀ config config', (∀ name, migrate config prev next ≠ .error (.unsafeDrop name)) →
      (∀ name, migrate config' prev next ≠ .error (.unsafeDrop name)) →
        migrate config prev next = migrate config' prev next) ∧
    (∀ config config' migration,
      (∀ name, config.isDeprecated name = true → config'.isDeprecated name = true) →
        migrate config prev next = .ok migration → migrate config' prev next = .ok migration) ∧
    ∀ config migration, migrate config prev next = .ok migration →
      Statement.HaveLeave config (MovesIndex prev next) migration.statements := by
  refine ⟨?_, ?_, ?_⟩
  · intro config config' hallowed hallowed'
    -- Both outcomes are the one that there is when everything is allowed.
    have hopen (other : MigrationConfig) :
        AgreesUnlessRefused (migrate other prev next) (migrate .permissive prev next) :=
      migrate_agrees (fun name _ => MigrationConfig.isDeprecated_permissive name) prev next
    exact ((hopen config).eq hallowed).trans ((hopen config').eq hallowed').symm
  · intro config config' migration hstricter hmigrate
    rw [← hmigrate]
    refine ((migrate_agrees hstricter prev next).eq ?_).symm
    simp [hmigrate]
  · intro config migration hmigrate
    obtain ⟨hacceptable, rfl⟩ := migrate_eq_ok_iff.1 hmigrate
    exact hacceptable.haveLeave

/-- A table with two indexes, and an old one. -/
def Schema.withOldNames : Schema :=
  ⟨.ofList
    [("t", ⟨.ofList [("x", ⟨.integer "", none⟩), ("by_x", ⟨.index "x", none⟩),
        ("old_by", ⟨.index "x", none⟩), ("same", ⟨.aliasTo "x", none⟩)], none⟩),
      ("old_u", ⟨.ofList [("y", ⟨.integer "", none⟩)], none⟩)]⟩

/-- What is left without the old names and the alias, with one index under another name. -/
def Schema.withoutOldNames : Schema :=
  ⟨.ofList
    [("t", ⟨.ofList [("x", ⟨.integer "", none⟩), ("of_x", ⟨.index "x", some "by_x"⟩)], none⟩)]⟩

/-- Old names may go by one configuration, by one that allows more, and where everything may, but
not by default; and only the index that moves needs no leave. -/
theorem migrate_gated_oldNames :
    ∃ migration, migrate ⟨["old_"]⟩ .withOldNames .withoutOldNames = .ok migration ∧
      migration.statements = [.dropTable "old_u", .dropIndex "t" "by_x",
        .createIndex "t" "of_x" "x", .dropIndex "t" "old_by"] ∧
      Statement.HaveLeave ⟨["old_"]⟩ (MovesIndex .withOldNames .withoutOldNames)
        migration.statements ∧
      migrate ⟨["depr", "OLD_"]⟩ .withOldNames .withoutOldNames = .ok migration ∧
      migrate .permissive .withOldNames .withoutOldNames = .ok migration ∧
      migrate {} .withOldNames .withoutOldNames = .error (.unsafeDrop "old_u") := by
  have hmigrate : migrate ⟨["old_"]⟩ .withOldNames .withoutOldNames = .ok
      ⟨[.dropTable "old_u", .dropIndex "t" "by_x", .createIndex "t" "of_x" "x",
        .dropIndex "t" "old_by"], Schema.withoutOldNames.canonical⟩ := by
    decide
  have hopen : (migrate .permissive .withOldNames .withoutOldNames).isOk := by decide
  obtain ⟨hsame, hmore, hleave⟩ := @migrate_gated .withOldNames .withoutOldNames
  refine ⟨_, hmigrate, rfl, hleave _ _ hmigrate, ?_, ?_, by decide⟩
  · apply hmore ⟨["old_"]⟩ _ _ _ hmigrate
    intro name hname
    have hlower : Text.asciiLower "OLD_" = Text.asciiLower "old_" := by decide
    simp only [MigrationConfig.isDeprecated, List.any_cons, List.any_nil, Bool.or_false] at hname ⊢
    rw [hlower, hname, Bool.or_true]
  · rw [← hmigrate]
    apply hsame
    · intro name hrefused
      rw [hrefused] at hopen
      cases hopen
    · simp [hmigrate]

end Schemata
