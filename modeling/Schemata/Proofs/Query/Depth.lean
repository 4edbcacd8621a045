import Schemata.Text.Alphabetic
import Schemata.Text.Layout

/-!
# Texts at a depth

A text that is put into a statement goes on in the line that it stands in, and its later lines are
moved to the right, by a tab for each text of several lines around it. Moving commutes with
everything else that is done to a text on its way: with moving it once more, with putting it behind
another one, and with taking the blanks off its ends, since the tabs that are added stand behind a
line end and are blank themselves.

## Main definitions

* `newLine`, `moved`: a line end with the tabs of a depth, and a text put at a depth
* `IsLine`, `EndsVisibly`, `IsTidy`: texts that neither moving nor trimming can damage

## Main results

* `moved_moved`, `moved_eq_self_iff`: moving adds up, and what it leaves alone
* `trim_flatMap_movedChar`: a moved text is trimmed like the text itself
* `toList_trimmed_indent`: indenting and trimming a text is trimming and moving it
-/

namespace Schemata.Text

/-! ### Moving -/

/-- A line end and the tabs of the next line. -/
def newLine (depth : Nat) : String := String.ofList ('\n' :: List.replicate depth '\t')

/-- A character of a text that is put at a depth. -/
def movedChar (depth : Nat) (c : Char) : List Char :=
  if c = '\n' then '\n' :: List.replicate depth '\t' else [c]

/-- A text whose first line goes on where it is, with the given number of tabs more in front of
each later line. -/
def moved (depth : Nat) (text : String) : String :=
  String.ofList (text.toList.flatMap (movedChar depth))

/-- A text of one line. -/
def IsLine (text : String) : Prop := '\n' ∉ text.toList

instance (text : String) : Decidable (IsLine text) := inferInstanceAs (Decidable (¬ _))

theorem flatMap_movedChar_zero (cs : List Char) : cs.flatMap (movedChar 0) = cs := by
  have hchar : movedChar 0 = fun c => [c] := by
    funext c
    simp +contextual [movedChar]
  rw [hchar, List.flatMap_singleton']

theorem flatMap_movedChar_of_not_mem {depth : Nat} {cs : List Char} (h : '\n' ∉ cs) :
    cs.flatMap (movedChar depth) = cs := by
  induction cs with
  | nil => rfl
  | cons c rest ih =>
    have hc : c ≠ '\n' := fun eq => h (by simp [eq])
    simp [movedChar, hc, ih fun m => h (List.mem_cons_of_mem _ m)]

/-- Moving characters twice is moving them once by the sum. -/
theorem flatMap_movedChar_movedChar (a b : Nat) (cs : List Char) :
    (cs.flatMap (movedChar b)).flatMap (movedChar a) = cs.flatMap (movedChar (a + b)) := by
  rw [List.flatMap_assoc]
  congr 1
  funext c
  by_cases hc : c = '\n'
  · have htabs : '\n' ∉ List.replicate b '\t' := by simp [List.mem_replicate]
    simp [movedChar, hc, flatMap_movedChar_of_not_mem htabs, ← List.replicate_append_replicate]
  · simp [movedChar, hc]

theorem mem_newLine_flatMap_movedChar {depth : Nat} {cs : List Char} :
    '\n' ∈ cs.flatMap (movedChar depth) ↔ '\n' ∈ cs := by
  constructor
  · intro h
    obtain ⟨c, hc, hmem⟩ := List.mem_flatMap.1 h
    by_cases heq : c = '\n'
    · exact heq ▸ hc
    · rw [movedChar, if_neg heq, List.mem_singleton] at hmem
      exact absurd hmem.symm heq
  · exact fun h => List.mem_flatMap.2 ⟨'\n', h, by simp [movedChar]⟩

theorem flatMap_movedChar_eq_nil_iff {depth : Nat} {cs : List Char} :
    cs.flatMap (movedChar depth) = [] ↔ cs = [] := by
  cases cs with
  | nil => simp
  | cons c rest =>
    have hne : movedChar depth c ≠ [] := by
      unfold movedChar
      split <;> simp
    simp [hne]

/-- Every line end makes a moved text longer by the depth. -/
theorem length_flatMap_movedChar (depth : Nat) (cs : List Char) :
    (cs.flatMap (movedChar depth)).length = cs.length + depth * cs.count '\n' := by
  induction cs with
  | nil => rfl
  | cons c rest ih =>
    rw [List.flatMap_cons, List.length_append, ih, List.count_cons, movedChar]
    by_cases hc : c = '\n'
    · simp only [hc, if_true, List.length_cons, List.length_replicate, beq_self_eq_true,
        Nat.mul_add]
      omega
    · simp only [hc, if_false, List.length_cons, List.length_nil, beq_eq_false_iff_ne.2 hc,
        Bool.false_eq_true, Nat.mul_add, Nat.mul_zero]
      omega

@[simp] theorem moved_zero (text : String) : moved 0 text = text := by
  rw [moved, flatMap_movedChar_zero, String.ofList_toList]

theorem moved_of_isLine {depth : Nat} {text : String} (h : IsLine text) :
    moved depth text = text := by
  rw [moved, flatMap_movedChar_of_not_mem h, String.ofList_toList]

@[simp] theorem moved_append (depth : Nat) (a b : String) :
    moved depth (a ++ b) = moved depth a ++ moved depth b := by
  apply String.toList_inj.1
  simp [moved]

/-- Moving a text twice is moving it once by the sum. -/
theorem moved_moved (a b : Nat) (text : String) : moved a (moved b text) = moved (a + b) text := by
  rw [moved, moved, String.toList_ofList, flatMap_movedChar_movedChar]
  rfl

theorem moved_newLine (depth extra : Nat) :
    moved extra (newLine depth) = newLine (extra + depth) := by
  have : newLine depth = moved depth "\n" := by simp [newLine, moved, movedChar]
  rw [this, moved_moved]
  simp [newLine, moved, movedChar]

/-- Only a text of one line stays as it is wherever it is moved to. -/
theorem moved_eq_self_iff {depth : Nat} {text : String} :
    moved depth text = text ↔ depth = 0 ∨ IsLine text := by
  constructor
  · intro h
    have hsame := congrArg (fun text : String => text.toList.length) h
    simp only [moved, String.toList_ofList, length_flatMap_movedChar] at hsame
    have hnone : depth * text.toList.count '\n' = 0 := by omega
    exact (Nat.mul_eq_zero.1 hnone).imp_right List.count_eq_zero.1
  · rintro (rfl | hline)
    · exact moved_zero text
    · exact moved_of_isLine hline

/-! ### Trimming a text that is moved -/

theorem isBlank_of_mem_movedChar {depth : Nat} {c : Char} (hc : isBlank c) :
    ∀ d ∈ movedChar depth c, isBlank d := by
  intro d hd
  unfold movedChar at hd
  split at hd
  · rcases List.mem_cons.1 hd with rfl | hd
    · decide
    · rw [(List.mem_replicate.1 hd).2]
      decide
  · rwa [List.mem_singleton.1 hd]

theorem movedChar_of_visible {depth : Nat} {c : Char} (hc : isBlank c = false) :
    movedChar depth c = [c] := by
  refine if_neg ?_
  rintro rfl
  exact absurd hc (by decide)

/-- Blanks at the start do not show after trimming. -/
theorem trimStart_append_blanks {blanks : List Char} (h : ∀ c ∈ blanks, isBlank c)
    (cs : List Char) : trimStart (blanks ++ cs) = trimStart cs :=
  List.dropWhile_append_of_pos h

theorem trimStart_cons {c : Char} (hc : isBlank c = false) (rest : List Char) :
    trimStart (c :: rest) = c :: rest := by
  simp [trimStart, hc]

theorem trimStart_flatMap_movedChar (depth : Nat) (cs : List Char) :
    trimStart (cs.flatMap (movedChar depth)) = (trimStart cs).flatMap (movedChar depth) := by
  induction cs with
  | nil => rfl
  | cons c rest ih =>
    rw [List.flatMap_cons]
    cases hc : isBlank c with
    | true =>
      rw [trimStart_append_blanks (isBlank_of_mem_movedChar hc), ih]
      simp [trimStart, hc]
    | false =>
      rw [movedChar_of_visible hc, trimStart_cons hc, List.flatMap_cons, movedChar_of_visible hc]
      exact trimStart_cons hc _

theorem trimEnd_append_of_eq_nil {ds : List Char} (h : trimEnd ds = []) (cs : List Char) :
    trimEnd (cs ++ ds) = trimEnd cs := by
  induction cs with
  | nil => exact h
  | cons c rest ih => simp only [List.cons_append, trimEnd, ih]

/-- Nothing is trimmed in front of what is kept. -/
theorem trimEnd_append_of_ne_nil {ds : List Char} (h : trimEnd ds ≠ []) (cs : List Char) :
    trimEnd (cs ++ ds) = cs ++ trimEnd ds := by
  induction cs with
  | nil => rfl
  | cons c rest ih =>
    obtain ⟨d, others, hkept⟩ := List.exists_cons_of_ne_nil (l := rest ++ trimEnd ds) (by simp [h])
    rw [List.cons_append, trimEnd, ih, hkept, List.cons_append, hkept]

theorem trimEnd_flatMap_movedChar (depth : Nat) (cs : List Char) :
    trimEnd (cs.flatMap (movedChar depth)) = (trimEnd cs).flatMap (movedChar depth) := by
  induction cs with
  | nil => rfl
  | cons c rest ih =>
    rw [List.flatMap_cons]
    by_cases hkept : trimEnd rest = []
    · rw [hkept] at ih
      rw [trimEnd_append_of_eq_nil ih, trimEnd, hkept]
      cases hc : isBlank c with
      | true =>
        have hblank : ∀ d ∈ movedChar depth c, isBlank d := isBlank_of_mem_movedChar hc
        simpa using trimEnd_append_blanks [] hblank
      | false => simp [trimEnd, hc, movedChar_of_visible hc]
    · have hmoved : trimEnd (rest.flatMap (movedChar depth)) ≠ [] := by
        rwa [ih, Ne, flatMap_movedChar_eq_nil_iff]
      have hcons : trimEnd (c :: rest) = c :: trimEnd rest :=
        trimEnd_append_of_ne_nil hkept [c]
      rw [trimEnd_append_of_ne_nil hmoved, ih, hcons, List.flatMap_cons]

/-- A moved text is trimmed like the text itself. -/
theorem trim_flatMap_movedChar (depth : Nat) (cs : List Char) :
    trim (cs.flatMap (movedChar depth)) = (trim cs).flatMap (movedChar depth) := by
  rw [trim, trimStart_flatMap_movedChar, trimEnd_flatMap_movedChar]
  rfl

/-- A text is indented and trimmed by moving what is left of it after trimming: the tab in front of
its first line goes with the blanks there. -/
theorem toList_trimmed_indent (text : String) :
    (trimmed (indent text)).toList = (trim text.toList).flatMap (movedChar 1) := by
  have hshift : shiftLines text.toList = text.toList.flatMap (movedChar 1) := rfl
  have hblank : ∀ c ∈ ['\t'], isBlank c := by simp [isBlank]
  have htab : trim ('\t' :: shiftLines text.toList) = trim (shiftLines text.toList) :=
    congrArg trimEnd (trimStart_append_blanks hblank _)
  rw [trimmed, indent, String.toList_ofList, String.toList_ofList, htab, hshift,
    trim_flatMap_movedChar]

/-! ### Texts that are left alone -/

/-- A text that ends, and not in a blank. -/
def EndsVisibly (text : String) : Prop := ∃ c ∈ text.toList.getLast?, isBlank c = false

/-- A text of one line that ends visibly. -/
def IsTidy (text : String) : Prop := IsLine text ∧ EndsVisibly text

instance (text : String) : Decidable (EndsVisibly text) :=
  decidable_of_iff (text.toList.getLast?.any fun c => !isBlank c)
    (by simp [EndsVisibly, Option.any_eq_true])

instance (text : String) : Decidable (IsTidy text) := inferInstanceAs (Decidable (_ ∧ _))

theorem IsLine.append {first rest : String} (hfirst : IsLine first) (hrest : IsLine rest) :
    IsLine (first ++ rest) := by
  simpa [IsLine] using ⟨hfirst, hrest⟩

theorem EndsVisibly.append (first : String) {rest : String} (h : EndsVisibly rest) :
    EndsVisibly (first ++ rest) := by
  obtain ⟨c, hc, hvisible⟩ := h
  refine ⟨c, ?_, hvisible⟩
  rw [String.toList_append, List.getLast?_append, hc]
  rfl

theorem IsTidy.append {first rest : String} (h : IsTidy rest) (hfirst : IsLine first) :
    IsTidy (first ++ rest) :=
  ⟨hfirst.append h.1, h.2.append first⟩

/-- Tidy texts with texts of one line between them are tidy. -/
theorem isTidy_intercalate {separator : String} (hseparator : IsLine separator)
    {texts : List String} (hne : texts ≠ []) (h : ∀ text ∈ texts, IsTidy text) :
    IsTidy (String.intercalate separator texts) := by
  induction texts with
  | nil => exact absurd rfl hne
  | cons first rest ih =>
    by_cases hrest : rest = []
    · simpa [hrest] using h first (by simp)
    · rw [String.intercalate_cons_of_ne_nil hrest]
      exact (ih hrest fun text ht => h text (List.mem_cons_of_mem _ ht)).append
        ((h first (by simp)).1.append hseparator)

theorem isBlank_of_isDigit {c : Char} (h : c.isDigit) : isBlank c = false := by
  obtain ⟨hlow, hhigh⟩ := isDigit_iff.1 h
  simp [isBlank]
  omega

/-- A number is written in digits. -/
theorem isTidy_repr (n : Nat) : IsTidy n.repr := by
  have hdigit : ∀ c ∈ n.repr.toList, isBlank c = false := fun c hc =>
    isBlank_of_isDigit (Nat.isDigit_of_mem_toDigits (b := 10) (n := n) (by decide) (by decide)
      (by simpa [Nat.repr] using hc))
  have hne : n.repr.toList ≠ [] := by simp [Nat.repr, Nat.toDigits_ne_nil]
  constructor
  · intro h
    exact absurd (hdigit _ h) (by decide)
  · exact ⟨_, List.getLast?_eq_some_getLast hne, hdigit _ (List.getLast_mem hne)⟩

theorem trimEnd_of_endsVisibly {text : String} (h : EndsVisibly text) :
    trimEnd text.toList = text.toList := by
  obtain ⟨c, hc, hvisible⟩ := h
  obtain ⟨cs, hcs⟩ := List.getLast?_eq_some_iff.1 hc
  rw [hcs, trimEnd_eq_self hvisible]

/-- A statement that is put into another one loses its last line end, and nothing else. -/
theorem trimmed_indent {text : String} {c : Char} {rest : List Char}
    (hstart : text.toList = c :: rest) (hc : isBlank c = false) (hend : EndsVisibly text) :
    trimmed (indent (text ++ "\n")) = moved 1 text := by
  have hfirst : trimStart (text ++ "\n").toList = text.toList ++ ['\n'] := by
    rw [String.toList_append, hstart]
    exact trimStart_cons hc _
  have hblank : ∀ c ∈ ['\n'], isBlank c := by simp [isBlank]
  have hlast : trimEnd (text.toList ++ ['\n']) = text.toList :=
    (trimEnd_append_blanks text.toList hblank).trans (trimEnd_of_endsVisibly hend)
  apply String.toList_inj.1
  rw [toList_trimmed_indent, trim, hfirst, hlast, moved, String.toList_ofList]

end Schemata.Text
