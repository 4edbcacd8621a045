import Mathlib.Data.List.Induction
import Schemata.Proofs.Query.Keys
import Schemata.Proofs.Query.Lexeme

/-!
# Nobody breaks out of a literal

The values in an expression come from users. A text among them stands between two marks, and its own
marks are doubled, wherever they are in it and however many of them come one after the other. A
reader takes two marks for one, and stops at a mark that is followed by none. So it depends on what
comes next whether a mark is the last one; but only a mark right behind the literal can mislead.

What comes before the literal may mislead as well. An operator is written as it is: if it leaves
quotes or a comment open, then the marks of the literal are something else. This is in the hands of
those who write the operators: where they leave nothing open, a text changes its own token only.

## Main definitions

* `Literal.readText?`: reads a text literal and leaves what is behind it
* `Expression.opening`: what an expression has before the value
* `Lexeme.IsPlain`: text without quotes and comments

## Main results

* `Literal.readText?_eq_some_iff`: a text literal is read exactly where it has been written
* `Lexeme.lexemes_literal_iff_isFree`: when a literal is a token of its own
* `Lexeme.IsPlain.isFree`: it is one behind text without quotes and comments
* `Literal.text_stays_whole`: texts do not change the structure of the expressions that they are in
-/

namespace Schemata

open Lexeme (Reading)

/-! ### Reading a literal -/

/-- Reads a text literal: the text that it stands for, and what is left behind it. -/
def Literal.readText? (sql : String) : Option (String × String) := do
  let sql ← Members.after? "'" sql.toList
  let (cs, rest) ← Text.Quoted.scan '\'' sql
  return (String.ofList cs, String.ofList rest)

/-- A text is read where its literal stands and no further mark follows, and nowhere else. -/
theorem Literal.readText?_eq_some_iff {sql s rest : String} :
    readText? sql = some (s, rest) ↔
      sql = (text s).render ++ rest ∧ rest.toList.head? ≠ some '\'' := by
  have hrender : ((text s).render ++ rest).toList =
      "'".toList ++ (Text.Quoted.body '\'' s.toList ++ '\'' :: rest.toList) := by
    simp [render, Text.Quoted.render]
  constructor
  · intro h
    obtain ⟨opened, hmark, hread⟩ := Option.bind_eq_some_iff.1 h
    obtain ⟨⟨cs, after⟩, hscan, heq⟩ := Option.bind_eq_some_iff.1 hread
    cases heq
    obtain ⟨rfl, hafter⟩ := Text.Quoted.scan_eq_some_iff.1 hscan
    refine ⟨String.toList_inj.1 ?_, by rwa [String.toList_ofList]⟩
    simp only [hrender, Members.after?_eq_some_iff.1 hmark, String.toList_ofList]
  · rintro ⟨rfl, hrest⟩
    rw [readText?, hrender, Members.after?_append]
    simp [Text.Quoted.scan_body _ _ hrest]

theorem Literal.render_text_injective : Function.Injective fun s => (text s).render := by
  intro s s' heq
  have hread (s : String) : readText? (text s).render = some (s, "") :=
    readText?_eq_some_iff.2 ⟨by simp, by simp⟩
  have hsame := congrArg readText? heq
  simp only [hread] at hsame
  exact (Prod.mk.inj (Option.some.inj hsame)).1

/-! ### Where a literal may begin -/

namespace Lexeme

/-- The text has no quotes and begins no comments. -/
def IsPlain (text : String) : Prop :=
  (∀ c ∈ text.toList, Quoting.of? c = none) ∧
    ¬ ['-', '-'] <:+: text.toList ∧ ¬ ['/', '*'] <:+: text.toList

instance (text : String) : Decidable (IsPlain text) := inferInstanceAs (Decidable (_ ∧ _))

namespace Reading

/-- The last character belongs neither to quotes nor to a comment. -/
def isPlain (r : Reading) : Bool :=
  match r.mode with
  | .blank | .word _ | .symbol _ => true
  | _ => false

theorem isFree_of_isPlain {r : Reading} (h : r.isPlain) : r.isFree := by
  unfold isPlain at h
  unfold isFree
  split at h <;> simp_all

theorem isPlain_start {done : List Lexeme} {c : Char} (h : Quoting.of? c = none) :
    (start done c).isPlain := by
  simp only [start, h]
  repeat' split
  all_goals rfl

/-- The last character of a sign is the one that has been read last. -/
theorem getLast?_of_mode_next {r : Reading} {c : Char} {text : List Char}
    (h : (r.next c).mode = .symbol text) : text.getLast? = some c := by
  have hstart {done : List Lexeme} (h : (start done c).mode = .symbol text) :
      text.getLast? = some c := by
    unfold start at h
    repeat' split at h
    all_goals
      cases h
    rfl
  obtain ⟨done, mode⟩ := r
  -- The character goes on with a sign, or it begins the next token.
  cases mode with
  | symbol begun =>
    simp only [next] at h
    repeat' split at h
    · cases h
    · cases h
    · cases h
      exact List.getLast?_concat
    · exact hstart h
  | _ =>
    simp only [next] at h
    repeat' split at h
    all_goals first | exact hstart h | cases h

theorem getLast?_of_mode_read {cs text : List Char}
    (h : (Reading.read {} cs).mode = .symbol text) : text.getLast? = cs.getLast? := by
  obtain rfl | ⟨cs, c, rfl⟩ := List.eq_nil_or_concat cs
  · cases h
  · rw [List.concat_eq_append] at h ⊢
    rw [read_append] at h
    rw [List.getLast?_concat]
    exact getLast?_of_mode_next h

/-- Behind text without quotes and comments the next token may begin. Two signs would have to stand
side by side to begin a comment. -/
theorem isPlain_read {cs : List Char} (hquotes : ∀ c ∈ cs, Quoting.of? c = none)
    (hline : ¬ ['-', '-'] <:+: cs) (hblock : ¬ ['/', '*'] <:+: cs) :
    (Reading.read {} cs).isPlain := by
  induction cs using List.reverseRecOn with
  | nil => rfl
  | append_singleton cs c ih =>
    have hc : Quoting.of? c = none := hquotes c (by simp)
    have hplain := ih (fun c hc => hquotes c (List.mem_append_left _ hc))
      (fun h => hline (h.trans (List.infix_append' [] cs [c])))
      (fun h => hblock (h.trans (List.infix_append' [] cs [c])))
    -- A sign of one character is the character before.
    have hpair {first : Char} (hmode : (Reading.read {} cs).mode = .symbol [first]) :
        [first, c] <:+: cs ++ [c] := by
      have hlast : cs.getLast? = some first := (getLast?_of_mode_read hmode).symm
      obtain ⟨before, rfl⟩ := List.getLast?_eq_some_iff.1 hlast
      exact ⟨before, [], by simp⟩
    rw [read_append, read_cons, read_nil]
    generalize Reading.read {} cs = r at hplain hpair
    obtain ⟨done, mode⟩ := r
    cases mode with
    | blank => exact isPlain_start hc
    | word text =>
      unfold next
      dsimp only
      split
      · rfl
      · exact isPlain_start hc
    | symbol text =>
      unfold next
      dsimp only
      split
      · rename_i h
        obtain ⟨rfl, rfl⟩ := h
        exact absurd (hpair rfl) hline
      · split
        · rename_i h
          obtain ⟨rfl, rfl⟩ := h
          exact absurd (hpair rfl) hblock
        · split
          · rfl
          · exact isPlain_start hc
    | quoted | closing | lineComment | blockComment => cases hplain

end Reading

theorem IsPlain.isFree {text : String} (h : IsPlain text) :
    (Reading.read {} text.toList).isFree :=
  Reading.isFree_of_isPlain (Reading.isPlain_read h.1 h.2.1 h.2.2)

/-- Where no literal may begin, the marks of an empty one do not become a token. -/
theorem Reading.length_lexemes_of_not_isFree {r : Reading} (h : r.isFree = false) :
    (r.read ['\'', '\'']).lexemes.length = r.lexemes.length := by
  obtain ⟨done, mode⟩ := r
  -- What goes on takes both marks: as text, or as one mark that is doubled, or within a comment.
  cases mode with
  | blank | word | symbol => cases h
  | quoted quoting text => cases quoting <;> simp [next, lexemes, Mode.pending, Quoting.mark]
  | closing quoting text =>
    cases quoting with
    | literal => simp [next, lexemes, Mode.pending, Quoting.mark]
    | name | tickedName => cases h
  | lineComment => rfl
  | blockComment starred => simp [next, lexemes, Mode.pending]

/-- Every literal is a token of its own behind a text, and the tokens of what comes next follow,
exactly if a literal may begin there. -/
theorem lexemes_literal_iff_isFree {front : String} :
    (∀ s after : String, after.toList.head? ≠ some '\'' →
      lexemes (front ++ (Literal.text s).render ++ after) =
        lexemes front ++ .quoted .literal s.toList :: lexemes after) ↔
      (Reading.read {} front.toList).isFree := by
  have hread (s after : String) : lexemes (front ++ (Literal.text s).render ++ after) =
      ((Reading.read {} front.toList).read
        (Text.Quoted.render '\'' s.toList ++ after.toList)).lexemes := by
    simp [lexemes, Literal.render, Reading.read_append]
  constructor
  · intro hall
    by_contra hfree
    -- An empty literal with nothing behind it would be one token more.
    have hempty := congrArg List.length (hall "" "" (by simp))
    have hmarks : Text.Quoted.render '\'' "".toList ++ "".toList = ['\'', '\''] := rfl
    rw [hread, hmarks, Reading.length_lexemes_of_not_isFree (by simpa using hfree)] at hempty
    simp [lexemes] at hempty
  · intro hfree s after hafter
    rw [hread]
    exact Reading.lexemes_literal hfree s.toList hafter

end Lexeme

/-! ### Expressions with a text -/

namespace Expression

/-- What stands before the value where a column is compared with one. -/
def opening (leaf : Leaf) (operator : String) : String := leaf.render ++ " " ++ operator ++ " "

/-- Reads the comparison of a column with a text: the text, and what is left behind it. -/
def readText? (leaf : Leaf) (operator sql : String) : Option (String × String) := do
  let sql ← Members.after? (opening leaf operator) sql.toList
  Literal.readText? (String.ofList sql)

variable {leaf : Leaf} {operator : String}

theorem render_binary (literal : Literal) :
    (binary (.column leaf) operator (.value literal)).render =
      opening leaf operator ++ literal.render := by
  apply String.toList_inj.1
  simp [render, binary, opening, Part.render]

/-- The comparison is read where it stands and no further mark follows, and nowhere else. -/
theorem readText?_eq_some_iff {sql s rest : String} :
    readText? leaf operator sql = some (s, rest) ↔
      sql = (binary (.column leaf) operator (.value (.text s))).render ++ rest ∧
        rest.toList.head? ≠ some '\'' := by
  simp only [readText?, Option.bind_eq_bind, Option.bind_eq_some_iff, Members.after?_eq_some_iff,
    Literal.readText?_eq_some_iff, render_binary]
  constructor
  · rintro ⟨cs, hsql, hcs, hrest⟩
    refine ⟨String.toList_inj.1 ?_, hrest⟩
    rw [hsql, String.append_assoc, ← hcs]
    simp
  · rintro ⟨rfl, hrest⟩
    exact ⟨((Literal.text s).render ++ rest).toList, by simp, by simp, hrest⟩

end Expression

/-- Nobody breaks out of a text literal. What is read as one is its rendering, no more and no less,
and different texts have different ones. So a comparison of a column with a text consists of the
column, the operator and the text, whatever these are. In a statement, all other tokens stay the
same if a literal may begin behind the operator, and only then; it may if there are no quotes and no
comments before. -/
theorem Literal.text_stays_whole :
    (∀ sql s rest, readText? sql = some (s, rest) ↔
      sql = (text s).render ++ rest ∧ rest.toList.head? ≠ some '\'') ∧
    (Function.Injective fun s => (text s).render) ∧
    ∀ leaf operator,
      (∀ sql s rest, Expression.readText? leaf operator sql = some (s, rest) ↔
        sql = (Expression.binary (.column leaf) operator (.value (text s))).render ++ rest ∧
          rest.toList.head? ≠ some '\'') ∧
      ∀ before,
        ((∀ s after : String, after.toList.head? ≠ some '\'' →
            lexemes (before ++
                (Expression.binary (.column leaf) operator (.value (text s))).render ++ after) =
              lexemes (before ++ Expression.opening leaf operator) ++
                .quoted .literal s.toList :: lexemes after) ↔
          (Reading.read {} (before ++ Expression.opening leaf operator).toList).isFree) ∧
        (Lexeme.IsPlain (before ++ Expression.opening leaf operator) →
          (Reading.read {} (before ++ Expression.opening leaf operator).toList).isFree) := by
  refine ⟨fun _ _ _ => readText?_eq_some_iff, render_text_injective, fun leaf operator =>
    ⟨fun _ _ _ => Expression.readText?_eq_some_iff, fun before => ⟨?_, Lexeme.IsPlain.isFree⟩⟩⟩
  rw [← Lexeme.lexemes_literal_iff_isFree]
  simp only [Expression.render_binary, String.append_assoc]

/-- A text that tries to get out with a mark at its start and a comment at its end stays a token, in
front of a limit that stays in force. No literal may begin where an operator leaves quotes open. -/
theorem text_stays_whole_comment :
    let s := "' OR 1=1 --"
    let name : Leaf := ⟨"X3", "name"⟩
    let before := "SELECT X3.id FROM User X3 WHERE "
    Literal.readText? "''' OR 1=1 --'\nLIMIT 1" = some (s, "\nLIMIT 1") ∧
      Expression.readText? name "=" "X3.name = ''' OR 1=1 --'\nLIMIT 1" = some (s, "\nLIMIT 1") ∧
      lexemes (before ++
          (Expression.binary (.column name) "=" (.value (.text s))).render ++ "\nLIMIT 1") =
        lexemes (before ++ Expression.opening name "=") ++
          .quoted .literal s.toList :: lexemes "\nLIMIT 1" ∧
      ¬ (Reading.read {} (before ++ Expression.opening name "= '").toList).isFree := by
  intro s name before
  obtain ⟨hread, -, hbinary⟩ := Literal.text_stays_whole
  obtain ⟨hreadBinary, hstatement⟩ := hbinary name "="
  obtain ⟨htokens, hfree⟩ := hstatement before
  exact ⟨(hread _ _ _).2 (by decide +kernel), (hreadBinary _ _ _).2 (by decide +kernel),
    htokens.2 (hfree (by decide +kernel)) s "\nLIMIT 1" (by decide +kernel), by decide +kernel⟩

end Schemata
