import Schemata.Ddl.Statement
import Schemata.Proofs.Query.Lexeme

/-!
# The parentheses of an index

A statement that creates an index has a list of indexed expressions in parentheses behind the name
of the table, and behind that list there may be a condition. A schema may define an index by the
list alone, or with the parentheses around it. Which of the two it is, is decided by whether there
is an opening parenthesis anywhere in the definition.

So a definition that has its parentheses is written as it is, whatever follows it. A list alone gets
its parentheses only if there are none within it; a call in it is taken for a list that has them.
And a condition behind such a list is put into the parentheses with it.

## Main definitions

* `Nesting`, `Nesting.next?`: how many parentheses are open, outside quotes and comments
* `enclosed?`: what stands in the first parentheses of a text, and what is behind them
* `IsExpressionList`: expressions with balanced parentheses, and commas between them
* `IsEnclosedIndex`, `IsBareIndex`: the two ways to define an index
* `Statement.CarriesList`: a statement has a list in one pair of parentheses

## Main results

* `enclosed?_of_balanced`, `eq_of_enclosed?`: what is read of a list in parentheses
* `createIndex_carriesList_iff`: which statements have their list in one pair of parentheses
-/

namespace Schemata

open Lexeme (Mode Reading isSpace isWordPart longOperators)

/-! ### Reading parentheses -/

namespace Lexeme.Mode

/-- The mode after one more character. -/
def after (mode : Mode) (c : Char) : Mode := (Reading.next ⟨[], mode⟩ c).mode

/-- Neither a quoted text nor a comment goes on. -/
def isOutside : Mode → Bool
  | blank | word _ | symbol _ | closing _ _ => true
  | quoted _ _ | lineComment | blockComment _ => false

end Lexeme.Mode

/-- How far a text has been read: what the next character goes on with, and how many parentheses are
open. -/
structure Nesting where
  /-- What the next character goes on with. -/
  mode : Mode := .blank
  /-- The number of open parentheses. -/
  depth : Nat := 0

namespace Nesting

/-- Reads one character, unless it closes a parenthesis that was open before. -/
def next? (n : Nesting) (c : Char) : Option Nesting :=
  match n.mode.after c with
  | .symbol ['('] => some ⟨.symbol ['('], n.depth + 1⟩
  | .symbol [')'] => if n.depth = 0 then none else some ⟨.symbol [')'], n.depth - 1⟩
  | mode => some ⟨mode, n.depth⟩

/-- Reads characters one after the other. -/
def read? (n : Nesting) (cs : List Char) : Option Nesting := cs.foldlM next? n

/-- Splits a text around the first parenthesis that closes one that was open before. -/
def close? : Nesting → List Char → Option (List Char × List Char)
  | _, [] => none
  | n, c :: rest =>
    match n.next? c with
    | none => some ([], rest)
    | some n => (n.close? rest).map fun (inside, behind) => (c :: inside, behind)

end Nesting

/-- What stands in the parentheses that a text begins with, and what is behind them. -/
def enclosed? : List Char → Option (List Char × List Char)
  | '(' :: rest => Nesting.close? ⟨.symbol ['('], 0⟩ rest
  | _ => none

/-- Every parenthesis is closed, and so are quotes and comments. -/
def isBalanced (cs : List Char) : Bool :=
  (Nesting.read? {} cs).any fun n => n.depth = 0 && n.mode.isOutside

/-- Expressions with balanced parentheses, and commas between them. -/
inductive IsExpressionList : List Char → Prop
  | single {item : List Char} : isBalanced item → IsExpressionList item
  | further {item rest : List Char} :
    isBalanced item → IsExpressionList rest → IsExpressionList (item ++ ',' :: rest)

namespace Lexeme.Mode

variable {mode : Mode} {c : Char}

/-- Parentheses and commas are no blanks and belong to no word, no quoted text and no comment. -/
theorem of_mem_marks (hc : c ∈ ['(', ')', ',']) : isSpace c = false ∧ Quoting.of? c = none ∧
    isWordPart c = false ∧ (c ≠ '-' ∧ c ≠ '*') ∧ c ∉ ['|', '=', '<', '>'] := by
  revert c
  decide

/-- Outside quotes and comments a parenthesis or a comma is a token of its own. -/
theorem after_of_isOutside (h : mode.isOutside) (hc : c ∈ ['(', ')', ',']) :
    mode.after c = .symbol [c] := by
  obtain ⟨hspace, hquoting, hword, hcomment, hlong⟩ := of_mem_marks hc
  have hstart (done : List Lexeme) : Reading.start done c = ⟨done, .symbol [c]⟩ := by
    simp [Reading.start, hspace, hquoting, hword]
  cases mode with
  | blank => simp [after, Reading.next, hstart]
  | word text => simp [after, Reading.next, hword, hstart]
  | symbol text =>
    have hlong := Reading.not_mem_longOperators hlong text
    simp [after, Reading.next, hcomment, hlong, hstart]
  | closing quoting text =>
    have hmark : c ≠ quoting.mark := by
      rintro rfl
      exact absurd hquoting (by cases quoting <;> decide)
    simp [after, Reading.next, hmark, hstart]
  | quoted quoting text => cases h
  | lineComment => cases h
  | blockComment starred => cases h

/-- Behind a parenthesis or a comma a text is read as at its beginning. -/
theorem after_symbol (hc : c ∈ ['(', ',']) (d : Char) :
    (symbol [c]).after d = blank.after d := by
  have hheads : ∀ operator ∈ longOperators, ∀ c ∈ ['(', ','], operator.head? ≠ some c := by
    decide
  have hlong : [c, d] ∉ longOperators := fun hmem => hheads _ hmem c hc rfl
  have hcomment : c ≠ '-' ∧ c ≠ '/' := by
    constructor <;> rintro rfl <;> simp at hc
  obtain ⟨mode, -, hstart⟩ := Reading.start_eq d
  simp [after, Reading.next, hcomment, hlong, hstart]

/-- The last character of a sign is the one that has just been read. -/
theorem getLast?_of_after {text : List Char} (h : mode.after c = symbol text) :
    text.getLast? = some c := by
  -- A sign begins with the character, or the character is put at its end.
  have hstart {done : List Lexeme} (h : (Reading.start done c).mode = symbol text) :
      text.getLast? = some c := by
    unfold Reading.start at h
    repeat' split at h
    all_goals cases h
    rfl
  unfold after Reading.next at h
  cases mode with
  | blank => exact hstart h
  | word read =>
    dsimp only at h
    split at h
    · cases h
    · exact hstart h
  | symbol read =>
    dsimp only at h
    split at h
    · cases h
    · split at h
      · cases h
      · split at h
        · cases h
          simp
        · exact hstart h
  | quoted quoting read =>
    dsimp only at h
    split at h <;> cases h
  | closing quoting read =>
    dsimp only at h
    split at h
    · cases h
    · exact hstart h
  | lineComment =>
    dsimp only at h
    split at h <;> cases h
  | blockComment starred =>
    dsimp only at h
    split at h <;> cases h

end Lexeme.Mode

namespace Nesting

variable {n n' : Nesting} {cs ds inside behind : List Char} {c : Char}

/-- Only a closing parenthesis is not read on. -/
theorem eq_of_next?_eq_none (h : n.next? c = none) : c = ')' := by
  unfold next? at h
  split at h
  · cases h
  · next hmode => simpa using (Mode.getLast?_of_after hmode).symm
  · cases h

/-- Where no parenthesis is open and nothing is quoted, one cannot be closed. -/
theorem next?_closing (hdepth : n.depth = 0) (hmode : n.mode.isOutside) : n.next? ')' = none := by
  simp [next?, Mode.after_of_isOutside hmode, hdepth]

theorem read?_append : n.read? (cs ++ ds) = (n.read? cs).bind fun n => n.read? ds :=
  List.foldlM_append

/-- A text that is read to its end stands in front of the parenthesis that is closed behind it. -/
theorem close?_of_read? (hread : n.read? cs = some n') (hclose : n'.next? ')' = none) :
    n.close? (cs ++ ')' :: behind) = some (cs, behind) := by
  induction cs generalizing n with
  | nil =>
    obtain rfl : n = n' := Option.some.inj hread
    simp [close?, hclose]
  | cons c cs ih =>
    obtain ⟨next, hnext, hrest⟩ := Option.bind_eq_some_iff.1 hread
    simp [close?, hnext, ih hrest]

/-- A text is split around a closing parenthesis. -/
theorem eq_of_close? (h : n.close? cs = some (inside, behind)) : cs = inside ++ ')' :: behind := by
  induction cs generalizing n inside with
  | nil => cases h
  | cons c cs ih =>
    rw [close?] at h
    split at h
    · next hnext =>
      obtain ⟨rfl, rfl⟩ := Prod.mk.inj (Option.some.inj h)
      rw [eq_of_next?_eq_none hnext, List.nil_append]
    · obtain ⟨⟨inside', behind'⟩, hclose, heq⟩ := Option.map_eq_some_iff.1 h
      obtain ⟨rfl, rfl⟩ := Prod.mk.inj heq
      rw [ih hclose, List.cons_append]

end Nesting

/-! ### Lists in parentheses -/

section Lists

variable {cs item list inside behind : List Char} {c : Char}

theorem isBalanced_iff : isBalanced cs ↔
    ∃ n, Nesting.read? {} cs = some n ∧ n.depth = 0 ∧ n.mode.isOutside := by
  simp [isBalanced, Option.any_eq_true]

/-- A balanced text is balanced behind a parenthesis or a comma, too. -/
theorem exists_read?_of_isBalanced (h : isBalanced cs) (hc : c ∈ ['(', ',']) :
    ∃ n, Nesting.read? ⟨.symbol [c], 0⟩ cs = some n ∧ n.depth = 0 ∧ n.mode.isOutside := by
  cases cs with
  | nil => exact ⟨_, rfl, rfl, rfl⟩
  | cons d cs =>
    -- The first character is read in the same way, and everything else behind it.
    have hnext : Nesting.next? ⟨.symbol [c], 0⟩ d = Nesting.next? {} d := by
      simp only [Nesting.next?, Mode.after_symbol hc]
    obtain ⟨n, hread, hn⟩ := isBalanced_iff.1 h
    refine ⟨n, ?_, hn⟩
    rw [← hread, Nesting.read?, Nesting.read?, List.foldlM_cons, List.foldlM_cons, hnext]

/-- A list of balanced expressions is balanced. -/
theorem IsExpressionList.isBalanced (h : IsExpressionList list) : isBalanced list := by
  induction h with
  | single hitem => exact hitem
  | @further item rest hitem _ ih =>
    obtain ⟨n, hread, hdepth, hmode⟩ := isBalanced_iff.1 hitem
    obtain ⟨n', hread', hn'⟩ := exists_read?_of_isBalanced (c := ',') ih (by simp)
    refine isBalanced_iff.2 ⟨n', ?_, hn'⟩
    have hcomma : n.next? ',' = some ⟨.symbol [','], 0⟩ := by
      simp [Nesting.next?, Mode.after_of_isOutside hmode, hdepth]
    rw [Nesting.read?_append, hread, Option.bind_some, ← hread', Nesting.read?, List.foldlM_cons,
      hcomma]
    rfl

/-- A balanced text in parentheses is what stands in them. -/
theorem enclosed?_of_isBalanced (h : isBalanced list) :
    enclosed? ('(' :: list ++ ')' :: behind) = some (list, behind) := by
  obtain ⟨n, hread, hdepth, hmode⟩ := exists_read?_of_isBalanced (c := '(') h (by simp)
  exact Nesting.close?_of_read? hread (Nesting.next?_closing hdepth hmode)

/-- What stands in parentheses stands between them. -/
theorem eq_of_enclosed? (h : enclosed? cs = some (inside, behind)) :
    cs = '(' :: inside ++ ')' :: behind := by
  unfold enclosed? at h
  split at h
  · rw [Nesting.eq_of_close? h, List.cons_append]
  · cases h

end Lists

/-! ### The definition of an index in its statement -/

/-- What may stand behind the list of an index: nothing, or a condition with its keyword. -/
def IsCondition (clause : List Char) : Prop :=
  clause = [] ∨ ∃ blanks word rest, clause = blanks ++ word ++ rest ∧ (∀ c ∈ blanks, isSpace c) ∧
    Text.asciiUpper (String.ofList word) = "WHERE"

/-- The index is defined by a list in parentheses, with a condition behind it. -/
structure IsEnclosedIndex (definition : String) (list clause : List Char) : Prop where
  eq : definition.toList = '(' :: list ++ ')' :: clause
  isExpressionList : IsExpressionList list
  isCondition : IsCondition clause

/-- The index is defined by a list alone, with a condition behind it. -/
structure IsBareIndex (definition : String) (list clause : List Char) : Prop where
  eq : definition.toList = list ++ clause
  isExpressionList : IsExpressionList list
  isCondition : IsCondition clause
  /-- It is not a list in parentheses. -/
  not_enclosed : ¬∃ list clause, IsEnclosedIndex definition list clause

namespace Statement

variable {table column definition : String} {list clause : List Char}

/-- The statement of an index up to its list. -/
def indexStart (table column : String) : String :=
  "CREATE INDEX " ++ indexName table column ++ " ON " ++ table ++ " "

/-- In the statement of an index, the name of the table is followed by a parenthesis. The list
stands between it and the one that closes it, and the condition is behind that. -/
def CarriesList (table column definition : String) (list clause : List Char) : Prop :=
  ∃ text, (createIndex table column definition).render.toList =
      (indexStart table column).toList ++ text ∧
    enclosed? text = some (list, clause ++ [';'])

theorem render_createIndex : (createIndex table column definition).render =
    indexStart table column ++ indexColumns definition ++ ";" := rfl

theorem carriesList_iff : CarriesList table column definition list clause ↔
    enclosed? ((indexColumns definition).toList ++ [';']) = some (list, clause ++ [';']) := by
  have hrender : (createIndex table column definition).render.toList =
      (indexStart table column).toList ++ ((indexColumns definition).toList ++ [';']) := by
    rw [render_createIndex, String.toList_append, String.toList_append, List.append_assoc]
    rfl
  constructor
  · rintro ⟨text, htext, henclosed⟩
    rwa [List.append_cancel_left (hrender.symm.trans htext)]
  · exact fun henclosed => ⟨_, hrender, henclosed⟩

theorem indexColumns_of_mem (h : '(' ∈ definition.toList) :
    indexColumns definition = definition := by
  simp [indexColumns, h]

theorem toList_indexColumns_of_not_mem (h : '(' ∉ definition.toList) :
    (indexColumns definition).toList = '(' :: definition.toList ++ [')'] := by
  simp [indexColumns, h]

end Statement

variable {definition : String} {list clause : List Char}

/-- No condition begins with a closing parenthesis. -/
theorem IsCondition.head?_ne (h : IsCondition clause) : clause.head? ≠ some ')' := by
  rcases h with rfl | ⟨blanks, word, rest, rfl, hblanks, hword⟩
  · simp
  · cases blanks with
    | cons c blanks =>
      have hc := hblanks c (by simp)
      simp only [List.cons_append, List.head?_cons, ne_eq, Option.some.injEq]
      rintro rfl
      exact absurd hc (by decide)
    | nil =>
      have hchars : word.map Char.toUpper = "WHERE".toList := by
        simpa [Text.asciiUpper] using congrArg String.toList hword
      cases word with
      | nil => cases hchars
      | cons c word =>
        simp only [List.nil_append, List.cons_append, List.head?_cons, ne_eq, Option.some.injEq]
        rintro rfl
        exact absurd (List.cons_eq_cons.1 hchars).1 (by decide)

/-- A list that has its parentheses is written with them, and so is a list alone in which there are
none and behind which there is nothing. Every other list is written without parentheses of its own:
a parenthesis in the definition is taken for them, and a condition is put into them. -/
theorem Statement.createIndex_carriesList_iff (table column definition : String)
    (list clause : List Char) :
    (IsEnclosedIndex definition list clause →
      CarriesList table column definition list clause ∧
        (createIndex table column definition).render =
          indexStart table column ++ definition ++ ";") ∧
    (IsBareIndex definition list clause →
      (CarriesList table column definition list clause ↔
        '(' ∉ definition.toList ∧ clause = [])) := by
  constructor
  · rintro ⟨heq, hlist, -⟩
    have hcolumns : indexColumns definition = definition := indexColumns_of_mem (by simp [heq])
    refine ⟨carriesList_iff.2 ?_, by rw [render_createIndex, hcolumns]⟩
    rw [hcolumns, heq, List.append_assoc, List.cons_append]
    exact enclosed?_of_isBalanced hlist.isBalanced
  · rintro ⟨heq, hlist, hclause, -⟩
    rw [carriesList_iff]
    constructor
    · intro hcarries
      have htext := eq_of_enclosed? hcarries
      by_cases hmem : '(' ∈ definition.toList
      · -- Nothing is added to the definition, so there is no room for two more parentheses.
        have hlength := congrArg List.length htext
        simp only [indexColumns_of_mem hmem, heq, List.length_append, List.length_cons] at hlength
        omega
      · refine ⟨hmem, ?_⟩
        rw [toList_indexColumns_of_not_mem hmem, heq] at htext
        -- The parenthesis that was added stands behind the list, where a clause would begin.
        have hclosing : clause ++ [')', ';'] = ')' :: (clause ++ [';']) := by simpa using htext
        cases clause with
        | nil => rfl
        | cons c rest =>
          obtain ⟨rfl, -⟩ := List.cons_eq_cons.1 hclosing
          exact absurd rfl hclause.head?_ne
    · rintro ⟨hmem, rfl⟩
      rw [toList_indexColumns_of_not_mem hmem, heq, List.append_nil, List.append_assoc]
      exact enclosed?_of_isBalanced hlist.isBalanced

/-- A call in parentheses with a condition behind it, and columns without parentheses. -/
theorem createIndex_carriesList_lower :
    (IsEnclosedIndex "(lower(name), ')') where id > (0)" "lower(name), ')'".toList
        " where id > (0)".toList ∧
      Statement.CarriesList "User" "i" "(lower(name), ')') where id > (0)"
        "lower(name), ')'".toList " where id > (0)".toList) ∧
    IsBareIndex "text, moople COLLATE NOCASE" "text, moople COLLATE NOCASE".toList [] ∧
      Statement.CarriesList "User" "i" "text, moople COLLATE NOCASE"
        "text, moople COLLATE NOCASE".toList [] := by
  have henclosed : IsEnclosedIndex "(lower(name), ')') where id > (0)" "lower(name), ')'".toList
      " where id > (0)".toList := by
    have hcall : isBalanced "lower(name)".toList := by decide
    have hquoted : isBalanced " ')'".toList := by decide
    exact ⟨by decide, .further hcall (.single hquoted), .inr ⟨[' '], "where".toList,
      " id > (0)".toList, by decide, by decide, by decide⟩⟩
  have hbare : IsBareIndex "text, moople COLLATE NOCASE"
      "text, moople COLLATE NOCASE".toList [] := by
    have htext : isBalanced "text".toList := by decide
    have hcollated : isBalanced " moople COLLATE NOCASE".toList := by decide
    refine ⟨by decide, .further htext (.single hcollated), .inl rfl, ?_⟩
    rintro ⟨list, clause, heq, -, -⟩
    cases heq
  obtain ⟨hlower, -⟩ := Statement.createIndex_carriesList_iff "User" "i"
    "(lower(name), ')') where id > (0)" "lower(name), ')'".toList " where id > (0)".toList
  obtain ⟨-, htext⟩ := Statement.createIndex_carriesList_iff "User" "i"
    "text, moople COLLATE NOCASE" "text, moople COLLATE NOCASE".toList []
  exact ⟨⟨henclosed, (hlower henclosed).1⟩, hbare, (htext hbare).2 ⟨by decide, rfl⟩⟩

/-- The call in a list of two expressions is taken for the parentheses of the list, so that there
are none around it. -/
theorem not_createIndex_carriesList_call :
    IsBareIndex "lower(name), id" "lower(name), id".toList [] ∧
      (Statement.createIndex "User" "i" "lower(name), id").render =
        "CREATE INDEX User_i ON User lower(name), id;" ∧
      ¬Statement.CarriesList "User" "i" "lower(name), id" "lower(name), id".toList [] := by
  have hcall : isBalanced "lower(name)".toList := by decide
  have hcolumn : isBalanced " id".toList := by decide
  refine ⟨⟨by decide, .further hcall (.single hcolumn), .inl rfl, ?_⟩, by decide, ?_⟩
  · rintro ⟨list, clause, heq, -, -⟩
    cases heq
  · rw [Statement.carriesList_iff]
    decide

end Schemata
