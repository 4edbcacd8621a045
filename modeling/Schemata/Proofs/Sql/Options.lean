import Mathlib.Data.List.Chain
import Schemata.Proofs.Sql.Types
import Schemata.Sql.Statement

/-!
# Options of columns are read back

The options of a column stand one after the other, with a blank between them. Each of them begins
with a keyword that ends whatever stands before it, an expression too. So each can be read on its
own, and all of them are read back if each one is.

## Main definitions

* `Closes`: an option ends, because another one follows or the column is over
* `Expr.ReadFrom`, `ColumnOption.ReadFrom`, `NamedOption.ReadFrom`: what is read back from the tokens
  of its written form
* `Checking.IsToldBy`: the words on when a constraint is checked
* `Unambiguous`: no option takes the beginning of the next one for its own

## Main results

* `ColumnOption.readFrom_words`: options that consist of keywords
* `ColumnOption.readFrom_default`, `ColumnOption.readFrom_check`, `ColumnOption.readFrom_generated`,
  `ColumnOption.readFrom_onUpdate`: options with an expression
* `ColumnOption.readFrom_references`: references, with their columns and actions
* `exists_columnOptions`: all options of a column
-/

namespace Schemata.Sql

open Reader

variable {dialect : Dialect} {rest : List Token}

/-! ### What follows an option -/

/-- The beginnings of what can follow an option of a column. -/
def closings : List (List Token) :=
  [[.symbol ","], [.symbol ")"]] ++
    [["NOT", "NULL"], ["NULL"], ["DEFAULT"], ["PRIMARY"], ["UNIQUE"], ["REFERENCES"], ["CHECK"],
      ["CONSTRAINT"], ["AUTOINCREMENT"], ["AUTO_INCREMENT"], ["COMMENT"], ["CHARACTER"], ["GENERATED"],
      ["AS"], ["ASC"], ["DESC"], ["ON", "UPDATE"], ["ON", "CONFLICT"]].map
        (·.map fun word => .word word none)

/-- An option of a column ends where another one begins, or the column does. -/
def Closes (rest : List Token) : Prop := ∃ start ∈ closings, start <+: rest

namespace Closes

theorem append (h : Closes rest) (more : List Token) : Closes (rest ++ more) := by
  obtain ⟨start, hstart, hprefix⟩ := h
  exact ⟨start, hstart, hprefix.trans (List.prefix_append _ _)⟩

theorem exists_cons (h : Closes rest) :
    ∃ token others, rest = token :: others ∧ token ∈ endTokens := by
  have hall : ∀ start ∈ closings, ∃ token ∈ start.head?, token ∈ endTokens := by decide +kernel
  obtain ⟨start, hstart, tail, rfl⟩ := h
  obtain ⟨token, hhead, hmem⟩ := hall start hstart
  cases start with
  | nil => cases hhead
  | cons first others =>
    cases hhead
    exact ⟨_, _, rfl, hmem⟩

theorem ends (h : Closes rest) : Ends rest := by
  obtain ⟨token, others, rfl, hmem⟩ := h.exists_cons
  exact .cons hmem _

theorem ofTokens?_eq (h : Closes rest) : Continuation.ofTokens? dialect rest = none := by
  obtain ⟨start, hstart, tail, rfl⟩ := h
  simp only [closings, List.map_cons, List.map_nil, List.cons_append, List.nil_append,
    List.mem_cons, List.not_mem_nil, or_false] at hstart
  rcases hstart with rfl | rfl | hwords
  · cases dialect <;> rfl
  · cases dialect <;> rfl
  · rcases hwords with rfl | rfl | rfl | rfl | rfl | rfl | rfl | rfl | rfl | rfl | rfl | rfl | rfl |
      rfl | rfl | rfl | rfl | rfl <;> rfl

/-- A word that is no such beginning is not next. -/
theorem isKeyword_eq (h : Closes rest) {word : String}
    (hword : ∀ start ∈ closings, start.head? ≠ some (.word word none)) :
    announce [word] rest = false := by
  have hne : ∀ start ∈ closings, start ≠ [] := by decide
  obtain ⟨token, others, rfl, hmem⟩ := h.exists_cons
  obtain ⟨start, hstart, hprefix⟩ := h
  obtain ⟨first, tail, rfl⟩ := List.exists_cons_of_ne_nil (hne start hstart)
  obtain ⟨rfl, -⟩ := List.cons_prefix_cons.1 hprefix
  simpa using isKeyword_of_ne hmem fun heq => hword _ hstart (by simp [heq])

/-- Words that are no such beginning are not next. -/
theorem announce_eq (h : Closes rest) {first second : String}
    (hne : ∀ start ∈ closings, start.head? = some (.word first none) →
      ∃ token ∈ start.tail.head?, token.isKeyword second = false) :
    announce [first, second] rest = false := by
  obtain ⟨token, others, rfl, hmem⟩ := h.exists_cons
  by_cases htoken : token = .word first none
  · obtain ⟨start, hstart, tail, htail⟩ := h
    have hhead : start.head? = some (.word first none) := by
      cases start with
      | nil => exact absurd hstart (by decide)
      | cons token' start => simp_all
    obtain ⟨next, hnext, hkeyword⟩ := hne start hstart hhead
    match start with
    | _ :: _ :: _ =>
      cases hnext
      rw [← htail]
      simp [hkeyword]
  · simp [isKeyword_of_ne hmem htoken]

end Closes

theorem closes_mark {mark : String} (hmark : mark ∈ [",", ")"]) : Closes (.symbol mark :: rest) := by
  have hall : ∀ mark ∈ [",", ")"], [Token.symbol mark] ∈ closings := by decide
  exact ⟨[.symbol mark], hall mark hmark, by simp⟩

/-! ### When a constraint is checked -/

@[simp] theorem provided_apply {tokens : List Token} (condition : Bool) (reader : Reader Bool) :
    provided condition reader tokens = if condition then reader tokens else .ok (false, tokens) := by
  cases condition <;> rfl

/-- The words on whether a check may wait. -/
def deferrals : List (List String) := [[], ["DEFERRABLE"], ["NOT", "DEFERRABLE"]]

/-- The words on whether a check waits at first. -/
def initials : List (List String) := [[], ["INITIALLY", "DEFERRED"], ["INITIALLY", "IMMEDIATE"]]

/-- The words on whether a check takes place. -/
def enforcements : List (List String) := [[], ["ENFORCED"], ["NOT", "ENFORCED"]]

/-- The words as one text, if there are some. -/
def phrase? (words : List String) : Option String :=
  if words.isEmpty then none else some (String.intercalate " " words)

/-- What is told by the words of each kind. -/
def Checking.of (deferral initial enforcement : List String) : Checking :=
  ⟨phrase? deferral, phrase? initial, phrase? enforcement⟩

/-- What can be told on when a constraint is checked, and the words for it. -/
def Checking.IsToldBy (checking : Checking) (words : List String) : Prop :=
  ∃ deferral ∈ deferrals, ∃ initial ∈ initials, ∃ enforcement ∈ enforcements,
    checking = .of deferral initial enforcement ∧ words = deferral ++ initial ++ enforcement

theorem Checking.isToldBy_nil : ({} : Checking).IsToldBy [] :=
  ⟨[], by decide, [], by decide, [], by decide, rfl, rfl⟩

section Checking

variable {checking : Checking} {words : List String}

theorem Checking.IsToldBy.render_eq (h : checking.IsToldBy words) :
    checking.render = trailing words := by
  have hall : ∀ deferral ∈ deferrals, ∀ initial ∈ initials, ∀ enforcement ∈ enforcements,
      (Checking.of deferral initial enforcement).render =
        trailing (deferral ++ initial ++ enforcement) := by
    decide +kernel
  obtain ⟨deferral, hdeferral, initial, hinitial, enforcement, henforcement, rfl, rfl⟩ := h
  exact hall deferral hdeferral initial hinitial enforcement henforcement

theorem Checking.IsToldBy.isWord (h : checking.IsToldBy words) :
    ∀ word ∈ words, Sql.isWord dialect word := by
  have hall : ∀ told ∈ deferrals ++ initials ++ enforcements, ∀ word ∈ told, isAsciiWord word := by
    decide +kernel
  obtain ⟨deferral, hdeferral, initial, hinitial, enforcement, henforcement, -, rfl⟩ := h
  intro word hword
  apply isWord_of_isAsciiWord
  simp only [List.mem_append] at hword hall
  rcases hword with (hword | hword) | hword
  · exact hall deferral (.inl (.inl hdeferral)) word hword
  · exact hall initial (.inl (.inr hinitial)) word hword
  · exact hall enforcement (.inr henforcement) word hword

/-- Nothing is told where no such word follows. -/
theorem checkingWithin_stop (found : Checking) (fuel : Nat) (hrest : Closes rest) :
    checkingWithin found (fuel + 1) rest = .ok (found, rest) := by
  have hdeferrable : announce ["NOT", "DEFERRABLE"] rest = false :=
    hrest.announce_eq (by decide +kernel)
  have henforced : announce ["NOT", "ENFORCED"] rest = false := hrest.announce_eq (by decide +kernel)
  have hall : ∀ word ∈ ["DEFERRABLE", "INITIALLY", "ENFORCED"], word ∉ endWords := by decide
  have hkeyword : ∀ word ∈ ["DEFERRABLE", "INITIALLY", "ENFORCED"], announce [word] rest = false :=
    fun word hword => hrest.ends.announce_eq (hall word hword) []
  simp only [List.forall_mem_cons] at hkeyword
  rw [checkingWithin]
  simp only [provided_apply, bind_apply, hasKeyword_apply, hasKeywords_apply, hdeferrable, henforced,
    hkeyword, Bool.false_eq_true, if_false, ite_self, pure_apply]

theorem checkingWithin_enforcement {enforcement : List String}
    (henforcement : enforcement ∈ enforcements)
    (found : Checking) (hfound : found.enforced = none) (fuel : Nat) (hrest : Closes rest) :
    checkingWithin found (fuel + 2) (enforcement.map (Token.word · none) ++ rest) =
      .ok ({ found with enforced := phrase? enforcement }, rest) := by
  simp only [enforcements, List.mem_cons, List.not_mem_nil, or_false] at henforcement
  obtain ⟨deferrable, initially, enforced⟩ := found
  obtain rfl : enforced = none := hfound
  rcases henforcement with rfl | rfl | rfl
  · exact checkingWithin_stop _ _ hrest
  all_goals
    rw [checkingWithin]
    cases deferrable <;> cases initially <;> simp +decide [checkingWithin_stop _ _ hrest]

theorem checkingWithin_initial {initial enforcement : List String} (hinitial : initial ∈ initials)
    (henforcement : enforcement ∈ enforcements) (found : Checking) (hinitially : found.initially = none)
    (henforced : found.enforced = none) (fuel : Nat) (hrest : Closes rest) :
    checkingWithin found (fuel + 3) ((initial ++ enforcement).map (Token.word · none) ++ rest) =
      .ok ({ found with initially := phrase? initial, enforced := phrase? enforcement }, rest) := by
  simp only [initials, List.mem_cons, List.not_mem_nil, or_false] at hinitial
  obtain ⟨deferrable, initially, enforced⟩ := found
  obtain rfl : initially = none := hinitially
  obtain rfl : enforced = none := henforced
  have hread := fun deferrable initially fuel =>
    checkingWithin_enforcement henforcement ⟨deferrable, initially, none⟩ rfl fuel hrest
  rcases hinitial with rfl | rfl | rfl
  · exact hread _ _ (fuel + 1)
  all_goals
    rw [checkingWithin]
    cases deferrable <;> simp +decide [oneOf, hasOneOf, hread]

/-- The words on when a constraint is checked are taken. -/
theorem Checking.IsToldBy.checking_apply (h : checking.IsToldBy words) (hrest : Closes rest) :
    Reader.checking (words.map (Token.word · none) ++ rest) = .ok (checking, rest) := by
  obtain ⟨deferral, hdeferral, initial, hinitial, enforcement, henforcement, rfl, rfl⟩ := h
  have hread := fun deferrable fuel =>
    checkingWithin_initial hinitial henforcement ⟨deferrable, none, none⟩ rfl rfl fuel hrest
  simp only [List.map_append, List.append_assoc] at hread
  simp only [deferrals, List.mem_cons, List.not_mem_nil, or_false] at hdeferral
  rw [Reader.checking]
  simp only [List.map_append, List.append_assoc]
  rcases hdeferral with rfl | rfl | rfl
  · exact hread none 1
  all_goals
    rw [checkingWithin]
    simp +decide [hread, Checking.of]

theorem Checking.IsToldBy.eq_of_nil (h : checking.IsToldBy words) (hnil : words = []) :
    checking = {} := by
  obtain ⟨deferral, -, initial, -, enforcement, -, rfl, rfl⟩ := h
  simp only [List.append_eq_nil_iff] at hnil
  obtain ⟨⟨rfl, rfl⟩, rfl⟩ := hnil
  rfl

/-- They are no actions of a reference. -/
theorem Checking.IsToldBy.announce_eq (h : checking.IsToldBy words) (hne : words ≠ []) (word : String) :
    announce ["ON", word] (words.map (Token.word · none) ++ rest) = false := by
  have hall : ∀ told ∈ deferrals ++ initials ++ enforcements, ∀ first ∈ told.head?,
      (Token.word first none).isKeyword "ON" = false := by
    decide +kernel
  obtain ⟨deferral, hdeferral, initial, hinitial, enforcement, henforcement, -, rfl⟩ := h
  simp only [List.mem_append] at hall
  have hfirst : ∀ first ∈ (deferral ++ initial ++ enforcement).head?,
      (Token.word first none).isKeyword "ON" = false := by
    intro first hfirst
    simp only [List.head?_append, Option.mem_def, Option.or_eq_some_iff] at hfirst
    rcases hfirst with (hfirst | ⟨-, hfirst⟩) | ⟨-, hfirst⟩
    · exact hall deferral (.inl (.inl hdeferral)) first hfirst
    · exact hall initial (.inl (.inr hinitial)) first hfirst
    · exact hall enforcement (.inr henforcement) first hfirst
  obtain ⟨first, others, heq⟩ := List.exists_cons_of_ne_nil hne
  rw [heq] at hfirst ⊢
  simp [hfirst first rfl]

end Checking

/-! ### Options -/

/-- An expression is read back from the tokens of its written form, where an option of a column ends
after it. -/
structure Expr.ReadFrom (dialect : Dialect) (e : Expr) (tokens : List Token) : Prop where
  /-- These are its tokens. -/
  spells : Spells dialect e.render tokens
  /-- There are some. -/
  ne_nil : tokens ≠ []
  /-- They are taken for the expression. -/
  reads : ∀ size rest, tokens.length ≤ size → Closes rest →
    (Grammar.ofSize dialect size (maxNesting - 1)).expr (tokens ++ rest) = .ok (e, rest)

/-- Whether an option takes the change of a row that follows for its own: a reference does that tells
nothing of changes, and not when it is checked. -/
def ColumnOption.awaitsUpdate : ColumnOption → Bool
  | references _ _ actions checking => actions.onUpdate = none && checking = {}
  | _ => false

/-- Whether an option begins with the change of a row. -/
def ColumnOption.isUpdate : ColumnOption → Bool
  | onUpdate _ => true
  | _ => false

/-- An option is read back from the tokens of its written form, where another one follows or the
column ends. -/
structure ColumnOption.ReadFrom (dialect : Dialect) (option : ColumnOption) (tokens : List Token) :
    Prop where
  /-- These are its tokens. -/
  spells : Spells dialect option.render tokens
  /-- What stands before them ends there. -/
  closes : Closes tokens
  /-- They do not begin with a name. -/
  unnamed : ∀ token ∈ tokens.head?, token.isKeyword "CONSTRAINT" = false
  /-- They do not begin with the change of a row, unless the option does. -/
  unchanged : option.isUpdate = false → ∀ rest, announce ["ON", "UPDATE"] (tokens ++ rest) = false
  /-- They are taken for the option. -/
  reads : ∀ size rest, tokens.length ≤ size → Closes rest →
    (option.awaitsUpdate → announce ["ON", "UPDATE"] rest = false) →
    (Grammar.ofSize dialect size (maxNesting - 1)).columnOption (tokens ++ rest) =
      .ok (some option, rest)

namespace ColumnOption

/-- An option that begins with a word other than `ON`. -/
theorem readFrom_of_word {option : ColumnOption} {word : String} {tokens : List Token}
    (hspells : Spells dialect option.render (.word word none :: tokens))
    (hword : [.word word none] ∈ closings)
    (hunnamed : (Token.word word none).isKeyword "CONSTRAINT" = false)
    (hon : (Token.word word none).isKeyword "ON" = false)
    (hreads : ∀ size rest, tokens.length ≤ size → Closes rest →
      (option.awaitsUpdate → announce ["ON", "UPDATE"] rest = false) →
      (Grammar.ofSize dialect size (maxNesting - 1)).columnOption
        (.word word none :: (tokens ++ rest)) =
        .ok (some option, rest)) :
    option.ReadFrom dialect (.word word none :: tokens) where
  spells := hspells
  closes := ⟨_, hword, by simp⟩
  unnamed := by simpa using hunnamed
  unchanged _ rest := by simp [hon]
  reads size rest hsize hrest hupdate := hreads size rest (by simp at hsize; omega) hrest hupdate

/-! ### Options of words -/

/-- The options that consist of keywords, with the keywords and the dialects that have them. -/
def wordOptions (dialect : Dialect) : List (ColumnOption × List String) :=
  [(notNull, ["NOT", "NULL"]), (null, ["NULL"]),
      (words "GENERATED ALWAYS AS IDENTITY", ["GENERATED", "ALWAYS", "AS", "IDENTITY"]),
      (words "GENERATED BY DEFAULT AS IDENTITY", ["GENERATED", "BY", "DEFAULT", "AS", "IDENTITY"])] ++
    (if dialect = .mysql then [(words "AUTO_INCREMENT", ["AUTO_INCREMENT"])] else []) ++
    if dialect = .sqlite then
      [(words "AUTOINCREMENT", ["AUTOINCREMENT"]), (words "ASC", ["ASC"]), (words "DESC", ["DESC"])] ++
        ["ROLLBACK", "ABORT", "FAIL", "IGNORE", "REPLACE"].map fun word =>
          (words ("ON CONFLICT " ++ word), ["ON", "CONFLICT", word])
    else []

theorem columnOption_of_mem {grammar : Grammar} {option : ColumnOption} {words : List String}
    (h : (option, words) ∈ wordOptions grammar.dialect) (hrest : rest.head? ≠ some (.symbol "(")) :
    grammar.columnOption (words.map (Token.word · none) ++ rest) = .ok (some option, rest) := by
  have hopen : nextIsSymbol "(" rest = .ok (false, rest) := by simp [nextIsSymbol, hrest]
  simp only [wordOptions, List.mem_append, List.mem_cons, List.not_mem_nil, or_false,
    Prod.mk.injEq] at h
  rcases h with (h | hmysql) | hsqlite
  · rcases h with ⟨rfl, rfl⟩ | ⟨rfl, rfl⟩ | ⟨rfl, rfl⟩ | ⟨rfl, rfl⟩ <;>
      simp +decide [Grammar.columnOption, Grammar.dialectOption, Grammar.generation,
        Grammar.writtenSequence, hopen]
  · by_cases hdialect : grammar.dialect = .mysql <;>
      simp only [hdialect, if_true, if_false, List.mem_singleton, List.not_mem_nil, Prod.mk.injEq]
        at hmysql
    obtain ⟨rfl, rfl⟩ := hmysql
    simp +decide [Grammar.columnOption, Grammar.dialectOption, hdialect]
  · by_cases hdialect : grammar.dialect = .sqlite <;>
      simp only [hdialect, if_true, if_false, List.map_cons, List.map_nil, List.cons_append,
        List.nil_append, List.mem_cons, List.not_mem_nil, or_false, Prod.mk.injEq] at hsqlite
    rcases hsqlite with ⟨rfl, rfl⟩ | ⟨rfl, rfl⟩ | ⟨rfl, rfl⟩ | ⟨rfl, rfl⟩ | ⟨rfl, rfl⟩ | ⟨rfl, rfl⟩ |
      ⟨rfl, rfl⟩ | ⟨rfl, rfl⟩ <;>
      simp +decide [Grammar.columnOption, Grammar.dialectOption, hdialect, oneOf, hasOneOf]

/-- An option that consists of keywords. -/
theorem readFrom_words {option : ColumnOption} {words : List String}
    (h : (option, words) ∈ wordOptions dialect) :
    option.ReadFrom dialect (words.map (Token.word · none)) := by
  have hall : ∀ entry ∈ wordOptions dialect,
      entry.1.render = String.intercalate " " entry.2 ∧ (∀ word ∈ entry.2, isAsciiWord word) ∧
        entry.2 ≠ [] ∧ (∃ start ∈ closings, start <+: entry.2.map (Token.word · none)) ∧
        (∀ token ∈ (entry.2.map (Token.word · none)).head?, token.isKeyword "CONSTRAINT" = false) ∧
        ∀ first ∈ entry.2.head?, (Token.word first none).isKeyword "ON" →
          ∃ second ∈ entry.2.tail.head?, (Token.word second none).isKeyword "UPDATE" = false := by
    cases dialect <;> decide +kernel
  obtain ⟨htext, hwords, hne, hcloses, hunnamed, hon⟩ := hall _ h
  simp only at htext hwords hne hcloses hunnamed hon
  refine ⟨?_, hcloses, hunnamed, fun _ rest => ?_, fun size rest _ hrest _ => ?_⟩
  · exact htext ▸ spells_words fun word hword => isWord_of_isAsciiWord (hwords word hword)
  · obtain ⟨first, others, rfl⟩ := List.exists_cons_of_ne_nil hne
    by_cases hfirst : (Token.word first none).isKeyword "ON"
    · obtain ⟨second, hsecond, hkeyword⟩ := hon first rfl hfirst
      cases others with
      | nil => cases hsecond
      | cons second others =>
        cases hsecond
        simp [hkeyword]
    · simp [hfirst]
  · exact columnOption_of_mem h (hrest.ends.head?_ne (by decide))

/-! ### Keys -/

theorem readFrom_primaryKey {checking : Checking} {words : List String} (h : checking.IsToldBy words) :
    (primaryKey checking).ReadFrom dialect
      (.word "PRIMARY" none :: .word "KEY" none :: words.map (Token.word · none)) := by
  apply readFrom_of_word _ (by decide) (by decide) (by decide)
  · intro size rest _ hrest _
    simp +decide [Grammar.columnOption, h.checking_apply hrest]
  · have hwords : ∀ word ∈ ["PRIMARY", "KEY"], isAsciiWord word := by decide +kernel
    have hkey : Spells dialect (String.intercalate " " ["PRIMARY", "KEY"]) _ :=
      spells_words fun word hword => isWord_of_isAsciiWord (hwords word hword)
    simpa [render, h.render_eq] using hkey.append (spells_trailing h.isWord) (delimited_trailing words)

theorem readFrom_unique {checking : Checking} {words : List String} (h : checking.IsToldBy words) :
    (unique checking).ReadFrom dialect (.word "UNIQUE" none :: words.map (Token.word · none)) := by
  apply readFrom_of_word _ (by decide) (by decide) (by decide)
  · intro size rest _ hrest _
    simp +decide [Grammar.columnOption, h.checking_apply hrest]
  · have hkey : Spells dialect "UNIQUE" [.word "UNIQUE" none] :=
      spells_word (isWord_of_isAsciiWord (by decide +kernel))
    simpa [render, h.render_eq] using hkey.append (spells_trailing h.isWord) (delimited_trailing words)

/-! ### Comments and character sets -/

theorem readFrom_comment {text : String} (h : IsPlainString dialect text '\'') :
    (words ("COMMENT " ++ quoted '\'' text)).ReadFrom dialect
      [.word "COMMENT" none, .string text '\''] := by
  apply readFrom_of_word _ (by decide) (by decide) (by decide)
  · intro size rest _ _ _
    simp +decide [Grammar.columnOption, plainText]
  · have hword : Spells dialect "COMMENT" [.word "COMMENT" none] :=
      spells_word (isWord_of_isAsciiWord (by decide +kernel))
    simpa [render, String.append_assoc] using hword.separated separates_blank (spells_string h)
      (by simp)

theorem readFrom_characterSet {path : List Name} (hne : path ≠ [])
    (h : ∀ name ∈ path, name.IsPlain dialect) :
    (words ("CHARACTER SET " ++ renderPath path)).ReadFrom dialect
      (.word "CHARACTER" none :: .word "SET" none :: namesTokens "." path) := by
  apply readFrom_of_word _ (by decide) (by decide) (by decide)
  · intro size rest _ hrest _
    have hpath : Reader.path (namesTokens "." path ++ rest) = .ok (path, rest) :=
      path_apply hne (hrest.ends.head?_ne (by decide))
    simp +decide [Grammar.columnOption, hpath]
  · have hwords : ∀ word ∈ ["CHARACTER", "SET"], isAsciiWord word := by decide +kernel
    have hset : Spells dialect (String.intercalate " " ["CHARACTER", "SET"]) _ :=
      spells_words fun word hword => isWord_of_isAsciiWord (hwords word hword)
    simpa [render, String.append_assoc] using
      hset.separated separates_blank (spells_path h) (namesTokens_ne_nil "." hne)

/-! ### Options with an expression -/

section Expressions

variable {e : Expr} {tokens : List Token}

/-- An expression in parentheses is a condition. -/
theorem condition_apply {size : Nat} (h : e.ReadFrom dialect tokens) (hsize : tokens.length ≤ size) :
    (Grammar.ofSize dialect size (maxNesting - 1)).condition
      (.symbol "(" :: (tokens ++ .symbol ")" :: rest)) = .ok (e, rest) := by
  have he := h.reads size (.symbol ")" :: rest) hsize (closes_mark (by simp))
  simp [Grammar.condition, parenthesized, he]

theorem readFrom_default (h : e.ReadFrom dialect tokens) :
    (ColumnOption.default e).ReadFrom dialect (.word "DEFAULT" none :: tokens) := by
  apply readFrom_of_word _ (by decide) (by decide) (by decide)
  · intro size rest hsize hrest _
    have he := h.reads size rest hsize hrest
    simp +decide [Grammar.columnOption, he]
  · have hword : Spells dialect "DEFAULT" [.word "DEFAULT" none] :=
      spells_word (isWord_of_isAsciiWord (by decide +kernel))
    exact hword.separated separates_blank h.spells h.ne_nil

theorem readFrom_check (h : e.ReadFrom dialect tokens) :
    (check e).ReadFrom dialect (.word "CHECK" none :: .symbol "(" :: (tokens ++ [.symbol ")"])) := by
  apply readFrom_of_word _ (by decide) (by decide) (by decide)
  · intro size rest hsize _ _
    have he := @condition_apply dialect rest e tokens size h (by simp at hsize; omega)
    simp +decide [Grammar.columnOption, he]
  · have hword : Spells dialect "CHECK" [.word "CHECK" none] :=
      spells_word (isWord_of_isAsciiWord (by decide +kernel))
    have htext : (check e).render = "CHECK" ++ " " ++ ("(" ++ e.render ++ ")") := by
      change "CHECK (" ++ e.render ++ ")" = _
      simp [String.append_assoc, ← String.toList_inj]
    rw [htext]
    exact hword.separated separates_blank h.spells.parenthesized (by simp)

theorem readFrom_onUpdate (h : e.ReadFrom .mysql tokens) :
    (onUpdate e).ReadFrom .mysql (.word "ON" none :: .word "UPDATE" none :: tokens) where
  spells := by
    have hwords : ∀ word ∈ ["ON", "UPDATE"], isAsciiWord word := by decide +kernel
    have hstart : Spells .mysql (String.intercalate " " ["ON", "UPDATE"]) _ :=
      spells_words fun word hword => isWord_of_isAsciiWord (hwords word hword)
    simpa [render, String.append_assoc] using hstart.separated separates_blank h.spells h.ne_nil
  closes := ⟨[.word "ON" none, .word "UPDATE" none], by decide, by simp⟩
  unnamed := by simp +decide
  unchanged hfalse := absurd hfalse (by simp [isUpdate])
  reads size rest hsize hrest _ := by
    have he := h.reads size rest (by simp at hsize; omega) hrest
    have hdialect : (Grammar.ofSize .mysql size (maxNesting - 1)).dialect = .mysql := by rfl
    simp +decide [Grammar.columnOption, Grammar.dialectOption, hdialect, he]

/-- The words on where computed values are kept. In some places they have to be stored. -/
def storages (stored : Bool) : List (List String) :=
  if stored then [["STORED"]] else [[], ["STORED"], ["VIRTUAL"]]

theorem storage_apply {stored : Bool} {words : List String} (h : words ∈ storages stored)
    (hrest : Closes rest) :
    Grammar.storage stored (words.map (Token.word · none) ++ rest) = .ok (trailing words, rest) := by
  have hnone : hasOneOf ["STORED", "VIRTUAL"] rest = .ok (none, rest) :=
    hrest.ends.hasOneOf_eq (by decide)
  cases stored
  · simp only [storages, Bool.false_eq_true, if_false, List.mem_cons, List.not_mem_nil, or_false] at h
    rcases h with rfl | rfl | rfl
    · simp [Grammar.storage, hnone, trailing]
    all_goals simp +decide [Grammar.storage, hasOneOf, trailing]
  · simp only [storages, if_true, List.mem_cons, List.not_mem_nil, or_false] at h
    subst h
    simp +decide [Grammar.storage, hasOneOf, trailing]

/-- The words before and after a computed value. -/
def generations (dialect : Dialect) : List (List String × List String) :=
  ((storages (dialect = .postgresql)).map fun storage => (["GENERATED", "ALWAYS", "AS"], storage)) ++
    if dialect = .postgresql then [] else (storages false).map fun storage => (["AS"], storage)

theorem generated_apply {size : Nat} {before after : List String}
    (h : (before, after) ∈ generations dialect) (he : e.ReadFrom dialect tokens)
    (hsize : tokens.length ≤ size) (hrest : Closes rest) :
    (Grammar.ofSize dialect size (maxNesting - 1)).columnOption (before.map (Token.word · none) ++
      .symbol "(" :: (tokens ++ .symbol ")" :: (after.map (Token.word · none) ++ rest))) =
        .ok (some (generated (String.intercalate " " before ++ " ") e (trailing after)), rest) := by
  have hcondition := @condition_apply dialect (after.map (Token.word · none) ++ rest) e tokens size he
    hsize
  have hdialect : (Grammar.ofSize dialect size (maxNesting - 1)).dialect = dialect := by rfl
  simp only [generations, List.mem_append, List.mem_map, Prod.mk.injEq] at h
  rcases h with ⟨storage, hstorage, rfl, rfl⟩ | h
  · have hafter := storage_apply hstorage hrest
    simp +decide [Grammar.columnOption, Grammar.dialectOption, Grammar.generation, hdialect,
      nextIsSymbol, hcondition, hafter]
  · by_cases hpostgresql : dialect = .postgresql
    · simp [hpostgresql] at h
    · simp only [hpostgresql, if_false, List.mem_map, Prod.mk.injEq] at h
      obtain ⟨storage, hstorage, rfl, rfl⟩ := h
      have hafter := storage_apply hstorage hrest
      simp +decide [Grammar.columnOption, Grammar.dialectOption, hdialect, hpostgresql, hcondition,
        hafter]

theorem readFrom_generated {before after : List String} (h : (before, after) ∈ generations dialect)
    (he : e.ReadFrom dialect tokens) :
    (generated (String.intercalate " " before ++ " ") e (trailing after)).ReadFrom dialect
      (before.map (Token.word · none) ++ .symbol "(" ::
        (tokens ++ .symbol ")" :: after.map (Token.word · none))) := by
  have hall : ∀ words ∈ generations dialect,
      (words.1 = ["GENERATED", "ALWAYS", "AS"] ∨ words.1 = ["AS"]) ∧
      ∀ word ∈ words.1 ++ words.2, isAsciiWord word := by
    cases dialect <;> decide +kernel
  obtain ⟨hbefore, hwords⟩ := hall _ h
  simp only [List.mem_append] at hbefore hwords
  have hspells : Spells dialect
      (generated (String.intercalate " " before ++ " ") e (trailing after)).render
      (before.map (Token.word · none) ++ .symbol "(" ::
        (tokens ++ .symbol ")" :: after.map (Token.word · none))) := by
    have hstart : Spells dialect (String.intercalate " " before) (before.map (Token.word · none)) :=
      spells_words fun word hword => isWord_of_isAsciiWord (hwords word (.inl hword))
    have hend : Spells dialect (trailing after) (after.map (Token.word · none)) :=
      spells_trailing fun word hword => isWord_of_isAsciiWord (hwords word (.inr hword))
    have hvalue := (hstart.separated separates_blank he.spells.parenthesized (by simp)).append hend
      (delimited_trailing after)
    have htext : (generated (String.intercalate " " before ++ " ") e (trailing after)).render =
        String.intercalate " " before ++ " " ++ ("(" ++ e.render ++ ")") ++ trailing after := by
      simp [render, ← String.toList_inj]
    rw [htext]
    simpa using hvalue
  have hreads : ∀ size rest, tokens.length ≤ size → Closes rest →
      (Grammar.ofSize dialect size (maxNesting - 1)).columnOption (before.map (Token.word · none) ++
        .symbol "(" :: (tokens ++ .symbol ")" :: (after.map (Token.word · none) ++ rest))) =
          .ok (some (generated (String.intercalate " " before ++ " ") e (trailing after)), rest) :=
    fun size rest hsize hrest => generated_apply h he hsize hrest
  rcases hbefore with rfl | rfl
  all_goals
    apply readFrom_of_word hspells (by decide) (by decide) (by decide)
    intro size rest hsize hrest _
    simpa using hreads size rest (by simp at hsize; omega) hrest

end Expressions

/-! ### References -/

/-- The words of the actions of a reference. -/
def actionWords (actions : ReferentialActions) : List String :=
  (actions.onDelete.elim [] fun action => "ON" :: "DELETE" :: action.words) ++
    actions.onUpdate.elim [] fun action => "ON" :: "UPDATE" :: action.words

/-- The tokens of the actions of a reference. -/
def actionTokens (actions : ReferentialActions) : List Token :=
  (actionWords actions).map fun word => .word word none

theorem isWord_of_mem_actionWords (actions : ReferentialActions) :
    ∀ word ∈ actionWords actions, isWord dialect word := by
  have haction : ∀ action : ReferentialAction, ∀ word ∈ action.words, isAsciiWord word := by
    intro action
    cases action <;> decide +kernel
  have hfirst : ∀ word ∈ ["ON", "DELETE", "UPDATE"], isAsciiWord word := by decide +kernel
  intro word hword
  apply isWord_of_isAsciiWord
  obtain ⟨onDelete, onUpdate⟩ := actions
  simp only [actionWords, List.mem_append] at hword
  rcases hword with hword | hword
  · cases onDelete with
    | none => cases hword
    | some action =>
      simp only [Option.elim_some, List.mem_cons] at hword
      rcases hword with rfl | rfl | hword
      · exact hfirst _ (by simp)
      · exact hfirst _ (by simp)
      · exact haction action word hword
  · cases onUpdate with
    | none => cases hword
    | some action =>
      simp only [Option.elim_some, List.mem_cons] at hword
      rcases hword with rfl | rfl | hword
      · exact hfirst _ (by simp)
      · exact hfirst _ (by simp)
      · exact haction action word hword

theorem render_actions (actions : ReferentialActions) :
    actions.render = trailing (actionWords actions) := by
  obtain ⟨onDelete, onUpdate⟩ := actions
  cases onDelete with
  | none =>
    cases onUpdate with
    | none => rfl
    | some update => cases update <;> rfl
  | some delete =>
    cases onUpdate with
    | none => cases delete <;> rfl
    | some update => cases delete <;> cases update <;> rfl

theorem referentialAction_apply (action : ReferentialAction) :
    referentialAction (action.words.map (Token.word · none) ++ rest) = .ok (action, rest) := by
  cases action <;> simp +decide [referentialAction, ReferentialAction.words]

theorem referentialActions_apply (actions : ReferentialActions)
    (hdelete : announce ["ON", "DELETE"] rest = false)
    (hupdate : actions.onUpdate = none → announce ["ON", "UPDATE"] rest = false) :
    referentialActions (actionTokens actions ++ rest) = .ok (actions, rest) := by
  obtain ⟨onDelete, onUpdate⟩ := actions
  unfold actionTokens actionWords
  cases onDelete with
  | none =>
    cases onUpdate with
    | none => simp [referentialActions, hdelete, hupdate]
    | some update => simp +decide [referentialActions, referentialAction_apply, hdelete]
  | some delete =>
    cases onUpdate with
    | none => simp +decide [referentialActions, referentialAction_apply, hupdate]
    | some update => simp +decide [referentialActions, referentialAction_apply]

/-- Words do not begin with a symbol. -/
theorem head?_words_append {text : String} (words : List String)
    (hrest : rest.head? ≠ some (.symbol text)) :
    (words.map (Token.word · none) ++ rest).head? ≠ some (.symbol text) := by
  cases words with
  | nil => exact hrest
  | cons word words => simp

/-- The tokens of the columns that a reference names, if it names some. -/
def columnTokens (columns : List Name) : List Token :=
  if columns.isEmpty then [] else .symbol "(" :: (namesTokens "," columns ++ [.symbol ")"])

theorem optionalNames_apply (columns : List Name) (hrest : rest.head? ≠ some (.symbol "(")) :
    optionalNames (columnTokens columns ++ rest) = .ok (columns, rest) := by
  unfold columnTokens
  by_cases hempty : columns = []
  · simp [hempty, optionalNames, nextIsSymbol, hrest]
  · have hnames := @names_apply rest columns hempty
    simp [hempty, optionalNames, nextIsSymbol, hnames]

section References

variable {table columns : List Name}

theorem spells_columns (h : ∀ name ∈ columns, name.IsPlain dialect) :
    Spells dialect (if columns.isEmpty then ""
      else " (" ++ String.intercalate ", " (columns.map Name.render) ++ ")")
        (columnTokens columns) := by
  unfold columnTokens
  by_cases hempty : columns = []
  · simpa [hempty] using spells_empty
  · have hnames := spells_intercalate (separates_comma.append separates_blank) Name.render
      (fun name => [name.token]) fun name hname => ⟨spells_name (h name hname), by simp⟩
    have hall := spells_empty.separated separates_blank hnames.parenthesized (by simp)
    have htext : " (" ++ String.intercalate ", " (columns.map Name.render) ++ ")" =
        "" ++ " " ++ ("(" ++ String.intercalate ", " (columns.map Name.render) ++ ")") := by
      simp [← String.toList_inj]
    rw [if_neg (by simpa using hempty), if_neg (by simpa using hempty), htext]
    exact hall

theorem delimited_columns (columns : List Name) : Delimited dialect (if columns.isEmpty then ""
    else " (" ++ String.intercalate ", " (columns.map Name.render) ++ ")").toList := by
  by_cases hempty : columns.isEmpty
  · simpa [hempty] using Delimited.nil
  · rw [if_neg hempty, String.append_assoc, String.toList_append]
    exact .of_mem (show ' ' ∈ delimiters by decide) _

/-- The tokens of a reference. -/
def referenceTokens (table columns : List Name) (actions : ReferentialActions) (words : List String) :
    List Token :=
  namesTokens "." table ++
    (columnTokens columns ++ (actionTokens actions ++ words.map (Token.word · none)))

theorem spells_references {checking : Checking} {words : List String} (actions : ReferentialActions)
    (hne : table ≠ []) (htable : ∀ name ∈ table, name.IsPlain dialect)
    (hcolumns : ∀ name ∈ columns, name.IsPlain dialect) (hchecking : checking.IsToldBy words) :
    Spells dialect (references table columns actions checking).render
      (.word "REFERENCES" none :: referenceTokens table columns actions words) := by
  have hword : Spells dialect "REFERENCES" [.word "REFERENCES" none] :=
    spells_word (isWord_of_isAsciiWord (by decide +kernel))
  have hname := hword.separated separates_blank (spells_path htable) (namesTokens_ne_nil "." hne)
  have hcolumns := hname.append (spells_columns hcolumns) (delimited_columns columns)
  have hactions := hcolumns.append (spells_trailing (isWord_of_mem_actionWords actions))
    (delimited_trailing _)
  have hall := hactions.append (spells_trailing hchecking.isWord) (delimited_trailing _)
  have htext : (references table columns actions checking).render = "REFERENCES " ++ renderPath table ++
      (if columns.isEmpty then ""
        else " (" ++ String.intercalate ", " (columns.map Name.render) ++ ")") ++
          actions.render ++ checking.render :=
    rfl
  simpa [htext, render_actions, hchecking.render_eq, referenceTokens, actionTokens,
    String.append_assoc] using hall

theorem readFrom_references {checking : Checking} {words : List String} (actions : ReferentialActions)
    (hne : table ≠ []) (htable : ∀ name ∈ table, name.IsPlain dialect)
    (hcolumns : ∀ name ∈ columns, name.IsPlain dialect) (hchecking : checking.IsToldBy words) :
    (references table columns actions checking).ReadFrom dialect
      (.word "REFERENCES" none :: referenceTokens table columns actions words) := by
  apply readFrom_of_word (spells_references actions hne htable hcolumns hchecking) (by decide)
    (by decide) (by decide)
  intro size rest _ hrest hupdate
  have hafter : ∀ text ∈ ["(", "."], (actionTokens actions ++
      (words.map (Token.word · none) ++ rest)).head? ≠ some (.symbol text) := by
    have hall : ∀ text ∈ ["(", "."], .symbol text ∉ endTokens := by decide
    intro text htext
    exact head?_words_append _ (head?_words_append _ (hrest.ends.head?_ne (hall text htext)))
  have hpath : path (namesTokens "." table ++ (columnTokens columns ++
      (actionTokens actions ++ (words.map (Token.word · none) ++ rest)))) =
        .ok (table, columnTokens columns ++
          (actionTokens actions ++ (words.map (Token.word · none) ++ rest))) := by
    apply path_apply hne
    unfold columnTokens
    split
    · exact hafter "." (by simp)
    · simp
  have hnames := optionalNames_apply columns (hafter "(" (by simp))
  -- An action that is missing must not begin in the words after it, nor in what follows those.
  have hon : ∀ word, (words = [] → announce ["ON", word] rest = false) →
      announce ["ON", word] (words.map (Token.word · none) ++ rest) = false := by
    intro word hword
    by_cases hempty : words = []
    · simpa [hempty] using hword hempty
    · exact hchecking.announce_eq hempty word
  have hdelete : announce ["ON", "DELETE"] rest = false := hrest.announce_eq (by decide +kernel)
  have hactions := referentialActions_apply actions (hon "DELETE" fun _ => hdelete) fun hnone =>
    hon "UPDATE" fun hempty => hupdate (by simp [awaitsUpdate, hnone, hchecking.eq_of_nil hempty])
  simp +decide [Grammar.columnOption, referenceTokens, hpath, hnames, hactions,
    hchecking.checking_apply hrest]

end References

end ColumnOption

/-! ### Options with their names -/

/-- Whether an option begins with the change of a row. -/
def NamedOption.isUpdate (named : NamedOption) : Bool := named.name.isNone && named.option.isUpdate

/-- An option with its name is read back from the tokens of its written form, where another one
follows or the column ends. -/
structure NamedOption.ReadFrom (dialect : Dialect) (named : NamedOption) (tokens : List Token) :
    Prop where
  /-- These are its tokens. -/
  spells : Spells dialect named.render tokens
  /-- What stands before them ends there. -/
  closes : Closes tokens
  /-- They do not begin with the change of a row, unless the option does. -/
  unchanged : named.isUpdate = false → ∀ rest, announce ["ON", "UPDATE"] (tokens ++ rest) = false
  /-- They are taken for the option. -/
  reads : ∀ size fuel rest, tokens.length ≤ size → Closes rest →
    (named.option.awaitsUpdate → announce ["ON", "UPDATE"] rest = false) →
    let grammar := Grammar.ofSize dialect size (maxNesting - 1)
    grammar.columnOptionsWithin (fuel + 1) (tokens ++ rest) =
      match grammar.columnOptionsWithin fuel rest with
      | .ok (others, rest) => .ok (named :: others, rest)
      | .error fault => .error fault

theorem ColumnOption.ReadFrom.without_name {option : ColumnOption} {tokens : List Token}
    (h : option.ReadFrom dialect tokens) : NamedOption.ReadFrom dialect ⟨none, option⟩ tokens where
  spells := by simpa [NamedOption.render] using h.spells
  closes := h.closes
  unchanged hfalse := h.unchanged (by simpa [NamedOption.isUpdate] using hfalse)
  reads size fuel rest hsize hrest hupdate := by
    have hoption := h.reads size rest hsize hrest hupdate
    obtain ⟨token, others, rfl, -⟩ := h.closes.exists_cons
    have hunnamed := h.unnamed token rfl
    rw [List.cons_append] at hoption ⊢
    cases hothers : (Grammar.ofSize dialect size (maxNesting - 1)).columnOptionsWithin fuel rest <;>
      simp [Grammar.columnOptionsWithin, hunnamed, hoption, hothers]

theorem ColumnOption.ReadFrom.with_name {option : ColumnOption} {tokens : List Token} {name : Name}
    (h : option.ReadFrom dialect tokens) (hname : name.IsPlain dialect) :
    NamedOption.ReadFrom dialect ⟨some name, option⟩
      (.word "CONSTRAINT" none :: name.token :: tokens) where
  spells := by
    have hword : Spells dialect "CONSTRAINT" [.word "CONSTRAINT" none] :=
      spells_word (isWord_of_isAsciiWord (by decide +kernel))
    have hstart := hword.separated separates_blank (spells_name hname) (by simp)
    obtain ⟨token, others, rfl, -⟩ := h.closes.exists_cons
    simpa [NamedOption.render, String.append_assoc] using
      hstart.separated separates_blank h.spells (by simp)
  closes := ⟨[.word "CONSTRAINT" none], by decide, by simp⟩
  unchanged _ rest := by simp +decide
  reads size fuel rest hsize hrest hupdate := by
    have hoption := h.reads size rest (by simp at hsize; omega) hrest hupdate
    cases hothers : (Grammar.ofSize dialect size (maxNesting - 1)).columnOptionsWithin fuel rest <;>
      simp +decide [Grammar.columnOptionsWithin, name_apply, hoption, hothers]

/-! ### All options of a column -/

/-- The definition of a column ends with a comma or a parenthesis. -/
def EndsColumn (rest : List Token) : Prop := ∃ mark ∈ [",", ")"], rest.head? = some (.symbol mark)

theorem EndsColumn.exists_cons (h : EndsColumn rest) :
    ∃ mark others, mark ∈ [",", ")"] ∧ rest = .symbol mark :: others := by
  obtain ⟨mark, hmark, hhead⟩ := h
  cases rest with
  | nil => cases hhead
  | cons token tail =>
    cases hhead
    exact ⟨mark, tail, hmark, rfl⟩

theorem EndsColumn.closes (h : EndsColumn rest) : Closes rest := by
  obtain ⟨mark, others, hmark, rfl⟩ := h.exists_cons
  exact closes_mark hmark

theorem columnOptionsWithin_end (h : EndsColumn rest) (grammar : Grammar) (fuel : Nat) :
    grammar.columnOptionsWithin (fuel + 1) rest = .ok ([], rest) := by
  obtain ⟨mark, others, hmark, rfl⟩ := h.exists_cons
  simp [Grammar.columnOptionsWithin, Grammar.columnOption, Grammar.dialectOption]

/-- Where an option takes the change of a row for its own, none follows. -/
def Unambiguous (options : List NamedOption) : Prop :=
  options.IsChain fun first second => first.option.awaitsUpdate → second.isUpdate = false

instance (options : List NamedOption) : Decidable (Unambiguous options) :=
  inferInstanceAs (Decidable (options.IsChain _))

/-- The options of a column are read back from the tokens of their written form. -/
theorem exists_columnOptions {options : List NamedOption}
    (h : ∀ option ∈ options, ∃ tokens, option.ReadFrom dialect tokens) (hchain : Unambiguous options) :
    ∃ tokens, Spells dialect (String.intercalate " " (options.map NamedOption.render)) tokens ∧
      (options = [] → tokens = []) ∧ options.length ≤ tokens.length ∧
      (∀ rest, EndsColumn rest → Closes (tokens ++ rest) ∧
        ((∀ option ∈ options.head?, option.isUpdate = false) →
          announce ["ON", "UPDATE"] (tokens ++ rest) = false)) ∧
      ∀ size fuel rest, tokens.length ≤ size → options.length < fuel → EndsColumn rest →
        (Grammar.ofSize dialect size (maxNesting - 1)).columnOptionsWithin fuel (tokens ++ rest) =
          .ok (options, rest) := by
  -- An option ends where the next one begins; the induction carries along how the rest begins.
  induction options with
  | nil =>
    refine ⟨[], spells_empty, by simp, by simp, fun rest hrest => ⟨hrest.closes, fun _ => ?_⟩,
      fun size fuel rest _ hfuel hrest => ?_⟩
    · obtain ⟨mark, others, -, rfl⟩ := hrest.exists_cons
      simp
    · obtain ⟨fuel, rfl⟩ : ∃ n, fuel = n + 1 := Nat.exists_eq_add_one.2 (by simpa using hfuel)
      exact columnOptionsWithin_end hrest _ fuel
  | cons first others ih =>
    obtain ⟨tokens, hfirst⟩ := h first (by simp)
    obtain ⟨otherTokens, hspells, hempty, hlength, hstarts, hreads⟩ :=
      ih (fun option hoption => h option (List.mem_cons_of_mem _ hoption)) hchain.tail
    obtain ⟨token, tail, htokens, -⟩ := hfirst.closes.exists_cons
    have hnext : first.option.awaitsUpdate → ∀ option ∈ others.head?, option.isUpdate = false :=
      fun hawaits option hoption => hchain.rel_head? hoption hawaits
    refine ⟨tokens ++ otherTokens, ?_, by simp, by simp [htokens]; omega, fun rest hrest => ?_,
      fun size fuel rest hsize hfuel hrest => ?_⟩
    · cases others with
      | nil => simpa [hempty] using hfirst.spells
      | cons second others =>
        have hne : otherTokens ≠ [] := List.ne_nil_of_length_pos (by simp at hlength; omega)
        rw [List.map_cons, List.map_cons, String.intercalate_cons_cons]
        simpa using hfirst.spells.separated separates_blank hspells hne
    · rw [List.append_assoc]
      exact ⟨hfirst.closes.append _, fun hfalse => hfirst.unchanged (hfalse first rfl) _⟩
    · obtain ⟨fuel, rfl⟩ : ∃ n, fuel = n + 1 := Nat.exists_eq_add_one.2 (by omega)
      obtain ⟨hcloses, hchange⟩ := hstarts rest hrest
      simp only [List.length_append, List.length_cons] at hsize hfuel
      rw [List.append_assoc, hfirst.reads size fuel _ (by omega) hcloses fun h => hchange (hnext h),
        hreads size fuel rest (by omega) (by omega) hrest]

end Schemata.Sql
