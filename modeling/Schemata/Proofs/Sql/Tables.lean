import Mathlib.Tactic.Choose
import Schemata.Ddl.Statement
import Schemata.Proofs.Sql.Expressions
import Schemata.Proofs.Sql.Identity

/-!
# Created tables are read back

A statement that creates a table lists the columns, each on a line of its own. A column is read back
if its name is not taken for the beginning of a constraint of the table, and its type and options are
read back. Names stand without quotes, so that a column can be called by a keyword only if the
keyword begins no constraint.

## Main definitions

* `opensConstraint`: names that begin a constraint where they stand without quotes
* `ColumnOption.IsPlain`, `ColumnDefinition.IsPlain`: the options and the columns that are read back
* `TableDefinition.ReadFrom`: a text creates the table, and the statement is over with its end

## Main results

* `ColumnDefinition.IsPlain.exists_readFrom`: columns are read back
* `exists_creation`: so is a table of such columns
* `tableDefinitions?_join`: statements one after the other are read back one by one
-/

namespace Schemata.Sql

open Reader

variable {dialect : Dialect} {rest : List Token}

/-! ### Columns -/

/-- The words that begin a constraint of a table. MySQL has indexes among them. -/
def constraintKeywords (dialect : Dialect) : List String :=
  ["CONSTRAINT", "UNIQUE", "PRIMARY", "FOREIGN", "CHECK"] ++
    if dialect = .mysql then ["KEY", "INDEX", "FULLTEXT", "SPATIAL"] else []

/-- Whether the name of a column is taken for the beginning of a constraint of the table. -/
def opensConstraint (dialect : Dialect) (name : String) : Bool :=
  (constraintKeywords dialect).any (Token.word name none).isKeyword

/-- Any other name is not taken for a constraint. -/
theorem tableConstraint_apply {grammar : Grammar} {name : String}
    (h : opensConstraint grammar.dialect name = false) :
    grammar.tableConstraint (.word name none :: rest) = .ok (false, .word name none :: rest) := by
  simp only [opensConstraint, constraintKeywords, List.any_append, Bool.or_eq_false_iff] at h
  obtain ⟨hall, hindex⟩ := h
  simp only [List.any_cons, List.any_nil, Bool.or_false, Bool.or_eq_false_iff] at hall
  by_cases hdialect : grammar.dialect = .mysql
  · simp only [hdialect, if_true, List.any_cons, List.any_nil, Bool.or_false,
      Bool.or_eq_false_iff] at hindex
    simp [Grammar.tableConstraint, Grammar.tableIndex, follow, hasOneOf, hall, hdialect, hindex]
  · simp [Grammar.tableConstraint, follow, hall, hdialect]

/-- The options that are read back. -/
inductive ColumnOption.IsPlain (dialect : Dialect) : ColumnOption → Prop
  /-- An option that consists of keywords. -/
  | words {option : ColumnOption} {words : List String}
      (h : (option, words) ∈ ColumnOption.wordOptions dialect) : IsPlain dialect option
  /-- An identity column that tells how its sequence counts. -/
  | identity {words texts : List String} (h : words ∈ identityWords)
      (htexts : IsSequence sequenceStarts texts) (hne : texts ≠ []) :
      IsPlain dialect (.words (String.intercalate " " words ++ Grammar.writtenSequence texts))
  /-- The primary key, perhaps with the time at which it is checked. -/
  | primaryKey {checking : Checking} {words : List String} (h : checking.IsToldBy words) :
      IsPlain dialect (.primaryKey checking)
  /-- A value that no other row has, perhaps with the time at which that is checked. -/
  | unique {checking : Checking} {words : List String} (h : checking.IsToldBy words) :
      IsPlain dialect (.unique checking)
  /-- A comment. -/
  | comment {text : String} (h : IsPlainString dialect text '\'') :
      IsPlain dialect (.words ("COMMENT " ++ quoted '\'' text))
  /-- A character set. -/
  | characterSet {path : List Name} (hne : path ≠ []) (h : ∀ name ∈ path, name.IsPlain dialect) :
      IsPlain dialect (.words ("CHARACTER SET " ++ renderPath path))
  /-- A value for what is not given. -/
  | default {e : Expr} (h : e.IsPlain dialect (.expression 0 0) (maxNesting - 2)) :
      IsPlain dialect (.default e)
  /-- A condition. -/
  | check {e : Expr} (h : e.IsPlain dialect (.expression 0 0) (maxNesting - 2)) :
      IsPlain dialect (.check e)
  /-- A computed value. -/
  | generated {e : Expr} {before after : List String}
      (hwords : (before, after) ∈ ColumnOption.generations dialect)
      (h : e.IsPlain dialect (.expression 0 0) (maxNesting - 2)) :
      IsPlain dialect (.generated (String.intercalate " " before ++ " ") e (trailing after))
  /-- A value for when the row changes. -/
  | onUpdate {e : Expr} (hdialect : dialect = .mysql)
      (h : e.IsPlain dialect (.expression 0 0) (maxNesting - 2)) : IsPlain dialect (.onUpdate e)
  /-- A reference. -/
  | references {table columns : List Name} {checking : Checking} {words : List String}
      (actions : ReferentialActions) (hne : table ≠ []) (htable : ∀ name ∈ table, name.IsPlain dialect)
      (hcolumns : ∀ name ∈ columns, name.IsPlain dialect) (hchecking : checking.IsToldBy words) :
      IsPlain dialect (.references table columns actions checking)

theorem ColumnOption.IsPlain.exists_readFrom {option : ColumnOption} (h : option.IsPlain dialect) :
    ∃ tokens, option.ReadFrom dialect tokens := by
  cases h with
  | words h => exact ⟨_, readFrom_words h⟩
  | identity h htexts hne => exact exists_readFrom_identity h htexts hne
  | primaryKey h => exact ⟨_, readFrom_primaryKey h⟩
  | unique h => exact ⟨_, readFrom_unique h⟩
  | comment h => exact ⟨_, readFrom_comment h⟩
  | characterSet hne h => exact ⟨_, readFrom_characterSet hne h⟩
  | default h =>
    obtain ⟨tokens, htokens⟩ := h.exists_readFrom
    exact ⟨_, readFrom_default htokens⟩
  | check h =>
    obtain ⟨tokens, htokens⟩ := h.exists_readFrom
    exact ⟨_, readFrom_check htokens⟩
  | generated hwords h =>
    obtain ⟨tokens, htokens⟩ := h.exists_readFrom
    exact ⟨_, readFrom_generated hwords htokens⟩
  | onUpdate hdialect h =>
    subst hdialect
    obtain ⟨tokens, htokens⟩ := h.exists_readFrom
    exact ⟨_, readFrom_onUpdate htokens⟩
  | references actions hne htable hcolumns hchecking =>
    exact ⟨_, readFrom_references actions hne htable hcolumns hchecking⟩

/-- An option with a name that is scanned as it is written is read back, if the option is. -/
structure NamedOption.IsPlain (dialect : Dialect) (named : NamedOption) : Prop where
  /-- The name is. -/
  name : ∀ name ∈ named.name, name.IsPlain dialect
  /-- The option is. -/
  option : named.option.IsPlain dialect

theorem NamedOption.IsPlain.exists_readFrom {named : NamedOption} (h : named.IsPlain dialect) :
    ∃ tokens, named.ReadFrom dialect tokens := by
  obtain ⟨tokens, htokens⟩ := h.option.exists_readFrom
  obtain ⟨_ | name, option⟩ := named
  · exact ⟨_, htokens.without_name⟩
  · exact ⟨_, htokens.with_name (h.name name rfl)⟩

/-- The columns that are read back: the name is not taken for a constraint of the table, and the type
and the options are read back. -/
structure ColumnDefinition.IsPlain (dialect : Dialect) (column : ColumnDefinition) : Prop where
  /-- The name is not taken for a constraint. -/
  opens : opensConstraint dialect column.name = false
  /-- The type is read back. -/
  type : ∀ type ∈ column.type, type.IsPlain dialect
  /-- The options are read back. -/
  options : ∀ option ∈ column.options, option.IsPlain dialect
  /-- None of them takes the next one for its own. -/
  unambiguous : Unambiguous column.options

/-- The written form of a column with a type. -/
def ColumnDefinition.render (column : ColumnDefinition) (type : DataType) : String :=
  Text.endTrimmed (column.name ++ " " ++ type.render ++ " " ++
    String.intercalate " " (column.options.map NamedOption.render))

/-- A column is read back from the tokens of its written form. -/
structure ColumnDefinition.ReadFrom (dialect : Dialect) (column : ColumnDefinition) (type : DataType)
    (tokens : List Token) : Prop where
  /-- These are its tokens. -/
  spells : Spells dialect (column.render type) tokens
  /-- There are some. -/
  ne_nil : tokens ≠ []
  /-- They are not the end of the columns. -/
  opens : tokens.head? ≠ some (.symbol ")")
  /-- They are taken for the column. -/
  reads : ∀ size rest, tokens.length ≤ size → EndsColumn rest →
    (Grammar.ofSize dialect size (maxNesting - 1)).tableElement (tokens ++ rest) =
      .ok (some column, rest)

theorem endTrimmed_append_blank {text : String} (h : Tight text) :
    Text.endTrimmed (text ++ " ") = text := by
  have hblank : ∀ c ∈ " ".toList, Text.isBlank c := by decide
  have htrimmed := h.endTrimmed_eq
  rw [Text.endTrimmed] at htrimmed ⊢
  rw [String.toList_append, Text.trimEnd_append_blanks text.toList hblank, htrimmed]

theorem ColumnDefinition.IsPlain.exists_readFrom {column : ColumnDefinition} {type : DataType}
    (h : column.IsPlain dialect) (hname : isWord dialect column.name)
    (hhasType : column.type = some type) : ∃ tokens, column.ReadFrom dialect type tokens := by
  obtain ⟨typeTokens, htype⟩ := (h.type type hhasType).exists_readFrom
  obtain ⟨optionTokens, hspells, hempty, hlength, hcloses, hreads⟩ :=
    exists_columnOptions (fun option hoption => (h.options option hoption).exists_readFrom)
      h.unambiguous
  have hstart := (spells_word hname).separated separates_blank htype.spells htype.ne_nil
  refine ⟨.word column.name none :: (typeTokens ++ optionTokens), ?_, by simp, by simp,
    fun size rest hsize hrest => ?_⟩
  · unfold render
    -- Without options the blank behind the type is cut off.
    by_cases hoptions : column.options = []
    · rw [hoptions, List.map_nil, String.intercalate_nil, String.append_empty,
        endTrimmed_append_blank hstart.tight]
      simpa [hempty hoptions] using hstart
    · have hne : optionTokens ≠ [] := by
        have hpos := List.length_pos_of_ne_nil hoptions
        exact List.ne_nil_of_length_pos (by omega)
      have hall := hstart.separated separates_blank hspells hne
      rw [hall.tight.endTrimmed_eq]
      simpa using hall
  · have hoptions := (hcloses rest hrest).1
    have hcollate : announce ["COLLATE"] (optionTokens ++ rest) = false :=
      hoptions.isKeyword_eq (by decide)
    have hlacks := htype.announced (Grammar.ofSize dialect size (maxNesting - 1))
      (optionTokens ++ rest) (by rfl)
    have htaken := htype.dataType_of_ends hoptions.ends
    have hread := hreads size (optionTokens.length + rest.length + 1) rest
      (by simp at hsize; omega) (by omega) hrest
    have hdialect : (Grammar.ofSize dialect size (maxNesting - 1)).dialect = dialect := by rfl
    have hopens : (Grammar.ofSize dialect size (maxNesting - 1)).tableConstraint
        (.word column.name none :: (typeTokens ++ (optionTokens ++ rest))) =
          .ok (false, .word column.name none :: (typeTokens ++ (optionTokens ++ rest))) :=
      tableConstraint_apply h.opens
    have hcolumn : (⟨column.name, some type, column.options⟩ : ColumnDefinition) = column := by
      rw [← hhasType]
    simp [Grammar.tableElement, Grammar.columnDefinition, Grammar.columnOptions, hopens, Reader.name,
      hlacks, htaken, hcollate, hread, hdialect, hcolumn]

/-! ### Tables -/

section Tables

variable {columns : List (ColumnDefinition × DataType)}

/-- The columns of a table, each on a line of its own. -/
theorem exists_tableElements
    (h : ∀ column ∈ columns, ∃ tokens, column.1.ReadFrom dialect column.2 tokens) :
    ∃ tokens, Spells dialect
        (String.intercalate ",\n\t" (columns.map fun column => column.1.render column.2)) tokens ∧
      ∀ size rest, tokens.length ≤ size →
        (Grammar.ofSize dialect size (maxNesting - 1)).tableElements
          (.symbol "(" :: (tokens ++ .symbol ")" :: rest)) = .ok (columns.map Prod.fst, rest) := by
  choose! tokens htokens using h
  have hseparator : Separates dialect ",\n\t" [.symbol ","] :=
    ⟨fun _ => .of_mem (show ',' ∈ delimiters by decide) _,
      fun _ _ h => .mark (by decide) (.blank (by decide) (.blank (by decide) h)),
      .of_not_mem (by simp)⟩
  refine ⟨[.symbol ","].intercalate (columns.map tokens), spells_intercalate hseparator _ tokens
    fun column hcolumn => ⟨(htokens column hcolumn).spells, (htokens column hcolumn).ne_nil⟩,
    fun size rest hsize => ?_⟩
  -- Without columns the parenthesis closes at once.
  by_cases hempty : columns = []
  · simp [hempty, Grammar.tableElements]
  · have hend : EndsColumn (.symbol ")" :: rest) := ⟨")", by simp, rfl⟩
    have helements : separated (Grammar.ofSize dialect size (maxNesting - 1)).tableElement ","
        ([.symbol ","].intercalate (columns.map tokens) ++ .symbol ")" :: rest) =
          .ok (columns.map fun column => some column.1, .symbol ")" :: rest) := by
      apply separated_apply tokens (fun column => some column.1) EndsColumn hempty _ _ hend (by simp)
      · intro column hcolumn rest hrest
        have hlength : (tokens column).length ≤
            ([Token.symbol ","].intercalate (columns.map tokens)).length :=
          length_le_length_intercalate (List.mem_map_of_mem hcolumn)
        exact (htokens column hcolumn).reads size rest (by omega) hrest
      · exact fun column _ rest _ => ⟨",", by simp, rfl⟩
    have hopen : hasSymbol ")" ([.symbol ","].intercalate (columns.map tokens) ++
        .symbol ")" :: rest) = .ok (false, [.symbol ","].intercalate (columns.map tokens) ++
          .symbol ")" :: rest) := by
      obtain ⟨first, others, rfl⟩ := List.exists_cons_of_ne_nil hempty
      have hfirst := htokens first (by simp)
      obtain ⟨token, tail, htail⟩ := List.exists_cons_of_ne_nil hfirst.ne_nil
      have hne := hfirst.opens
      apply hasSymbol_of_head
      rw [htail] at hne
      cases others <;> simpa [htail] using hne
    simp [Grammar.tableElements, hopen, helements, List.filterMap_map]

theorem tableSettings_apply (grammar : Grammar) :
    grammar.tableSettings (.symbol ";" :: rest) = .ok ((), .symbol ";" :: rest) := by
  simp [Grammar.tableSettings, Grammar.setting, optionally, follow, repeatedly, repeatedlyWithin,
    Grammar.fileSetting, nextIsKeyword]

/-- The table with the columns of a list. -/
def TableDefinition.of (name : String) (columns : List ColumnDefinition) : TableDefinition :=
  ⟨[⟨name, none⟩], columns⟩

theorem tableDefinition_apply {grammar : Grammar} {tokens : List Token}
    {columns : List ColumnDefinition} (name : String)
    (h : grammar.tableElements (.symbol "(" :: (tokens ++ .symbol ")" :: .symbol ";" :: rest)) =
      .ok (columns, .symbol ";" :: rest)) :
    grammar.tableDefinition
        (.word name none :: .symbol "(" :: (tokens ++ .symbol ")" :: .symbol ";" :: rest)) =
      .ok (.of name columns, .symbol ";" :: rest) := by
  have hpath : path (.word name none :: .symbol "(" :: (tokens ++ .symbol ")" :: .symbol ";" :: rest)) =
      .ok ([⟨name, none⟩], .symbol "(" :: (tokens ++ .symbol ")" :: .symbol ";" :: rest)) :=
    @path_apply _ [⟨name, none⟩] (by simp) (by simp)
  simp [Grammar.tableDefinition, Grammar.template, optionally, follow, hasOneOf, hpath, h,
    tableSettings_apply, TableDefinition.of]

theorem creation_apply {grammar : Grammar} {tokens : List Token} {table : TableDefinition}
    (statements : Reader Unit)
    (h : grammar.tableDefinition tokens = .ok (table, rest)) :
    grammar.creation statements (.word "TABLE" none :: tokens) = .ok (some table, rest) := by
  simp +decide [Grammar.creation, provided, Grammar.enumeration, found, attempt, keyword, keywords,
    hasOneOf, h]

/-! ### Statements -/

/-- A text creates a table, and the statement is over with its last character. -/
structure TableDefinition.ReadFrom (dialect : Dialect) (table : TableDefinition) (text : String)
    (tokens : List Token) : Prop where
  /-- These are the tokens of the text, with a semicolon after them. -/
  lexes : ∀ after ts, Lexes dialect after ts →
    Lexes dialect (text.toList ++ after) (tokens ++ .symbol ";" :: ts)
  /-- They are not the end of a statement. -/
  starts : ∃ token others, tokens = token :: others ∧ token ≠ .symbol ";"
  /-- They are taken for the table. -/
  reads : ∀ size rest, tokens.length ≤ size →
    Statement.within dialect size maxNesting (tokens ++ .symbol ";" :: rest) =
      .ok (some table, .symbol ";" :: rest)

theorem within_creation {size : Nat} {tokens : List Token} {table : TableDefinition}
    (h : (Grammar.ofSize dialect size (maxNesting - 1)).tableDefinition tokens = .ok (table, rest)) :
    Statement.within dialect size maxNesting
      (.word "CREATE" none :: .word "TABLE" none :: tokens) = .ok (some table, rest) := by
  have hkeyword : (Token.word "CREATE" none).keyword? = some "CREATE" := by decide
  have hcreate : (Token.word "CREATE" none).isKeyword "CREATE" := by decide
  have hnesting : maxNesting = (maxNesting - 1) + 1 := rfl
  rw [hnesting, Statement.within]
  simp [hkeyword, keyword, keywords, hcreate, creation_apply _ h]

/-- The statement by which a table is created. -/
theorem exists_creation {name : String} (hname : isWord dialect name)
    (h : ∀ column ∈ columns, ∃ tokens, column.1.ReadFrom dialect column.2 tokens) :
    ∃ tokens, (TableDefinition.of name (columns.map Prod.fst)).ReadFrom dialect
      ("CREATE TABLE " ++ name ++ " (\n\t" ++
        String.intercalate ",\n\t" (columns.map fun column => column.1.render column.2) ++ "\n);")
      tokens := by
  obtain ⟨tokens, hspells, hreads⟩ := exists_tableElements h
  have hwords : ∀ word ∈ ["CREATE", "TABLE", name], isWord dialect word := by
    have hall : ∀ word ∈ ["CREATE", "TABLE"], isAsciiWord word := by decide +kernel
    intro word hword
    simp only [List.mem_cons, List.not_mem_nil, or_false] at hword
    rcases hword with rfl | rfl | rfl
    · exact isWord_of_isAsciiWord (hall _ (by simp))
    · exact isWord_of_isAsciiWord (hall _ (by simp))
    · exact hname
  refine ⟨.word "CREATE" none :: .word "TABLE" none :: .word name none :: .symbol "(" ::
    (tokens ++ [.symbol ")"]), ⟨fun after ts hlexes => ?_, ⟨_, _, rfl, by simp⟩,
      fun size rest hsize => ?_⟩⟩
  · have hclose : Lexes dialect ('\n' :: ')' :: ';' :: after) (.symbol ")" :: .symbol ";" :: ts) :=
      .blank (by decide) (.mark (by decide) (.mark (by decide) hlexes))
    have hcolumns := hspells.lexes _ _ (.of_mem (show '\n' ∈ delimiters by decide) _) hclose
    have hopen : Lexes dialect (' ' :: '(' :: '\n' :: '\t' :: _) (.symbol "(" :: _) :=
      .blank (by decide) (.mark (by decide) (.blank (by decide) (.blank (by decide) hcolumns)))
    have hstart := (spells_words hwords).lexes _ _ (.of_mem (show ' ' ∈ delimiters by decide) _) hopen
    simpa [String.intercalate_cons_cons] using hstart
  · have helements := hreads size (.symbol ";" :: rest) (by simp at hsize; omega)
    simpa using within_creation (tableDefinition_apply name helements)

end Tables

/-! ### Texts -/

section Texts

variable {ι : Type} {items : List ι} (table : ι → TableDefinition) (text : ι → String)
  (tokens : ι → List Token)

/-- The tokens of statements, each with a semicolon after it. -/
def statementTokens (items : List ι) : List Token :=
  items.flatMap fun item => tokens item ++ [.symbol ";"]

theorem lexes_join
    (h : ∀ item ∈ items, (table item).ReadFrom dialect (text item) (tokens item)) :
    Lexes dialect (String.join (items.map text)).toList (statementTokens tokens items) := by
  induction items with
  | nil => exact .nil
  | cons first others ih =>
    have hothers := ih fun item hitem => h item (List.mem_cons_of_mem _ hitem)
    simpa [statementTokens] using (h first (by simp)).lexes _ _ hothers

/-- The statements are taken one after the other. -/
theorem allWithin_apply {size fuel : Nat}
    (h : ∀ item ∈ items, (table item).ReadFrom dialect (text item) (tokens item))
    (hsize : (statementTokens tokens items).length ≤ size)
    (hfuel : (statementTokens tokens items).length < fuel) :
    Statement.allWithin (Statement.within dialect size maxNesting) true fuel
      (statementTokens tokens items) = .ok (items.map table, []) := by
  induction items generalizing fuel with
  | nil =>
    obtain ⟨fuel, rfl⟩ : ∃ n, fuel = n + 1 := Nat.exists_eq_add_one.2 (by omega)
    simp [statementTokens, Statement.allWithin]
  | cons first others ih =>
    have hlater := fun item hitem => h item (List.mem_cons_of_mem first hitem)
    obtain ⟨token, tail, htokens, hne⟩ := (h first (by simp)).starts
    simp only [statementTokens, List.flatMap_cons, List.length_append, List.length_cons,
      List.length_nil] at hsize hfuel
    have hpos : (tokens first).length = tail.length + 1 := by rw [htokens, List.length_cons]
    obtain ⟨fuel, rfl⟩ : ∃ n, fuel = n + 2 := ⟨fuel - 2, by omega⟩
    have hread := (h first (by simp)).reads size (statementTokens tokens others) (by omega)
    have hothers := @ih fuel hlater (by simp only [statementTokens]; omega)
      (by simp only [statementTokens]; omega)
    have hall : statementTokens tokens (first :: others) =
        token :: (tail ++ .symbol ";" :: statementTokens tokens others) := by
      simp [statementTokens, htokens]
    rw [htokens, List.cons_append] at hread
    have hsymbol : hasSymbol ";" (token :: (tail ++ .symbol ";" :: statementTokens tokens others)) =
        .ok (false, token :: (tail ++ .symbol ";" :: statementTokens tokens others)) :=
      hasSymbol_of_head (by simpa using hne)
    rw [hall]
    simp [Statement.allWithin, hsymbol, hread, hothers]

/-- Statements that create tables one after the other create all of them. -/
theorem tableDefinitions?_join
    (h : ∀ item ∈ items, ∃ tokens, (table item).ReadFrom dialect (text item) tokens) :
    tableDefinitions? dialect (String.join (items.map text)) = some (items.map table) := by
  choose! tokens htokens using h
  have htext := (lexes_join table text tokens htokens).ofText?_eq
  have hread : Statement.allWithin (Statement.within dialect (statementTokens tokens items).length
      maxNesting) true ((statementTokens tokens items).length + 1) (statementTokens tokens items) =
        .ok (items.map table, []) :=
    allWithin_apply table text tokens htokens (Nat.le_refl _) (Nat.lt_succ_self _)
  have hall : (Statement.all (Statement.within dialect (statementTokens tokens items).length
      maxNesting)) (statementTokens tokens items) = .ok (items.map table, []) := by
    simp only [Statement.all, bind_apply, get_apply, hread]
  have hrun : (Statement.all (Statement.within dialect (statementTokens tokens items).length
      maxNesting)).run' (statementTokens tokens items) = .ok (items.map table) := by
    change Prod.fst <$> (_ : Except Fault _) = _
    rw [hall]
    rfl
  rw [tableDefinitions?, htext, Option.bind_eq_bind, Option.bind_some, hrun]
  rfl

end Texts

end Schemata.Sql
