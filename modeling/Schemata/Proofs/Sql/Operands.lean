import Schemata.Proofs.Sql.TypedText

/-!
# Operands are read back

An expression is read operand by operand. What follows an operand either ends it or goes on with an
operator, and then it depends on how tight that operator binds whether it belongs to the expression.
So what is said of the written form of an expression has a limit: it is taken for the expression
before everything that binds no tighter. The operands that have no expression inside them are
literals, words with a value of their own, and names.

## Main definitions

* `Follows`: what follows an expression binds no tighter than the limit
* `Opens`: how the tokens of an expression begin
* `Expr.Read`, `Expr.ReadWhole`, `Expr.ReadAtom`: an expression, an operand, and an operand that may
  have a collation are read back from their tokens
* `IsConstant`, `Name.IsFree`: words with a value of their own, and names without any meaning

## Main results

* `Expr.ReadAtom.readWhole`, `Expr.ReadAtom.collated`, `Expr.ReadWhole.read`: an operand without and
  with a collation, and as an expression
* `readAtom_literal`, `readAtom_string`, `readAtom_constant`, `readAtom_path`: the operands without
  an expression inside
-/

namespace Schemata.Sql

open Reader

variable {dialect : Dialect} {rest : List Token}

/-! ### Nested grammars -/

theorem Grammar.within_dialect (fuel nesting : Nat) :
    (Grammar.within dialect fuel nesting).dialect = dialect := by
  cases fuel <;> rfl

theorem Grammar.within_operand (fuel nesting : Nat) :
    (Grammar.within dialect (fuel + 1) nesting).operand =
      (Grammar.within dialect fuel nesting).wholeOperand :=
  rfl

theorem Grammar.within_exprAbove (fuel nesting bound : Nat) :
    (Grammar.within dialect (fuel + 1) (nesting + 1)).exprAbove bound =
      (Grammar.within dialect fuel nesting).expression bound :=
  rfl

/-! ### What follows an expression -/

/-- What follows does not go on with an expression, unless it binds no tighter than the limit. -/
structure Follows (dialect : Dialect) (limit : Nat) (rest : List Token) : Prop where
  /-- It ends what stands before it. -/
  ends : Ends rest
  /-- It binds no tighter. -/
  loose : ∀ continuation after, Continuation.ofTokens? dialect rest = some (continuation, after) →
    continuation.level.precedence dialect ≤ limit
  /-- It gives no collation to what stands before it. -/
  uncollated : announce ["COLLATE"] rest = false
  /-- It gives no escape character to a pattern that binds no looser. -/
  unescaped : limit ≤ Level.pattern.precedence dialect → announce ["ESCAPE"] rest = false

namespace Follows

variable {limit : Nat}

theorem mono {limit' : Nat} (h : Follows dialect limit rest) (hle : limit ≤ limit') :
    Follows dialect limit' rest :=
  ⟨h.ends, fun continuation after heq => (h.loose continuation after heq).trans hle, h.uncollated,
    fun hlimit => h.unescaped (hle.trans hlimit)⟩

theorem of_ofTokens?_eq_none (hends : Ends rest) (h : Continuation.ofTokens? dialect rest = none)
    (hwords : ∀ word ∈ ["COLLATE", "ESCAPE"], announce [word] rest = false) :
    Follows dialect limit rest :=
  ⟨hends, by simp [h], hwords "COLLATE" (by simp), fun _ => hwords "ESCAPE" (by simp)⟩

theorem of_ofTokens?_eq {continuation : Continuation} {after : List Token} (hends : Ends rest)
    (h : Continuation.ofTokens? dialect rest = some (continuation, after))
    (hstray : continuation ≠ .stray .collation) (hle : continuation.level.precedence dialect ≤ limit) :
    Follows dialect limit rest := by
  -- Neither of the two words goes on with an expression.
  have hkeyword : ∀ word ∈ ["COLLATE", "ESCAPE"], announce [word] rest = false := by
    intro word hword
    by_contra hannounce
    match rest with
    | [] => simp at hannounce
    | token :: rest =>
      simp only [announce_cons_cons, announce_nil, Bool.and_true, Bool.not_eq_false] at hannounce
      obtain ⟨text, rfl, htext⟩ := exists_of_isKeyword hannounce
      simp only [List.mem_cons, List.not_mem_nil, or_false] at hword
      rcases hword with rfl | rfl
      · simp only [Continuation.ofTokens?, htext, Option.bind_eq_bind, Option.bind_some] at h
        split at h <;> simp_all
      · simp [Continuation.ofTokens?, htext, Continuation.ofKeyword?] at h
  refine ⟨hends, fun other others hother => ?_, hkeyword _ (by simp), fun _ => hkeyword _ (by simp)⟩
  obtain ⟨rfl, -⟩ := Prod.mk.inj (Option.some.inj (h.symm.trans hother))
  exact hle

end Follows

theorem Closes.follows (h : Closes rest) (limit : Nat) : Follows dialect limit rest := by
  refine .of_ofTokens?_eq_none h.ends h.ofTokens?_eq fun word hword => h.isKeyword_eq ?_
  have hall : ∀ word ∈ ["COLLATE", "ESCAPE"], ∀ start ∈ closings,
      start.head? ≠ some (.word word none) := by
    decide
  exact hall word hword

/-- What follows an element in a list. -/
theorem follows_mark {mark : String} (hmark : mark ∈ [",", ")", "]"]) (limit : Nat) :
    Follows dialect limit (.symbol mark :: rest) := by
  have hall : ∀ mark ∈ [",", ")", "]"], .symbol mark ∈ endTokens ∧
    Continuation.ofTokens? dialect (.symbol mark :: rest) = none := by
    simp only [List.mem_cons, List.not_mem_nil, or_false, forall_eq_or_imp, forall_eq]
    refine ⟨⟨by decide, ?_⟩, ⟨by decide, ?_⟩, ⟨by decide, ?_⟩⟩ <;> cases dialect <;> rfl
  obtain ⟨hend, hnone⟩ := hall mark hmark
  exact .of_ofTokens?_eq_none (.cons hend _) hnone (by simp)

/-- The words between the operands of a form. -/
def linkWords : List String :=
  ["AS", "WHEN", "THEN", "ELSE", "END", "FROM", "FOR", "PLACING", "USING"]

/-- What follows an expression before the next word of the form around it. -/
theorem follows_word {word : String} (hword : word ∈ linkWords) (limit : Nat) :
    Follows dialect limit (.word word none :: rest) := by
  have hall : ∀ word ∈ linkWords, .word word none ∈ endTokens ∧
      Continuation.ofTokens? dialect (.word word none :: rest) = none ∧
        ∀ other ∈ ["COLLATE", "ESCAPE"], (Token.word word none).isKeyword other = false := by
    simp only [linkWords, List.mem_cons, List.not_mem_nil, or_false, forall_eq_or_imp, forall_eq]
    refine ⟨?_, ?_, ?_, ?_, ?_, ?_, ?_, ?_, ?_⟩ <;>
      exact ⟨by decide, rfl, by decide +kernel, by decide +kernel⟩
  obtain ⟨hend, hnone, hother⟩ := hall word hword
  exact .of_ofTokens?_eq_none (.cons hend _) hnone fun other hmem => by simp [hother other hmem]

/-! ### What an expression begins with -/

/-- The words that may stand before an expression. -/
def openingWords : List String := ["SELECT", "WITH", "ANY", "ALL", "SOME", "DISTINCT", "ABSENT"]

/-- The symbols that no expression begins with. -/
def closingMarks : List String := [")", "]", "*", ".", "["]

/-- Whether a token stands before an expression, or in the place of one. -/
def Token.leads (token : Token) : Bool :=
  (closingMarks.any fun mark => token = .symbol mark) || openingWords.any token.isKeyword

/-- Whether a token makes the word before it the name of an argument. -/
def Token.names (token : Token) : Bool :=
  token = .symbol "=>" || ["VALUE", "ON"].any token.isKeyword

/-- Whether a token makes what stands before it the name of an argument, or a part of something
longer. -/
def Token.joins (token : Token) : Bool :=
  token.names || [.symbol ".", .symbol "["].contains token

/-- How the tokens of an expression begin. -/
structure Opens (tokens : List Token) : Prop where
  /-- The first one stands for an expression, and the second one does not make it a name. -/
  starts : ∃ first others, tokens = first :: others ∧ first.leads = false ∧
    ((∃ mark, first = .symbol mark) ∨ ∀ token ∈ others.head?, token.names = false)
  /-- No star comes after names at the beginning. -/
  star : ∀ rest, rest.head? ≠ some (.symbol ".") →
    Grammar.star (tokens ++ rest) = .ok (none, tokens ++ rest)
  /-- No bracket follows a parenthesis at the beginning. -/
  encloses : Encloses tokens

namespace Opens

variable {tokens more : List Token} {first : Token} {others : List Token}

/-- A star comes at once, or after a point. -/
theorem star_apply (hfirst : first ≠ .symbol "*")
    (hsecond : (∃ mark, first = .symbol mark) ∨ others.head? ≠ some (.symbol ".")) :
    Grammar.star (first :: others) = .ok (none, first :: others) := by
  unfold Grammar.star
  simp only [bind_apply, get_apply]
  split
  · rename_i heq
    exact absurd (List.cons.inj heq).1 hfirst
  · rename_i heq
    obtain ⟨rfl, rfl⟩ := List.cons.inj heq
    simp at hsecond
  · rename_i heq
    obtain ⟨rfl, rfl⟩ := List.cons.inj heq
    simp at hsecond
  · rfl

theorem of_cons (hfirst : first.leads = false)
    (hsecond : (∃ mark, first = .symbol mark) ∨
      ∀ token ∈ others.head?, token.names = false ∧ token ≠ .symbol ".")
    (hencloses : Encloses (first :: others)) : Opens (first :: others) := by
  refine ⟨⟨first, others, rfl, hfirst, hsecond.imp_right fun h token htoken => (h token htoken).1⟩,
    fun rest hrest => ?_, hencloses⟩
  rw [List.cons_append]
  apply star_apply
  · rintro rfl
    exact absurd hfirst (by decide)
  · refine hsecond.imp_right fun h => ?_
    cases others with
    | nil => exact hrest
    | cons second others =>
      intro hhead
      cases hhead
      exact (h _ rfl).2 rfl

theorem ne_nil (h : Opens tokens) : tokens ≠ [] := by
  obtain ⟨first, others, rfl, -⟩ := h.starts
  simp

theorem append (h : Opens tokens) (hmore : ∀ token ∈ more.head?, token.joins = false) :
    Opens (tokens ++ more) := by
  have hhead : ∀ mark ∈ [".", "["], more.head? ≠ some (.symbol mark) := by
    intro mark hmark hhead
    have hjoins : ∀ mark ∈ [".", "["], (Token.symbol mark).joins := by decide
    exact absurd (hjoins mark hmark) (by simp [hmore _ hhead])
  obtain ⟨first, others, rfl, hfirst, hsecond⟩ := h.starts
  refine ⟨⟨first, others ++ more, rfl, hfirst, hsecond.imp_right fun hothers => ?_⟩,
    fun rest hrest => ?_, h.encloses.append h.ne_nil (hhead "[" (by simp))⟩
  · cases others with
    | nil =>
      intro token htoken
      have hjoins := hmore token htoken
      simp only [Token.joins, Bool.or_eq_false_iff] at hjoins
      exact hjoins.1
    | cons second others => exact hothers
  · rw [List.append_assoc]
    apply h.star
    cases more with
    | nil => exact hrest
    | cons second more => exact hhead "." (by simp)

/-- None of the words that may stand before it is next. -/
theorem announce_eq (h : Opens tokens) {word : String} (hword : word ∈ openingWords)
    (words : List String) (rest : List Token) : announce (word :: words) (tokens ++ rest) = false := by
  obtain ⟨first, others, rfl, hfirst, -⟩ := h.starts
  simp only [Token.leads, Bool.or_eq_false_iff, List.any_eq_false, Bool.not_eq_true] at hfirst
  simp [hfirst.2 word hword]

theorem head?_ne (h : Opens tokens) {mark : String} (hmark : mark ∈ closingMarks)
    (rest : List Token) : (tokens ++ rest).head? ≠ some (.symbol mark) := by
  have hleads : ∀ mark ∈ closingMarks, (Token.symbol mark).leads := by decide
  obtain ⟨first, others, rfl, hfirst, -⟩ := h.starts
  intro hhead
  cases hhead
  exact absurd (hleads mark hmark) (by simp [hfirst])

theorem nextIsSymbol_apply (h : Opens tokens) {mark : String} (hmark : mark ∈ closingMarks)
    (rest : List Token) : nextIsSymbol mark (tokens ++ rest) = .ok (false, tokens ++ rest) := by
  have hhead := h.head?_ne hmark rest
  simp only [nextIsSymbol, bind_apply, peek_apply, hhead, decide_false, pure_apply]

theorem nextIsQuery_apply (h : Opens tokens) (rest : List Token) :
    Grammar.nextIsQuery (tokens ++ rest) = .ok (false, tokens ++ rest) := by
  have hselect := h.announce_eq (show "SELECT" ∈ openingWords by decide) [] rest
  have hwith := h.announce_eq (show "WITH" ∈ openingWords by decide) [] rest
  obtain ⟨first, others, rfl, -⟩ := h.starts
  simp only [List.cons_append, announce_cons_cons, announce_nil, Bool.and_true] at hselect hwith
  simp [Grammar.nextIsQuery, nextIsKeyword, hselect, hwith]

/-- A comparison ranges over many values only where a word tells so. -/
theorem hasOneOf_apply (h : Opens tokens) (rest : List Token) :
    hasOneOf ["ANY", "ALL", "SOME"] (tokens ++ rest) = .ok (none, tokens ++ rest) := by
  have hmem : ∀ word ∈ ["ANY", "ALL", "SOME"], word ∈ openingWords := by decide
  have hwords := fun word hword => h.announce_eq (hmem word hword) [] rest
  obtain ⟨first, others, rfl, -⟩ := h.starts
  have hnone : ["ANY", "ALL", "SOME"].find? first.isKeyword = none := by
    rw [List.find?_eq_none]
    intro word hword
    simpa using hwords word hword
  simp [hasOneOf, hnone]

/-- The value of what is missing is not told there. -/
theorem missingValues_apply (h : Opens tokens) :
    Grammar.missingValues tokens = .ok ([], tokens) := by
  have habsent := h.announce_eq (show "ABSENT" ∈ openingWords by decide) ["ON", "NULL"] []
  rw [List.append_nil] at habsent
  have hnull : announce ["NULL", "ON", "NULL"] tokens = false := by
    obtain ⟨first, others, rfl, -, ⟨mark, rfl⟩ | hothers⟩ := h.starts
    · simp
    · cases others with
      | nil => simp
      | cons second others =>
        have hsecond := hothers second rfl
        simp only [Token.names, Bool.or_eq_false_iff, List.any_eq_false, Bool.not_eq_true] at hsecond
        simp [hsecond.2 "ON" (by simp)]
  simp [Grammar.missingValues, Grammar.mark, habsent, hnull]

end Opens

/-! ### Expressions that are read back -/

/-- An expression is read back from the tokens of its written form. With a bound, what is read goes
on after it as after any operand. -/
structure Expr.Read (dialect : Dialect) (nesting bound limit : Nat) (e : Expr) (tokens : List Token) :
    Prop where
  /-- These are its tokens. -/
  spells : Spells dialect e.render tokens
  /-- They begin as an expression does. -/
  opens : Opens tokens
  /-- They are taken for the expression. -/
  reads : ∀ fuel rest, 2 * tokens.length ≤ fuel → Follows dialect limit rest →
    ∃ more, rest.length < more ∧
      (Grammar.within dialect fuel nesting).expression bound (tokens ++ rest) =
        (Grammar.within dialect fuel nesting).continueWithin bound e more rest

/-- An operand is read back from the tokens of its written form. -/
structure Expr.ReadWhole (dialect : Dialect) (nesting limit : Nat) (e : Expr) (tokens : List Token) :
    Prop where
  /-- These are its tokens. -/
  spells : Spells dialect e.render tokens
  /-- They begin as an expression does. -/
  opens : Opens tokens
  /-- They are taken for the operand. -/
  reads : ∀ fuel rest, 2 * tokens.length ≤ fuel + 1 → Follows dialect limit rest →
    (Grammar.within dialect fuel nesting).wholeOperand (tokens ++ rest) = .ok (e, rest)

/-- An operand is read back from the tokens of its written form, and may have a collation. -/
structure Expr.ReadAtom (dialect : Dialect) (nesting : Nat) (e : Expr) (tokens : List Token) :
    Prop where
  /-- These are its tokens. -/
  spells : Spells dialect e.render tokens
  /-- They begin as an expression does. -/
  opens : Opens tokens
  /-- They are taken for the operand, and its collation is next. -/
  reads : ∀ fuel rest, 2 * tokens.length ≤ fuel + 1 → Ends rest →
    (Grammar.within dialect fuel nesting).wholeOperand (tokens ++ rest) = Grammar.collated e rest

theorem continueWithin_stop {grammar : Grammar} {bound more : Nat} (e : Expr)
    (hrest : ∀ continuation after, Continuation.ofTokens? grammar.dialect rest =
      some (continuation, after) → continuation.level.precedence grammar.dialect ≤ bound)
    (hmore : rest.length < more) : grammar.continueWithin bound e more rest = .ok (e, rest) := by
  obtain ⟨more, rfl⟩ : ∃ n, more = n + 1 := Nat.exists_eq_add_one.2 (by omega)
  rw [Grammar.continueWithin]
  simp only [bind_apply, get_apply]
  cases hnext : Continuation.ofTokens? grammar.dialect rest with
  | none => rfl
  | some next =>
    obtain ⟨continuation, after⟩ := next
    simp [hrest continuation after hnext]

namespace Expr

variable {nesting bound limit : Nat} {e : Expr} {tokens : List Token}

theorem ReadAtom.readWhole (h : e.ReadAtom dialect nesting tokens) (limit : Nat) :
    e.ReadWhole dialect nesting limit tokens := by
  refine ⟨h.spells, h.opens, fun fuel rest hfuel hrest => ?_⟩
  rw [h.reads fuel rest hfuel hrest.ends]
  simp [Grammar.collated, hrest.uncollated]

/-- An operand with its collation. -/
theorem ReadAtom.collated {path : List Name} (h : e.ReadAtom dialect nesting tokens) (hne : path ≠ [])
    (hpath : ∀ name ∈ path, name.IsPlain dialect) (limit : Nat) :
    (Expr.followed e (" COLLATE " ++ renderPath path)).ReadWhole dialect nesting limit
      (tokens ++ .word "COLLATE" none :: namesTokens "." path) := by
  have hend : .word "COLLATE" none ∈ endTokens ∧ (Token.word "COLLATE" none).joins = false ∧
      (Token.word "COLLATE" none).isKeyword "COLLATE" := by
    decide +kernel
  refine ⟨?_, h.opens.append (by simpa using hend.2.1), fun fuel rest hfuel hrest => ?_⟩
  · have hword : Spells dialect "COLLATE" [.word "COLLATE" none] :=
      spells_word (isWord_of_isAsciiWord (by decide +kernel))
    have hcollation := hword.separated separates_blank (spells_path hpath) (namesTokens_ne_nil "." hne)
    have hall := h.spells.separated separates_blank hcollation (by simp)
    have htext : (Expr.followed e (" COLLATE " ++ renderPath path)).render =
        e.render ++ " " ++ ("COLLATE" ++ " " ++ renderPath path) := by
      simp [Expr.render, ← String.toList_inj]
    rw [htext]
    simpa using hall
  · simp only [List.length_append, List.length_cons] at hfuel
    have hpath : Reader.path (namesTokens "." path ++ rest) = .ok (path, rest) :=
      path_apply hne (hrest.ends.head?_ne (by decide))
    rw [List.append_assoc, List.cons_append, h.reads fuel _ (by omega) (.cons hend.1 _)]
    simp [Grammar.collated, hend.2.2, hpath]

/-- What goes on with an operand comes after it. -/
theorem ReadWhole.read (h : e.ReadWhole dialect nesting limit tokens) (bound : Nat) :
    e.Read dialect nesting bound limit tokens := by
  refine ⟨h.spells, h.opens, fun fuel rest hfuel hrest => ⟨rest.length + 1, by omega, ?_⟩⟩
  have hpos := List.length_pos_of_ne_nil h.opens.ne_nil
  obtain ⟨fuel, rfl⟩ : ∃ n, fuel = n + 1 := Nat.exists_eq_add_one.2 (by omega)
  simp [Grammar.expression, Grammar.within_operand, h.reads fuel rest hfuel hrest]

/-- An expression is over where nothing binds tighter than its bound. -/
theorem Read.exprAbove_of_loose (h : e.Read dialect nesting bound limit tokens) (fuel : Nat)
    (hfuel : 2 * tokens.length < fuel) (hrest : Follows dialect limit rest)
    (hloose : ∀ continuation after, Continuation.ofTokens? dialect rest = some (continuation, after) →
      continuation.level.precedence dialect ≤ bound) :
    (Grammar.within dialect fuel (nesting + 1)).exprAbove bound (tokens ++ rest) =
      .ok (e, rest) := by
  obtain ⟨fuel, rfl⟩ : ∃ n, fuel = n + 1 := Nat.exists_eq_add_one.2 (by omega)
  obtain ⟨more, hmore, hread⟩ := h.reads fuel rest (by omega) hrest
  rw [Grammar.within_exprAbove, hread]
  apply continueWithin_stop _ _ hmore
  rwa [Grammar.within_dialect]

theorem Read.exprAbove_apply (h : e.Read dialect nesting bound limit tokens) (fuel : Nat)
    (hfuel : 2 * tokens.length < fuel) (hrest : Follows dialect limit rest) (hle : limit ≤ bound) :
    (Grammar.within dialect fuel (nesting + 1)).exprAbove bound (tokens ++ rest) =
      .ok (e, rest) :=
  h.exprAbove_of_loose fuel hfuel hrest (hrest.mono hle).loose

theorem Read.expr_apply (h : e.Read dialect nesting 0 0 tokens) (fuel : Nat)
    (hfuel : 2 * tokens.length < fuel) (hrest : Follows dialect 0 rest) :
    (Grammar.within dialect fuel (nesting + 1)).expr (tokens ++ rest) = .ok (e, rest) :=
  h.exprAbove_apply fuel hfuel hrest (Nat.le_refl _)

theorem Read.readFrom (h : e.Read dialect (maxNesting - 2) 0 0 tokens) :
    e.ReadFrom dialect tokens := by
  refine ⟨h.spells, h.opens.ne_nil, fun size rest hsize hrest => ?_⟩
  have hnesting : maxNesting - 1 = (maxNesting - 2) + 1 := rfl
  rw [Grammar.ofSize, hnesting]
  exact h.expr_apply _ (by omega) (hrest.follows 0)

end Expr


/-! ### Operands -/

section Operands

variable {grammar : Grammar} {text : String} {quote : Option Char} {tokens after : List Token}
  {e : Expr}

/-- What is given no type is an operand by itself. -/
theorem wholeOperand_eq (h : grammar.typedText tokens = .error .unexpected) :
    grammar.wholeOperand tokens = grammar.untypedOperand tokens := by
  simp [Grammar.wholeOperand, h]

/-- An operand that begins with a symbol. -/
theorem wholeOperand_of_symbol {mark : String} (h : grammar.afterSymbol mark rest = .ok (e, after)) :
    grammar.wholeOperand (.symbol mark :: rest) = Grammar.collated e after := by
  rw [wholeOperand_eq (typedText_of_not_word (by simp))]
  simp [Grammar.untypedOperand, h]

/-- An operand with a form of its own. -/
theorem wholeOperand_of_form {keyword : String} {form : Reader Expr}
    (htyped : grammar.typedText (.word text none :: rest) = .error .unexpected)
    (hkeyword : (Token.word text none).keyword? = some keyword)
    (hform : grammar.form? text keyword rest.head? = some form)
    (hread : form rest = .ok (e, after)) :
    grammar.wholeOperand (.word text none :: rest) = Grammar.collated e after := by
  rw [wholeOperand_eq htyped]
  simp [Grammar.untypedOperand, hkeyword, Grammar.afterWord, hform, Grammar.formOrName, hread]

/-- An operand that begins with a name. -/
theorem wholeOperand_of_name
    (htyped : grammar.typedText (.word text quote :: rest) = .error .unexpected)
    (hform : ∀ keyword, (Token.word text quote).keyword? = some keyword →
      grammar.form? text keyword rest.head? = none)
    (hread : grammar.nameOrCall ⟨text, quote⟩ rest = .ok (e, after)) :
    grammar.wholeOperand (.word text quote :: rest) = Grammar.collated e after := by
  rw [wholeOperand_eq htyped]
  cases hkeyword : (Token.word text quote).keyword? with
  | none => simp [Grammar.untypedOperand, hkeyword, hread]
  | some keyword =>
    simp [Grammar.untypedOperand, hkeyword, Grammar.afterWord, hform keyword hkeyword, hread]

/-- A name that could begin a form, which does not follow. -/
theorem wholeOperand_of_fallback {keyword : String}
    (htyped : grammar.typedText (.word text quote :: rest) = .error .unexpected)
    (hkeyword : (Token.word text quote).keyword? = some keyword)
    (hreserved : reservedWords.contains keyword = false)
    (hform : grammar.form? text keyword rest.head? = none ∨
      ∃ form, grammar.form? text keyword rest.head? = some form ∧ form rest = .error .unexpected)
    (hname : grammar.nameOrCall ⟨text, quote⟩ rest = .ok (e, after))
    (hcollated : announce ["COLLATE"] after = false) :
    grammar.wholeOperand (.word text quote :: rest) = .ok (e, after) := by
  rw [wholeOperand_eq htyped]
  rcases hform with hnone | ⟨form, hsome, herror⟩
  · simp [Grammar.untypedOperand, hkeyword, Grammar.afterWord, hnone, hname, Grammar.collated,
      hcollated]
  · simp only [Grammar.untypedOperand, bind_apply, next_cons, hkeyword, Grammar.afterWord, peek_apply,
      hsome, hreserved, Grammar.formOrName, herror, hname]

end Operands

/-! ### Literals -/

section Literals

variable {nesting : Nat} {text : String}

/-- The written form of a literal that is kept as it is written. -/
def Token.literal? : Token → Option String
  | .number digits mark => some (digits ++ mark)
  | .escaped _ written | .dollars written | .literal written => some written
  | _ => none

theorem readAtom_literal {token : Token} (hspells : Spells dialect text [token])
    (htoken : token.literal? = some text) :
    (Expr.verbatim text).ReadAtom dialect nesting [token] := by
  have hword : ∀ text quote, token ≠ .word text quote := by
    rintro text quote rfl
    cases htoken
  have hleads : token.leads = false := by
    cases token <;> simp [Token.literal?] at htoken <;>
      simp [Token.leads, Token.isKeyword, Token.keyword?]
  have hopen : token ≠ .symbol "(" := by
    rintro rfl
    cases htoken
  refine ⟨hspells, .of_cons hleads (.inr (by simp)) (.of_head?_ne (by simpa using hopen)),
    fun fuel rest _ _ => ?_⟩
  rw [List.singleton_append, wholeOperand_eq (typedText_of_not_word hword)]
  cases token <;> simp [Token.literal?] at htoken <;> simp [Grammar.untypedOperand, htoken]

theorem readAtom_numeral (h : isNumeral text) :
    (Expr.verbatim text).ReadAtom dialect nesting [.number text ""] :=
  readAtom_literal (spells_numeral h) (by simp [Token.literal?])

theorem wholeOperand_string (grammar : Grammar) (text : String) (quote : Char) :
    grammar.wholeOperand (.string text quote :: rest) = Grammar.collated (.string text quote) rest := by
  rw [wholeOperand_eq (typedText_of_not_word (by simp))]
  simp [Grammar.untypedOperand]

theorem readAtom_string {quote : Char} (h : IsPlainString dialect text quote) :
    (Expr.string text quote).ReadAtom dialect nesting [.string text quote] := by
  exact ⟨spells_string h, .of_cons (by simp [Token.leads]) (.inr (by simp)) (.of_head?_ne (by simp)),
    fun fuel rest _ _ => wholeOperand_string _ text quote⟩

/-- The words for values that only the time tells, which may be given a precision. -/
def timeWords : List String :=
  ["CURRENT_TIMESTAMP", "CURRENT_TIME", "CURRENT_DATE", "LOCALTIME", "LOCALTIMESTAMP"]

/-- The words for values that only the time or the session tells. -/
def currentWords (dialect : Dialect) : List String :=
  timeWords ++
    if dialect = .postgresql then ["CURRENT_CATALOG", "CURRENT_USER", "SESSION_USER", "USER"] else []

/-- Whether a word is a value of its own, in its written form. -/
def IsConstant (dialect : Dialect) (text : String) : Prop :=
  isWord dialect text ∧ (text ∈ ["true", "false", "NULL"] ∨
    ∃ word ∈ currentWords dialect, (Token.word text none).keyword? = some word)

/-- The words of constants have a form of their own. -/
theorem IsConstant.exists_form (h : IsConstant dialect text) :
    ∃ word ∈ ["TRUE", "FALSE", "NULL"] ++ currentWords dialect,
      (Token.word text none).keyword? = some word ∧
      ∀ (grammar : Grammar) (rest : List Token), grammar.dialect = dialect → Ends rest →
        ∃ form, grammar.form? text word rest.head? = some form ∧
          form rest = .ok (.verbatim text, rest) := by
  obtain ⟨-, h | ⟨word, hword, hkeyword⟩⟩ := h
  · simp only [List.mem_cons, List.not_mem_nil, or_false] at h
    rcases h with rfl | rfl | rfl
    · exact ⟨"TRUE", by simp, by decide, fun grammar rest _ _ => ⟨_, rfl, rfl⟩⟩
    · exact ⟨"FALSE", by simp, by decide, fun grammar rest _ _ => ⟨_, rfl, rfl⟩⟩
    · exact ⟨"NULL", by simp, by decide, fun grammar rest _ _ => ⟨_, rfl, rfl⟩⟩
  · refine ⟨word, List.mem_append_right _ hword, hkeyword, fun grammar rest hdialect hrest => ?_⟩
    have hopen : hasSymbol "(" rest = .ok (false, rest) := hrest.hasSymbol_eq (by decide)
    unfold currentWords timeWords at hword
    rw [List.mem_append] at hword
    rcases hword with hword | hword
    · simp only [List.mem_cons, List.not_mem_nil, or_false] at hword
      rcases hword with rfl | rfl | rfl | rfl | rfl <;> exact ⟨_, rfl, by simp [hopen]⟩
    · by_cases hpostgresql : dialect = .postgresql
      · rw [if_pos hpostgresql] at hword
        simp only [List.mem_cons, List.not_mem_nil, or_false] at hword
        rcases hword with rfl | rfl | rfl | rfl <;>
          exact ⟨_, if_pos (hdialect.trans hpostgresql), rfl⟩
      · simp [if_neg hpostgresql] at hword

theorem readAtom_constant (h : IsConstant dialect text) :
    (Expr.verbatim text).ReadAtom dialect nesting [.word text none] := by
  obtain ⟨keyword, hmem, hkeyword, hforms⟩ := h.exists_form
  have hother : ∀ keyword ∈ ["TRUE", "FALSE", "NULL"] ++ currentWords dialect,
      (keyword ≠ "ARRAY" ∧ ∀ form ∈ typeForms, keyword ≠ form.keyword) ∧
        ∀ word ∈ openingWords, keyword ≠ word := by
    cases dialect <;> decide +kernel
  obtain ⟨⟨harray, hnone⟩, hwords⟩ := hother keyword hmem
  have htype : (Token.word text none).opensType = false := by
    simpa [Token.opensType, Token.isKeyword, hkeyword, harray] using hnone
  have hleads : (Token.word text none).leads = false := by
    simpa [Token.leads, Token.isKeyword, hkeyword] using hwords
  refine ⟨spells_word h.1, .of_cons hleads (.inr (by simp)) (.of_head?_ne (by simp)),
    fun fuel rest _ hrest => ?_⟩
  have htyped : (Grammar.within dialect fuel nesting).typedText (.word text none :: rest) =
      .error .unexpected :=
    typedText_of_word htype (hrest.head?_ne (by decide)) (hrest.head?_ne (by decide))
      (.of_head?_ne (hrest.head?_ne (by decide)))
  obtain ⟨form, hform, hread⟩ := hforms _ rest (Grammar.within_dialect fuel nesting) hrest
  exact wholeOperand_of_form htyped hkeyword hform hread

end Literals

/-! ### Names -/

section Names

variable {grammar : Grammar} {text : String} {first : Name} {others : List Name}

/-- The words that begin a form in parentheses. -/
def functionWords : List String :=
  ["CAST", "TRY_CAST", "SAFE_CAST", "CONVERT", "CEIL", "FLOOR", "SUBSTRING", "OVERLAY", "EXTRACT",
    "POSITION"]

/-- The words with a form of their own. -/
def formWords (dialect : Dialect) : List String :=
  ["TRUE", "FALSE", "NULL", "NOT"] ++ currentWords dialect ++
    ["CASE", "TRIM", "EXISTS", "INTERVAL", "ARRAY"] ++ functionWords ++
    if dialect = .mysql then ["MATCH"] else []

/-- Any other word begins no form. -/
theorem form?_eq_none {keyword : String} {next : Option Token}
    (h : keyword ∉ formWords grammar.dialect) : grammar.form? text keyword next = none := by
  unfold Grammar.form?
  split
  all_goals try rfl
  -- The others are words with a form, some of them in one dialect only.
  all_goals simp [formWords, currentWords, timeWords, functionWords] at h
  all_goals simp [h]

/-- A name that is taken for one in an expression. -/
structure Name.IsFree (dialect : Dialect) (name : Name) : Prop where
  /-- It is scanned as the name. -/
  isPlain : name.IsPlain dialect
  /-- It has no meaning of its own. -/
  meaningless : ∀ word ∈ formWords dialect ++ openingWords, name.token.isKeyword word = false

theorem Name.IsFree.form?_eq_none (h : first.IsFree grammar.dialect) {keyword : String}
    (hkeyword : first.token.keyword? = some keyword) (next : Option Token) :
    grammar.form? text keyword next = none := by
  apply Sql.form?_eq_none
  intro hmem
  simpa [Token.isKeyword, hkeyword] using h.meaningless keyword (List.mem_append_left _ hmem)

theorem Name.leads_token {name : Name}
    (h : ∀ word ∈ openingWords, name.token.isKeyword word = false) : name.token.leads = false := by
  have hwords : openingWords.any name.token.isKeyword = false := by
    simpa [List.any_eq_false] using h
  rw [Token.leads, hwords, Bool.or_false]
  simp [Name.token]

theorem Name.IsFree.leads_eq (h : first.IsFree dialect) : first.token.leads = false :=
  leads_token fun word hword => h.meaningless word (List.mem_append_right _ hword)

/-- The tokens of the parts of a name after the first one. -/
def partTokens (names : List Name) : List Token :=
  names.flatMap fun name => [.symbol ".", name.token]

theorem namesTokens_eq (first : Name) (others : List Name) :
    namesTokens "." (first :: others) = first.token :: partTokens others := by
  induction others generalizing first with
  | nil => rfl
  | cons second others ih =>
    rw [namesTokens_cons, ih]
    rfl

theorem partTokens_cons (first : Name) (others : List Name) :
    partTokens (first :: others) = .symbol "." :: first.token :: partTokens others :=
  rfl

theorem length_partTokens (names : List Name) : (partTokens names).length = 2 * names.length := by
  induction names with
  | nil => rfl
  | cons first others ih =>
    rw [partTokens_cons]
    simp only [List.length_cons, ih]
    omega

theorem partsWithin_apply (names : List Name) (hpoint : rest.head? ≠ some (.symbol ".")) {fuel : Nat}
    (hfuel : names.length < fuel) :
    grammar.partsWithin fuel (partTokens names ++ rest) = .ok (names, rest) := by
  induction names generalizing fuel with
  | nil =>
    obtain ⟨fuel, rfl⟩ : ∃ n, fuel = n + 1 := Nat.exists_eq_add_one.2 (by omega)
    simp [partTokens, Grammar.partsWithin, hasSymbol_of_head hpoint]
  | cons name others ih =>
    obtain ⟨fuel, rfl⟩ : ∃ n, fuel = n + 1 := Nat.exists_eq_add_one.2 (by omega)
    have hothers := @ih fuel (by simpa using hfuel)
    simp [partTokens_cons, Grammar.partsWithin, Name.token, hothers]

theorem starWithin_apply (first : Name) (others : List Name) (hpoint : rest.head? ≠ some (.symbol "."))
    {fuel : Nat} (hfuel : others.length < fuel) :
    Grammar.starWithin fuel (first.token :: (partTokens others ++ rest)) = .ok (none, rest) := by
  induction others generalizing first fuel with
  | nil =>
    obtain ⟨fuel, rfl⟩ : ∃ n, fuel = n + 1 := Nat.exists_eq_add_one.2 (by omega)
    simp [partTokens, Grammar.starWithin, Name.token, hasSymbol_of_head hpoint]
  | cons second others ih =>
    obtain ⟨fuel, rfl⟩ : ∃ n, fuel = n + 1 := Nat.exists_eq_add_one.2 (by omega)
    have hothers := @ih second fuel (by simpa using hfuel)
    simp [partTokens_cons, Grammar.starWithin, Name.token] at hothers ⊢
    simp [hothers]

/-- Names with points between them begin an expression, and so does a call. -/
theorem opens_path (hleads : first.token.leads = false) (others : List Name) {more : List Token}
    (hmore : ∀ token ∈ more.head?, token.names = false ∧ token ≠ .symbol ".") :
    Opens (namesTokens "." (first :: others) ++ more) := by
  have hpoint : ∀ rest : List Token, rest.head? ≠ some (.symbol ".") →
      (more ++ rest).head? ≠ some (.symbol ".") := by
    intro rest hrest
    cases more with
    | nil => exact hrest
    | cons token more =>
      intro hhead
      cases hhead
      exact (hmore _ rfl).2 rfl
  rw [namesTokens_eq, List.cons_append]
  refine ⟨⟨first.token, _, rfl, hleads, .inr ?_⟩, fun rest hrest => ?_,
    .of_head?_ne (by simp [Name.token])⟩
  · cases others with
    | nil => exact fun token htoken => (hmore token htoken).1
    | cons second others => simp [partTokens_cons, Token.names]
  · cases others with
    | nil =>
      refine Opens.star_apply (by simp [Name.token]) (.inr ?_)
      simpa [partTokens] using hpoint rest hrest
    | cons second others =>
      have hstar := @starWithin_apply (more ++ rest) first (second :: others) (hpoint rest hrest)
        ((first.token :: (partTokens (second :: others) ++ (more ++ rest))).length + 1)
        (by simp [length_partTokens]; omega)
      rw [partTokens_cons, Name.token] at hstar ⊢
      simp only [List.cons_append, List.append_assoc] at hstar ⊢
      simp only [Grammar.star, bind_apply, get_apply, hstar, Bool.not_true, Bool.false_eq_true,
        if_false, set_apply, pure_apply]

/-- A name with its parts is the whole of what is named or called. -/
theorem nameOrCall_eq (hpath : ∀ name ∈ first :: others, name.IsPlain grammar.dialect)
    (hrest : EndsName rest) (hpoint : rest.head? ≠ some (.symbol ".")) :
    grammar.nameOrCall first (partTokens others ++ rest) =
      (do
        if ← hasSymbol "(" then grammar.call (first :: others)
        else return .name (first :: others)) rest := by
  have hstar : ∀ name ∈ first :: others, name ≠ ⟨"*", none⟩ := by
    rintro name hname rfl
    have hword : ∀ dialect, isWord dialect "*" = false := by
      intro dialect
      cases dialect <;> decide +kernel
    simpa [Name.IsPlain, hword] using hpath _ hname
  have hlast : (first :: others).getLast? ≠ some ⟨"*", none⟩ :=
    fun heq => hstar _ (List.mem_of_getLast? heq) rfl
  have hintroduced : Grammar.nextIsIntroduced (partTokens others ++ rest) =
      .ok (false, partTokens others ++ rest) := by
    cases others with
    | nil => rcases hrest.cases_head with rfl | ⟨mark, tail, rfl⟩ | ⟨word, tail, -, rfl⟩ <;> rfl
    | cons second others => rfl
  have hparts := @partsWithin_apply rest grammar others hpoint
    ((partTokens others ++ rest).length + 1) (by simp [length_partTokens]; omega)
  simp only [Grammar.nameOrCall, bind_apply, provided_apply, hintroduced, ite_self, get_apply, hparts,
    choose_apply, Bool.false_eq_true, if_false]
  rw [if_pos (decide_eq_true hlast)]

/-- What begins a type is its keyword, and not that of spans of time or of lists. -/
theorem Name.IsFree.exists_typeForm (h : first.IsFree dialect) (hopens : first.token.opensType) :
    ∃ form ∈ typeForms, first.token.keyword? = some form.keyword ∧ form.keyword ≠ "INTERVAL" := by
  have harray : first.token.isKeyword "ARRAY" = false := h.meaningless "ARRAY" (by simp [formWords])
  have hinterval : first.token.isKeyword "INTERVAL" = false :=
    h.meaningless "INTERVAL" (by simp [formWords])
  rw [Token.opensType, harray, Bool.false_or, List.any_eq_true] at hopens
  obtain ⟨form, hform, hkeyword⟩ := hopens
  refine ⟨form, hform, by simpa [Token.isKeyword] using hkeyword, fun heq => ?_⟩
  simp [heq, hinterval] at hkeyword

/-- A name gives no type to a text if its keyword alone does not. -/
theorem Name.IsFree.typedText_eq (h : first.IsFree dialect) (others : List Name)
    (hpoint : rest.head? ≠ some (.symbol ".")) (hbracket : rest.head? ≠ some (.symbol "["))
    (hencloses : Encloses rest)
    (hkeyword : ∀ form ∈ typeForms, first.token.keyword? = some form.keyword →
      form.keyword ≠ "INTERVAL" → grammar.typedText (first.token :: rest) = .error .unexpected) :
    grammar.typedText (namesTokens "." (first :: others) ++ rest) = .error .unexpected := by
  by_cases hopens : first.token.opensType
  · obtain ⟨form, hform, hword, hinterval⟩ := h.exists_typeForm hopens
    rw [namesTokens_eq]
    cases others with
    | nil => exact hkeyword form hform hword hinterval
    | cons second others =>
      exact typedText_of_keyword hform hword hinterval (endsName_of_mem (by simp) _)
        (by simp [partTokens_cons])
  · rw [Bool.not_eq_true] at hopens
    exact typedText_of_path rfl hopens hpoint hbracket hencloses

theorem spells_name_path {path : List Name} (hpath : ∀ name ∈ path, name.IsPlain dialect) :
    Spells dialect (Expr.name path).render (namesTokens "." path) := by
  simpa [Expr.render] using spells_path hpath

/-- A name, perhaps with others that qualify it. -/
theorem readAtom_path {nesting : Nat} (h : first.IsFree dialect)
    (hothers : ∀ name ∈ others, name.IsPlain dialect) :
    (Expr.name (first :: others)).ReadAtom dialect nesting (namesTokens "." (first :: others)) := by
  have hpath : ∀ name ∈ first :: others, name.IsPlain dialect := by
    simpa using ⟨h.isPlain, hothers⟩
  have hopens := @opens_path first h.leads_eq others [] (by simp)
  rw [List.append_nil] at hopens
  refine ⟨spells_name_path hpath, hopens, fun fuel rest _ hrest => ?_⟩
  have hdialect : (Grammar.within dialect fuel nesting).dialect = dialect :=
    Grammar.within_dialect fuel nesting
  have hopen : rest.head? ≠ some (.symbol "(") := hrest.head?_ne (by decide)
  have htyped := @Name.IsFree.typedText_eq dialect rest
    (Grammar.within dialect fuel nesting) first h others
    (hrest.head?_ne (by decide)) (hrest.head?_ne (by decide)) (.of_head?_ne hopen)
    fun form hform hkeyword hinterval =>
      typedText_of_keyword hform hkeyword hinterval hrest.endsName hopen
  rw [namesTokens_eq, List.cons_append] at htyped ⊢
  apply wholeOperand_of_name htyped
  · intro keyword hkeyword
    rw [← hdialect] at h
    exact h.form?_eq_none hkeyword _
  · rw [← hdialect] at hpath
    rw [nameOrCall_eq hpath hrest.endsName (hrest.head?_ne (by decide))]
    simp [hasSymbol_of_head hopen]

/-- A word that begins a form in parentheses is a name where no parenthesis follows, but no collation
does then. -/
theorem readWhole_functionPath {nesting limit : Nat} (hfirst : first.IsPlain dialect)
    (hword : ∃ word ∈ functionWords, first.token.keyword? = some word)
    (hothers : ∀ name ∈ others, name.IsPlain dialect) :
    (Expr.name (first :: others)).ReadWhole dialect nesting limit
      (namesTokens "." (first :: others)) := by
  obtain ⟨word, hmem, hkeyword⟩ := hword
  have hfacts : ∀ word ∈ functionWords, ((word ≠ "ARRAY" ∧ ∀ form ∈ typeForms, word ≠ form.keyword) ∧
      ∀ other ∈ openingWords, word ≠ other) ∧ reservedWords.contains word = false := by
    decide +kernel
  obtain ⟨⟨⟨harray, hforms⟩, hopening⟩, hreserved⟩ := hfacts word hmem
  have hpath : ∀ name ∈ first :: others, name.IsPlain dialect := by
    simpa using ⟨hfirst, hothers⟩
  have hleads : first.token.leads = false :=
    Name.leads_token fun other hother => by
      simpa [Token.isKeyword, hkeyword] using hopening other hother
  have hopens := @opens_path first hleads others [] (by simp)
  rw [List.append_nil] at hopens
  refine ⟨spells_name_path hpath, hopens, fun fuel rest _ hrest => ?_⟩
  have htype : first.token.opensType = false := by
    simpa [Token.opensType, Token.isKeyword, hkeyword, harray] using hforms
  have hopen : ∀ mark ∈ ["(", ".", "["], rest.head? ≠ some (.symbol mark) := by
    have hmarks : ∀ mark ∈ ["(", ".", "["], .symbol mark ∉ endTokens := by decide
    exact fun mark hmark => hrest.ends.head?_ne (hmarks mark hmark)
  have htyped := @typedText_of_path rest (Grammar.within dialect fuel nesting)
    (first :: others) first rfl
    htype (hopen "." (by simp)) (hopen "[" (by simp)) (.of_head?_ne (hopen "(" (by simp)))
  have hnext : (partTokens others ++ rest).head? ≠ some (.symbol "(") := by
    cases others with
    | nil => exact hopen "(" (by simp)
    | cons second others => simp [partTokens_cons]
  have hname : (Grammar.within dialect fuel nesting).nameOrCall first (partTokens others ++ rest) =
      .ok (.name (first :: others), rest) := by
    rw [nameOrCall_eq (by rwa [Grammar.within_dialect]) hrest.ends.endsName (hopen "." (by simp))]
    simp [hasSymbol_of_head (hopen "(" (by simp))]
  -- Either no form is begun, or it lacks its parenthesis.
  have hform : (Grammar.within dialect fuel nesting).form? first.text word
      (partTokens others ++ rest).head? = none ∨ ∃ form, (Grammar.within dialect fuel nesting).form?
        first.text word (partTokens others ++ rest).head? = some form ∧
          form (partTokens others ++ rest) = .error .unexpected := by
    simp only [functionWords, List.mem_cons, List.not_mem_nil, or_false] at hmem
    have hsymbol := hasSymbol_of_head hnext
    rcases hmem with rfl | rfl | rfl | rfl | rfl | rfl | rfl | rfl | rfl | rfl
    case inr.inr.inr.inr.inr.inr.inr.inr.inr => exact .inl (if_neg hnext)
    all_goals
      refine .inr ⟨_, rfl, ?_⟩
      simp [Grammar.cast, Grammar.conversion, Grammar.rounded, Grammar.substring, Grammar.overlaid,
        Grammar.extracted, parenthesized, symbol, hsymbol]
  rw [namesTokens_eq, List.cons_append] at htyped ⊢
  exact wholeOperand_of_fallback htyped hkeyword hreserved hform hname hrest.uncollated

end Names

end Schemata.Sql
