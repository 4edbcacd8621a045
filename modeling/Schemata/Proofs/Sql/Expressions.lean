import Schemata.Proofs.Sql.Forms

/-!
# Expressions are read back

Parentheses stay where they were written, so no precedence is needed to write an expression. To read
it back, the written form has to be cut at the same operators again: the right operand of an operator
ends where the next one binds no tighter, and the left one has been read before it. So an expression
is told with two numbers: its own operators bind tighter than the bound, and what follows it binds no
tighter than the limit.

## Main definitions

* `operators`: the operators of a dialect, each with its level
* `Shape`, `Expr.ReadAs`: what an expression is read back as
* `Expr.IsPlain`: expressions that are read back

## Main results

* `readWhole_marked`, `readWhole_not`: operators before an operand
* `read_binary`, `read_quantified`, `read_pattern`, `read_in`, `read_between`, `read_test`,
  `read_cast` and others: what goes on after an operand
* `Expr.IsPlain.exists_readAs`: all of these expressions are read back
-/

namespace Schemata.Sql

open Reader

variable {dialect : Dialect} {rest : List Token} {nesting bound limit : Nat} {e left right : Expr}
  {tokens leftTokens rightTokens : List Token}

/-! ### Operators before an operand -/

theorem readWhole_marked {mark : String} (hmark : mark = "+" ∨ mark = "-")
    (h : e.Read dialect nesting (Level.product.precedence dialect) limit tokens)
    (hlimit : limit ≤ Level.product.precedence dialect)
    (hstart : ∀ c ∈ e.render.toList.head?, isOperatorPart c = false ∧ c ≠ ':') :
    (Expr.marked mark e).ReadWhole dialect (nesting + 1) limit (.symbol mark :: tokens) := by
  have hfacts : mark ∈ prefixSymbols ∧ (Token.symbol mark).leads = false ∧ mark ≠ "(" := by
    rcases hmark with rfl | rfl <;> decide
  obtain ⟨hsign, hleads, hopen⟩ := hfacts
  refine ⟨by simpa [Expr.render] using h.spells.prefixed hsign h.opens.ne_nil hstart,
    .of_cons hleads (.inl ⟨mark, rfl⟩) (.of_head?_ne (by simpa using hopen)),
      fun fuel rest hfuel hrest => ?_⟩
  simp only [List.length_cons] at hfuel
  have hread := h.exprAbove_apply fuel (by omega) hrest hlimit
  have hlevel : Grammar.signLevel? (Grammar.within dialect fuel (nesting + 1)) mark =
      some .product := by
    rcases hmark with rfl | rfl <;> rfl
  have hmarked : (Grammar.within dialect fuel (nesting + 1)).afterSymbol mark (tokens ++ rest) =
      .ok (.marked mark e, rest) := by
    simp [Grammar.afterSymbol, hlevel, Grammar.exprTighter, Grammar.within_dialect, hread]
  rw [List.cons_append, wholeOperand_of_symbol hmarked]
  simp [Grammar.collated, hrest.uncollated]

theorem readWhole_not (h : e.Read dialect nesting (Level.negation.precedence dialect) limit tokens)
    (hlimit : limit ≤ Level.negation.precedence dialect)
    (hstart : ∀ token ∈ tokens.head?, token.names = false ∧ token.isKeyword "EXISTS" = false) :
    (Expr.phrase [.verbatim "NOT", e]).ReadWhole dialect (nesting + 1) limit
      (.word "NOT" none :: tokens) := by
  have hword : Spells dialect "NOT" [.word "NOT" none] :=
    spells_word (isWord_of_isAsciiWord (by decide +kernel))
  have hpoint := h.opens.head?_ne (show "." ∈ closingMarks by decide)
  have hbracket := h.opens.head?_ne (show "[" ∈ closingMarks by decide)
  refine ⟨?_, .of_cons (by decide +kernel) (.inr fun token htoken => ⟨(hstart token htoken).1, ?_⟩)
    (.of_head?_ne (by simp)), fun fuel rest hfuel hrest => ?_⟩
  · simpa [Expr.render, renderAll] using hword.separated separates_blank h.spells h.opens.ne_nil
  · rintro rfl
    exact hpoint [] (by simpa using htoken)
  · simp only [List.length_cons] at hfuel
    have hread := h.exprAbove_apply fuel (by omega) hrest hlimit
    have htyped : (Grammar.within dialect fuel (nesting + 1)).typedText
        (.word "NOT" none :: (tokens ++ rest)) = .error .unexpected :=
      typedText_of_word (by decide +kernel) (hpoint rest) (hbracket rest)
        (h.opens.encloses.append h.opens.ne_nil (hrest.ends.head?_ne (by decide)))
    obtain ⟨first, others, rfl⟩ := List.exists_cons_of_ne_nil h.opens.ne_nil
    -- Before `EXISTS` the word would begin another form.
    have hexists := (hstart first rfl).2
    have hform : ∃ form, (Grammar.within dialect fuel (nesting + 1)).form? "NOT" "NOT"
        (first :: others ++ rest).head? = some form ∧
          form (first :: others ++ rest) = .ok (.phrase [.verbatim "NOT", e], rest) := by
      refine ⟨_, rfl, ?_⟩
      rw [List.cons_append] at hread ⊢
      simp [hexists, Grammar.exprTighter, Grammar.within_dialect, hread]
    obtain ⟨form, hform, hread⟩ := hform
    rw [List.cons_append, wholeOperand_of_form htyped (by decide) hform hread]
    simp [Grammar.collated, hrest.uncollated]

/-! ### What goes on with an expression -/

/-- What goes on with an expression is taken, and what goes on with both of them comes after. -/
theorem continueWithin_step {grammar : Grammar} {whole : Expr} {continuation : Continuation}
    {after : List Token} {more : Nat} {tokens : List Token}
    (hnext : Continuation.ofTokens? grammar.dialect tokens = some (continuation, after))
    (hbound : bound < continuation.level.precedence grammar.dialect)
    (hproceed : grammar.proceed left continuation after = .ok (whole, rest)) :
    grammar.continueWithin bound left (more + 1) tokens =
      grammar.continueWithin bound whole more rest := by
  simp [Grammar.continueWithin, hnext, Nat.not_le.2 hbound, hproceed]

/-- An expression that goes on is read back, if what goes on with it is. -/
theorem Expr.Read.continued {whole : Expr} {leftLimit : Nat} {suffix : List Token}
    (hleft : left.Read dialect nesting bound leftLimit leftTokens) (level : Level)
    (hspells : Spells dialect whole.render (leftTokens ++ suffix))
    (hbound : bound < level.precedence dialect) (hlimit : level.precedence dialect ≤ leftLimit)
    (hends : ∃ token ∈ suffix.head?, token ∈ endTokens ∧ token.joins = false)
    (hproceed : ∀ fuel rest, 2 * suffix.length < fuel → Follows dialect limit rest →
      ∃ continuation after, Continuation.ofTokens? dialect (suffix ++ rest) =
          some (continuation, after) ∧ continuation.level = level ∧
        (Grammar.within dialect fuel nesting).proceed left continuation after = .ok (whole, rest)) :
    whole.Read dialect nesting bound limit (leftTokens ++ suffix) := by
  obtain ⟨token, hhead, hmem, hjoins⟩ := hends
  obtain ⟨others, rfl⟩ : ∃ others, suffix = token :: others := by
    cases suffix <;> simp_all
  refine ⟨hspells, hleft.opens.append (by simpa using hjoins), fun fuel rest hfuel hrest => ?_⟩
  have hpos := List.length_pos_of_ne_nil hleft.opens.ne_nil
  simp only [List.length_append, List.length_cons] at hfuel
  have hsuffix : 2 * (token :: others).length < fuel := by
    simp only [List.length_cons]
    omega
  obtain ⟨continuation, after, hnext, rfl, hread⟩ := hproceed fuel rest hsuffix hrest
  have hstray : continuation ≠ .stray .collation := by
    rintro rfl
    cases hread
  -- The left operand ends where what goes on with it begins, as that binds no tighter.
  have hfollows : Follows dialect leftLimit (token :: others ++ rest) :=
    .of_ofTokens?_eq (.cons hmem _) hnext hstray hlimit
  obtain ⟨more, hmore, hall⟩ := hleft.reads fuel (token :: others ++ rest) (by omega) hfollows
  obtain ⟨more, rfl⟩ : ∃ n, more = n + 1 := Nat.exists_eq_add_one.2 (by omega)
  refine ⟨more, ?_, ?_⟩
  · simp only [List.length_append, List.length_cons] at hmore
    omega
  · rw [List.append_assoc, hall]
    have hdialect : (Grammar.within dialect fuel nesting).dialect = dialect :=
      Grammar.within_dialect fuel nesting
    rw [← hdialect] at hnext hbound
    exact continueWithin_step hnext hbound hread

/-! ### Operators between operands -/

/-- The operators that are words, with their levels. -/
def wordOperators : List (String × Level) :=
  [("AND", .conjunction), ("OR", .disjunction), ("XOR", .exclusion)]

/-- The operators that are symbols, with their levels. Some of them exist in PostgreSQL only, and some
begin a comment or a word in MySQL. -/
def symbolOperators (dialect : Dialect) : List (String × Level) :=
  [("+", Level.sum), ("-", .sum), ("*", .product), ("/", .product), ("%", .product),
      ("||", .concatenation), ("|", .bitOr), ("&", .bitAnd), ("^", .power), ("->", .other),
      ("->>", .other), ("<@", .other)] ++
    ["=", "<>", "<", "<=", ">", ">=", "<=>", "~", "~*", "!~", "!~*", "~~", "~~*", "!~~", "!~~*"].map
      (·, Level.comparison) ++
    (if dialect = .mysql then [] else ["#>", "#>>", "@>", "#-", "@?", "@@"].map (·, Level.other)) ++
    if dialect = .postgresql then ["<<", ">>", "#", "&&", "^@"].map (·, Level.other) else []

/-- The operators between two operands. -/
def operators (dialect : Dialect) : List (String × Level) := wordOperators ++ symbolOperators dialect

/-- The token of an operator. -/
def operatorToken (written : String) : Token :=
  if ["AND", "OR", "XOR"].contains written then .word written none else .symbol written

section Operators

variable {written : String} {level : Level}

theorem operatorToken_mem (h : (written, level) ∈ operators dialect) :
    operatorToken written ∈ endTokens ∧ (operatorToken written).joins = false := by
  have hall : ∀ op ∈ operators dialect, operatorToken op.1 ∈ endTokens ∧
      (operatorToken op.1).joins = false := by
    cases dialect <;> decide +kernel
  exact hall _ h

theorem ofTokens?_operator (h : (written, level) ∈ operators dialect) (rest : List Token) :
    Continuation.ofTokens? dialect (operatorToken written :: rest) =
      some (.operator written level, rest) := by
  rcases List.mem_append.1 h with hword | hsymbol
  · simp only [wordOperators, List.mem_cons, List.not_mem_nil, or_false, Prod.mk.injEq] at hword
    rcases hword with ⟨rfl, rfl⟩ | ⟨rfl, rfl⟩ | ⟨rfl, rfl⟩ <;> rfl
  · have hall : ∀ op ∈ symbolOperators dialect, operatorToken op.1 = .symbol op.1 ∧
        symbolLevel? dialect op.1 = some op.2 ∧ writtenSymbol op.1 = op.1 ∧ op.1 ≠ "[" ∧ op.1 ≠ "!" ∧
          op.2 ≠ .cast := by
      cases dialect <;> decide +kernel
    obtain ⟨htoken, hlevel, hwritten, hbracket, hbang, hcast⟩ := hall _ hsymbol
    simp only at htoken hlevel hwritten hbracket hbang hcast
    simp [htoken, Continuation.ofTokens?, hlevel, hwritten, hbang]

/-- Words between blanks. -/
theorem separates_words {words : List String} (h : ∀ word ∈ words, isWord dialect word) :
    Separates dialect (" " ++ String.intercalate " " words ++ " ") (words.map (Token.word · none)) := by
  have hwords := spells_words h
  refine ⟨fun after => ?_, fun after ts hlexes => ?_, hwords.closed⟩
  · simpa using Delimited.of_mem (show ' ' ∈ delimiters by decide) _
  · have hall := hwords.lexes _ _ (.of_mem (by decide) _) (.blank (.inl rfl) hlexes)
    simpa using Lexes.blank (.inl rfl) hall

/-- An operator between blanks. -/
theorem separates_operator (h : (written, level) ∈ operators dialect) :
    Separates dialect (" " ++ written ++ " ") [operatorToken written] := by
  rcases List.mem_append.1 h with hword | hsymbol
  · have hall : ∀ op ∈ wordOperators, operatorToken op.1 = .word op.1 none ∧ isAsciiWord op.1 := by
      decide +kernel
    obtain ⟨htoken, hascii⟩ := hall _ hword
    have hsingle : ∀ word ∈ [written], isWord dialect word := by
      simpa using isWord_of_isAsciiWord hascii
    simp only at htoken
    simpa [htoken] using separates_words hsingle
  · have hall : ∀ op ∈ symbolOperators dialect, operatorToken op.1 = .symbol op.1 ∧
        op.1 ∈ operatorSymbols ∧ (dialect = .mysql → isMarked op.1 = false) := by
      cases dialect <;> decide +kernel
    obtain ⟨htoken, hmem, hmarked⟩ := hall _ hsymbol
    simp only at htoken
    simpa [htoken] using separates_symbol hmem hmarked

theorem Expr.render_binary (left : Expr) (written : String) (right : Expr) :
    (binary left written right).render = left.render ++ (" " ++ written ++ " ") ++ right.render := by
  simp [binary, render, renderAll, String.intercalate_cons_cons, String.append_assoc]

/-- Two operands with an operator between them. The right one binds tighter than the operator, and so
does what goes on with the left one; what follows may then not bind tighter either. -/
theorem read_binary (hop : (written, level) ∈ operators dialect)
    (hbound : bound < level.precedence dialect) (hlimit : limit ≤ level.precedence dialect)
    (hleft : left.Read dialect (nesting + 1) bound (level.precedence dialect) leftTokens)
    (hright : right.Read dialect nesting (level.precedence dialect) limit rightTokens) :
    (Expr.binary left written right).Read dialect (nesting + 1) bound limit
      (leftTokens ++ operatorToken written :: rightTokens) := by
  apply hleft.continued level _ hbound (Nat.le_refl _) ⟨_, rfl, operatorToken_mem hop⟩
  · intro fuel rest hfuel hrest
    simp only [List.length_cons] at hfuel
    have hread := hright.exprAbove_apply fuel (by omega) hrest hlimit
    have hnotDiv : ∀ op ∈ operators dialect, op.1 ≠ "DIV" := by
      cases dialect <;> decide
    refine ⟨.operator written level, rightTokens ++ rest, ofTokens?_operator hop _, rfl, ?_⟩
    simp [Grammar.proceed, Grammar.secondOperand, hnotDiv _ hop, hright.opens.hasOneOf_apply,
      Grammar.exprTighter, Grammar.within_dialect, hread]
  · rw [Expr.render_binary]
    simpa using hleft.spells.separated (separates_operator hop) hright.spells hright.opens.ne_nil

/-- A whole division, which takes all that follows it. Only MySQL has it. -/
theorem read_division (hdialect : dialect = .mysql) (hbound : bound < Level.product.precedence dialect)
    (hleft : left.Read dialect (nesting + 1) bound (Level.product.precedence dialect) leftTokens)
    (hright : right.Read dialect nesting 0 0 rightTokens) :
    (Expr.binary left "DIV" right).Read dialect (nesting + 1) bound 0
      (leftTokens ++ .word "DIV" none :: rightTokens) := by
  have hnext : ∀ tokens, Continuation.ofTokens? dialect (.word "DIV" none :: tokens) =
      some (.operator "DIV" .product, tokens) := by
    subst hdialect
    exact fun _ => rfl
  apply hleft.continued .product _ hbound (Nat.le_refl _) ⟨_, rfl, by decide +kernel⟩
  · intro fuel rest hfuel hrest
    simp only [List.length_cons] at hfuel
    have hread := hright.expr_apply fuel (by omega) hrest
    refine ⟨.operator "DIV" .product, rightTokens ++ rest, hnext _, rfl, ?_⟩
    simp [Grammar.proceed, Grammar.secondOperand, hread]
  · have hword : ∀ word ∈ ["DIV"], isWord dialect word := by
      simpa using isWord_of_isAsciiWord (by decide +kernel)
    rw [Expr.render_binary]
    simpa using hleft.spells.separated (separates_words hword) hright.spells hright.opens.ne_nil

/-- The words for how many values have to satisfy a comparison. -/
def quantifiers : List String := ["ANY", "ALL", "SOME"]

/-- An operand and the values that it is compared with. -/
theorem read_quantified {quantifier : String} (hop : written ∈ comparisons)
    (hquantifier : quantifier ∈ quantifiers)
    (hbound : bound < Level.comparison.precedence dialect)
    (hleft : left.Read dialect (nesting + 1) bound (Level.comparison.precedence dialect) leftTokens)
    (hright : right.Read dialect nesting (Level.comparison.precedence dialect) 0 rightTokens)
    (hquery : ∀ query, right ≠ .subquery query) :
    (Expr.binary left written (.known quantifier [right])).Read dialect (nesting + 1) bound limit
      (leftTokens ++ operatorToken written :: .word quantifier none :: .symbol "(" ::
        (rightTokens ++ [.symbol ")"])) := by
  have hmem : ∀ written ∈ comparisons, (written, Level.comparison) ∈ operators dialect ∧
      written ≠ "DIV" := by
    cases dialect <;> decide
  obtain ⟨hop', hnotDiv⟩ := hmem written hop
  have hwords : ∀ word ∈ quantifiers, isAsciiWord word ∧
      quantifiers.find? (Token.word word none).isKeyword = some word := by
    decide +kernel
  obtain ⟨hascii, hfind⟩ := hwords quantifier hquantifier
  apply hleft.continued .comparison _ hbound (Nat.le_refl _) ⟨_, rfl, operatorToken_mem hop'⟩
  · intro fuel rest hfuel hrest
    simp only [List.length_cons, List.length_append, List.length_nil] at hfuel
    have hread := hright.exprAbove_apply fuel (by omega) (@follows_mark dialect rest ")" (by simp) 0)
      (Nat.zero_le _)
    -- A query in the parentheses would be read with them, as the beginning of an operand.
    have hnext := hright.opens.nextIsQuery_apply (.symbol ")" :: rest)
    refine ⟨.operator written .comparison, _, ofTokens?_operator hop' _, rfl, ?_⟩
    have hrange : (Grammar.within dialect fuel (nesting + 1)).quantified quantifier .comparison
        (.symbol "(" :: (rightTokens ++ .symbol ")" :: rest)) =
          .ok (.known quantifier [right], rest) := by
      simp only [Grammar.quantified, bind_apply, symbol_apply, hnext, Bool.false_eq_true, if_false,
        choose_apply, Grammar.exprTighter, Grammar.within_dialect, hread, pure_apply]
    have hone : hasOneOf ["ANY", "ALL", "SOME"] (.word quantifier none :: .symbol "(" ::
        (rightTokens ++ .symbol ")" :: rest)) =
          .ok (some quantifier, .symbol "(" :: (rightTokens ++ .symbol ")" :: rest)) := by
      unfold quantifiers at hfind
      simp only [hasOneOf, bind_apply, get_apply, hfind, set_apply, pure_apply]
    simp [Grammar.proceed, Grammar.secondOperand, hnotDiv, hone, hrange, hop]
  · have hname : Spells dialect quantifier [.word quantifier none] :=
      spells_word (isWord_of_isAsciiWord hascii)
    have hrange := hname.append hright.spells.parenthesized (delimited_parenthesized _)
    have htext : (Expr.known quantifier [right]).render =
        quantifier ++ ("(" ++ right.render ++ ")") := by
      simp [render_known, renderAll]
    rw [Expr.render_binary, htext]
    simpa using hleft.spells.separated (separates_operator hop') hrange (by simp)

end Operators

/-! ### Words between operands -/

/-- The word for a negation, if there is one, and other words. -/
def negatedWords (negated : Bool) (words : List String) : List String :=
  if negated then "NOT" :: words else words

/-- The written form of these words. -/
def negatedText (negated : Bool) (text : String) : String :=
  (if negated then "NOT " else "") ++ text

theorem intercalate_negatedWords (negated : Bool) {words : List String} (hne : words ≠ []) :
    String.intercalate " " (negatedWords negated words) =
      negatedText negated (String.intercalate " " words) := by
  obtain ⟨word, others, rfl⟩ := List.exists_cons_of_ne_nil hne
  cases negated <;> simp [negatedWords, negatedText, String.intercalate_cons_cons]

section Negatable

variable {word : String} {words : List String} (negated : Bool)

/-- The tokens of these words. -/
def negatedTokens (words : List String) : List Token :=
  (negatedWords negated words).map fun word => .word word none

/-- What can be negated between operands, in words. -/
def negatableWords : List (List String) :=
  [["IN"], ["BETWEEN"], ["LIKE"], ["ILIKE"], ["RLIKE"], ["REGEXP"], ["SIMILAR", "TO"]]

theorem separates_negated (hwords : words ∈ negatableWords) :
    Separates dialect (" " ++ negatedText negated (String.intercalate " " words) ++ " ")
      (negatedTokens negated words) := by
  have hall : ∀ words ∈ negatableWords, words ≠ [] ∧
      ∀ word ∈ negatedWords negated words, isAsciiWord word := by
    cases negated <;> decide +kernel
  obtain ⟨hne, hascii⟩ := hall words hwords
  rw [← intercalate_negatedWords negated hne]
  exact separates_words fun word hword => isWord_of_isAsciiWord (hascii word hword)

theorem head?_negatedTokens (hwords : words ∈ negatableWords) (tokens : List Token) :
    ∃ token ∈ (negatedTokens negated words ++ tokens).head?, token ∈ endTokens ∧
      token.joins = false := by
  have hall : ∀ words ∈ negatableWords, negatedTokens negated words ≠ [] ∧
      ∀ token ∈ (negatedTokens negated words).head?, token ∈ endTokens ∧ token.joins = false := by
    cases negated <;> decide +kernel
  obtain ⟨hne, hhead⟩ := hall words hwords
  obtain ⟨first, others, heq⟩ := List.exists_cons_of_ne_nil hne
  exact ⟨first, by simp [heq], hhead first (by simp [heq])⟩

/-- The words are taken for what goes on with an expression, up to those that belong to it. -/
theorem ofTokens?_negated (hwords : word :: words ∈ negatableWords) (rest : List Token) :
    Continuation.ofTokens? dialect (negatedTokens negated (word :: words) ++ rest) =
      (Continuation.ofKeyword? negated word).map fun continuation =>
        (continuation, words.map (Token.word · none) ++ rest) := by
  simp only [negatableWords, List.mem_cons, List.not_mem_nil, or_false, List.cons.injEq] at hwords
  rcases hwords with ⟨rfl, rfl⟩ | ⟨rfl, rfl⟩ | ⟨rfl, rfl⟩ | ⟨rfl, rfl⟩ | ⟨rfl, rfl⟩ | ⟨rfl, rfl⟩ |
    ⟨rfl, rfl⟩ <;> cases negated <;> rfl

/-! ### Patterns -/

/-- The words before a pattern. -/
def patternWords : List (List String) :=
  [["LIKE"], ["ILIKE"], ["RLIKE"], ["REGEXP"], ["SIMILAR", "TO"]]

/-- The words before a pattern that may have an escape character. -/
def escapableWords : List (List String) := [["LIKE"], ["ILIKE"], ["SIMILAR", "TO"]]

theorem negatable_of_pattern (h : words ∈ patternWords) : words ∈ negatableWords := by
  have hall : ∀ words ∈ patternWords, words ∈ negatableWords := by decide
  exact hall words h

/-- The first of the words announces a pattern. -/
theorem exists_pattern (h : words ∈ patternWords) (tokens : List Token) : ∃ word others,
    words = word :: others ∧ Continuation.ofTokens? dialect (negatedTokens negated words ++ tokens) =
      some (.pattern negated word, others.map (Token.word · none) ++ tokens) := by
  have hnegatable := negatable_of_pattern h
  obtain ⟨word, others, rfl⟩ : ∃ word others, words = word :: others := by
    have hall : ∀ words ∈ patternWords, words ≠ [] := by decide
    exact List.exists_cons_of_ne_nil (hall words h)
  refine ⟨word, others, rfl, ?_⟩
  rw [ofTokens?_negated negated hnegatable]
  simp only [patternWords, List.mem_cons, List.not_mem_nil, or_false, List.cons.injEq] at h
  rcases h with ⟨rfl, rfl⟩ | ⟨rfl, rfl⟩ | ⟨rfl, rfl⟩ | ⟨rfl, rfl⟩ | ⟨rfl, rfl⟩ <;> rfl

/-- An operand and a pattern for it. -/
theorem read_pattern (hwords : words ∈ patternWords)
    (hbound : bound < Level.pattern.precedence dialect)
    (hlimit : limit ≤ Level.pattern.precedence dialect)
    (hleft : left.Read dialect (nesting + 1) bound (Level.pattern.precedence dialect) leftTokens)
    (hright : right.Read dialect nesting (Level.pattern.precedence dialect) limit rightTokens)
    (hstart : words = ["REGEXP"] → announce ["RLIKE"] rightTokens = false) :
    (Expr.binary left (negatedText negated (String.intercalate " " words)) right).Read dialect
      (nesting + 1) bound limit (leftTokens ++ (negatedTokens negated words ++ rightTokens)) := by
  have hnegatable := negatable_of_pattern hwords
  apply hleft.continued .pattern _ hbound (Nat.le_refl _) (head?_negatedTokens negated hnegatable _)
  · intro fuel rest hfuel hrest
    obtain ⟨word, others, rfl, hnext⟩ := @exists_pattern dialect _ negated hwords (rightTokens ++ rest)
    simp only [List.length_append, negatedTokens, List.length_map] at hfuel
    have hpos : 0 < (negatedWords negated (word :: others)).length := by
      cases negated <;> simp [negatedWords]
    have hread := hright.exprAbove_apply fuel (by omega) hrest hlimit
    have hany := hright.opens.announce_eq (show "ANY" ∈ openingWords by decide) [] rest
    have hescape := hrest.unescaped hlimit
    -- After `REGEXP` this word would be skipped.
    have hrlike : word = "REGEXP" → announce ["RLIKE"] (rightTokens ++ rest) = false := by
      rintro rfl
      obtain ⟨first, more, rfl⟩ := List.exists_cons_of_ne_nil hright.opens.ne_nil
      have hothers : others = [] := by
        simp only [patternWords, List.mem_cons, List.not_mem_nil, or_false, List.cons.injEq] at hwords
        simpa using hwords
      simpa [announce_cons_cons] using hstart (by rw [hothers])
    refine ⟨.pattern negated word, others.map (Token.word · none) ++ (rightTokens ++ rest),
      by rw [List.append_assoc, hnext], rfl, ?_⟩
    simp only [patternWords, List.mem_cons, List.not_mem_nil, or_false, List.cons.injEq] at hwords
    rcases hwords with ⟨rfl, rfl⟩ | ⟨rfl, rfl⟩ | ⟨rfl, rfl⟩ | ⟨rfl, rfl⟩ | ⟨rfl, rfl⟩ <;>
      simp +decide [Grammar.proceed, Grammar.pattern, provided, hany, Grammar.exprTighter,
        Grammar.within_dialect, hread, hescape, negatedText, hrlike, keyword, keywords,
        String.intercalate_cons_cons]
  · rw [Expr.render_binary]
    simpa using hleft.spells.separated (separates_negated negated hnegatable) hright.spells
      hright.opens.ne_nil

/-- The word before an escape character does not go on with the pattern. -/
theorem ofTokens?_escape (rest : List Token) :
    Continuation.ofTokens? dialect (.word "ESCAPE" none :: rest) = none :=
  rfl

/-- An escape character ends the pattern before it, if that binds tighter than patterns do. -/
theorem follows_escape (tokens : List Token) : Follows dialect (Level.pattern.precedence dialect + 1)
    (.word "ESCAPE" none :: tokens) :=
  ⟨.cons (by decide) _, by simp [ofTokens?_escape], by simp +decide, fun hle => by omega⟩

/-- The text of an escape character after its word. -/
theorem spells_escape {text : String} (htext : IsPlainString dialect text '\'')
    (hquoted : quoted '\'' text = "'" ++ text ++ "'") :
    Spells dialect ("ESCAPE '" ++ text ++ "'") [.word "ESCAPE" none, .string text '\''] := by
  have hword : Spells dialect "ESCAPE" [.word "ESCAPE" none] :=
    spells_word (isWord_of_isAsciiWord (by decide +kernel))
  have hstring := spells_string htext
  rw [hquoted] at hstring
  have htokens := hword.separated separates_blank hstring (by simp)
  have hrender : "ESCAPE '" ++ text ++ "'" = "ESCAPE" ++ " " ++ ("'" ++ text ++ "'") := by
    simp [← String.toList_inj]
  rw [hrender]
  simpa using htokens

/-- A pattern with an escape character. The character ends the pattern, so nothing else does. -/
theorem read_escaped {text : String} (hwords : words ∈ escapableWords)
    (hbound : bound < Level.pattern.precedence dialect)
    (hleft : left.Read dialect (nesting + 1) bound (Level.pattern.precedence dialect) leftTokens)
    (hright : right.Read dialect nesting (Level.pattern.precedence dialect)
      (Level.pattern.precedence dialect + 1) rightTokens)
    (htext : IsPlainString dialect text '\'')
    (hquoted : quoted '\'' text = "'" ++ text ++ "'") :
    (Expr.followed (.binary left (negatedText negated (String.intercalate " " words)) right)
        (" ESCAPE '" ++ text ++ "'")).Read dialect (nesting + 1) bound limit
      (leftTokens ++ (negatedTokens negated words ++
        (rightTokens ++ [.word "ESCAPE" none, .string text '\'']))) := by
  have hpattern : ∀ words ∈ escapableWords, words ∈ patternWords := by decide
  have hnegatable := negatable_of_pattern (hpattern words hwords)
  apply hleft.continued .pattern _ hbound (Nat.le_refl _) (head?_negatedTokens negated hnegatable _)
  · intro fuel rest hfuel hrest
    obtain ⟨word, others, rfl, hnext⟩ := @exists_pattern dialect _ negated (hpattern words hwords)
      (rightTokens ++ .word "ESCAPE" none :: .string text '\'' :: rest)
    simp only [List.length_append, List.length_cons] at hfuel
    have hread := hright.exprAbove_of_loose fuel (by omega)
      (follows_escape (.string text '\'' :: rest)) (by simp [ofTokens?_escape])
    have hany := hright.opens.announce_eq (show "ANY" ∈ openingWords by decide) []
      (.word "ESCAPE" none :: .string text '\'' :: rest)
    have htake : Reader.text (.string text '\'' :: rest) = .ok (text, rest) := rfl
    refine ⟨.pattern negated word, others.map (Token.word · none) ++
      (rightTokens ++ .word "ESCAPE" none :: .string text '\'' :: rest), by simpa using hnext, rfl, ?_⟩
    simp only [escapableWords, List.mem_cons, List.not_mem_nil, or_false, List.cons.injEq] at hwords
    rcases hwords with ⟨rfl, rfl⟩ | ⟨rfl, rfl⟩ | ⟨rfl, rfl⟩ <;>
      simp +decide [Grammar.proceed, Grammar.pattern, provided, hany, Grammar.exprTighter,
        Grammar.within_dialect, hread, htake, negatedText, keyword, keywords,
        String.intercalate_cons_cons]
  · have hall := hleft.spells.separated (separates_negated negated hnegatable)
      (hright.spells.separated separates_blank (spells_escape htext hquoted) (by simp)) (by simp)
    have hrender : (Expr.followed
        (.binary left (negatedText negated (String.intercalate " " words)) right)
          (" ESCAPE '" ++ text ++ "'")).render = left.render ++
          (" " ++ negatedText negated (String.intercalate " " words) ++ " ") ++
            (right.render ++ " " ++ ("ESCAPE '" ++ text ++ "'")) := by
      rw [Expr.render, Expr.render_binary]
      simp [← String.toList_inj]
    rw [hrender]
    simpa using hall

/-! ### Lists and ranges -/

/-- An operand and the list that it is looked for in. Only in SQLite the list may be empty. -/
theorem read_in {elements : List Expr} {elementTokens : Expr → List Token}
    (hbound : bound < Level.range.precedence dialect)
    (hleft : left.Read dialect (nesting + 1) bound (Level.range.precedence dialect) leftTokens)
    (helements : ∀ e ∈ elements, e.Read dialect nesting 0 0 (elementTokens e))
    (hne : elements ≠ [] ∨ dialect = .sqlite) :
    (Expr.binary left (negatedText negated "IN") (.group elements)).Read dialect
      (nesting + 1) bound limit
      (leftTokens ++ (negatedTokens negated ["IN"] ++ .symbol "(" ::
        ([.symbol ","].intercalate (elements.map elementTokens) ++ [.symbol ")"]))) := by
  have hin : ["IN"] ∈ negatableWords := by decide
  apply hleft.continued .range _ hbound (Nat.le_refl _) (head?_negatedTokens negated hin _)
  · intro fuel rest hfuel hrest
    simp only [List.length_append, List.length_cons] at hfuel
    refine ⟨.inList negated, .symbol "(" :: ([.symbol ","].intercalate (elements.map elementTokens) ++
      .symbol ")" :: rest), ?_, rfl, ?_⟩
    · rw [List.append_assoc, ofTokens?_negated negated hin]
      simp [Continuation.ofKeyword?]
    · have hcollection : (Grammar.within dialect fuel (nesting + 1)).collection (.symbol "(" ::
          ([.symbol ","].intercalate (elements.map elementTokens) ++ .symbol ")" :: rest)) =
            .ok (.group elements, rest) := by
        -- Where nothing is listed, only SQLite does not ask for an expression.
        by_cases hempty : elements = []
        · have hsqlite := hne.resolve_left (absurd hempty)
          simp [hempty, hsqlite, Grammar.collection, Grammar.nextIsQuery, nextIsKeyword, nextIsSymbol,
            Grammar.within_dialect]
        · have hexprs := @exprs_apply dialect _ _ _ ")" (by simp) fuel rest hempty helements (by omega)
          have hopens := opens_elements hempty fun e he => (helements e he).opens
          have hclose := hopens.nextIsSymbol_apply (show ")" ∈ closingMarks by decide)
            (.symbol ")" :: rest)
          have hquery := hopens.nextIsQuery_apply (.symbol ")" :: rest)
          simp [Grammar.collection, hquery, hclose, hexprs]
      simp [Grammar.proceed, hcollection, negatedText]
  · rw [Expr.render_binary]
    have hgroup := (spells_elements helements).parenthesized
    have hseparates := @separates_negated dialect _ negated hin
    simp only [String.intercalate_singleton] at hseparates
    simpa [Expr.render] using hleft.spells.separated hseparates hgroup (by simp)

/-- An operand and the query that it is looked for in. -/
theorem read_inQuery {query : Expr} {queryTokens : List Token}
    (hbound : bound < Level.range.precedence dialect)
    (hleft : left.Read dialect (nesting + 1) bound (Level.range.precedence dialect) leftTokens)
    (hquery : query.ReadQuery dialect nesting queryTokens) :
    (Expr.binary left (negatedText negated "IN") (.group [query])).Read dialect
      (nesting + 1) bound limit
      (leftTokens ++ (negatedTokens negated ["IN"] ++ .symbol "(" ::
        (queryTokens ++ [.symbol ")"]))) := by
  have hin : ["IN"] ∈ negatableWords := by decide
  apply hleft.continued .range _ hbound (Nat.le_refl _) (head?_negatedTokens negated hin _)
  · intro fuel rest hfuel hrest
    simp only [List.length_append, List.length_cons] at hfuel
    refine ⟨.inList negated, .symbol "(" :: (queryTokens ++ .symbol ")" :: rest), ?_, rfl, ?_⟩
    · rw [List.append_assoc, ofTokens?_negated negated hin]
      simp [Continuation.ofKeyword?]
    · have hnext := hquery.nextIsQuery_apply (.symbol ")" :: rest)
      have hread := hquery.query_apply (show 2 * queryTokens.length + 2 < fuel by omega) rest
      simp [Grammar.proceed, Grammar.collection, nextIsSymbol, hnext, hread, negatedText]
  · rw [Expr.render_binary]
    have hgroup := hquery.spells.parenthesized
    have hseparates := @separates_negated dialect _ negated hin
    simp only [String.intercalate_singleton] at hseparates
    simpa [Expr.render, renderAll] using hleft.spells.separated hseparates hgroup (by simp)

/-- An operand and the bounds that it lies between. -/
theorem read_between {low high : Expr} {lowTokens highTokens : List Token}
    (hbound : bound < Level.range.precedence dialect)
    (hlimit : limit ≤ Level.range.precedence dialect)
    (hleft : left.Read dialect (nesting + 1) bound (Level.range.precedence dialect) leftTokens)
    (hlow : low.Read dialect nesting (Level.range.precedence dialect)
      (Level.conjunction.precedence dialect) lowTokens)
    (hhigh : high.Read dialect nesting (Level.range.precedence dialect) limit highTokens) :
    (Expr.phrase [left, .verbatim (negatedText negated "BETWEEN"), low, .verbatim "AND", high]).Read
      dialect (nesting + 1) bound limit
      (leftTokens ++ (negatedTokens negated ["BETWEEN"] ++
        (lowTokens ++ .word "AND" none :: highTokens))) := by
  have hbetween : ["BETWEEN"] ∈ negatableWords := by decide
  have hand : ("AND", Level.conjunction) ∈ operators dialect := by cases dialect <;> decide
  apply hleft.continued .range _ hbound (Nat.le_refl _) (head?_negatedTokens negated hbetween _)
  · intro fuel rest hfuel hrest
    simp only [List.length_append, List.length_cons] at hfuel
    -- The conjunction binds less than the bounds, so the lower one ends there.
    have hfollows : Follows dialect (Level.conjunction.precedence dialect)
        (.word "AND" none :: (highTokens ++ rest)) :=
      .of_ofTokens?_eq (.cons (by decide) _) (ofTokens?_operator hand _) (by simp) (Nat.le_refl _)
    have hle : Level.conjunction.precedence dialect ≤ Level.range.precedence dialect := by
      cases dialect <;> decide
    have hreadLow := hlow.exprAbove_apply fuel (by omega) hfollows hle
    have hreadHigh := hhigh.exprAbove_apply fuel (by omega) hrest hlimit
    refine ⟨.between negated, lowTokens ++ .word "AND" none :: (highTokens ++ rest), ?_, rfl, ?_⟩
    · rw [List.append_assoc, ofTokens?_negated negated hbetween]
      simp [Continuation.ofKeyword?]
    · simp +decide [Grammar.proceed, Grammar.exprTighter, Grammar.within_dialect, hreadLow, hreadHigh,
        keyword, keywords, negatedText]
  · have htext : (Expr.phrase [left, .verbatim (negatedText negated "BETWEEN"), low, .verbatim "AND",
        high]).render = left.render ++ (" " ++ negatedText negated "BETWEEN" ++ " ") ++
          (low.render ++ (" " ++ "AND" ++ " ") ++ high.render) := by
      simp [Expr.render, renderAll, String.intercalate_cons_cons, ← String.toList_inj]
    rw [htext]
    have hbounds := hlow.spells.separated (separates_operator hand) hhigh.spells hhigh.opens.ne_nil
    have hseparates := @separates_negated dialect _ negated hbetween
    simp only [String.intercalate_singleton] at hseparates
    simpa [operatorToken] using hleft.spells.separated hseparates hbounds (by simp)

/-! ### Tests -/

/-- The values that can be tested for. -/
def testValues : List String := ["NULL", "TRUE", "FALSE", "UNKNOWN"]

/-- A test for a value. -/
theorem read_test {value : String} (hvalue : value ∈ testValues)
    (hbound : bound < Level.test.precedence dialect)
    (hleft : left.Read dialect nesting bound (Level.test.precedence dialect) leftTokens) :
    (Expr.followed left (" IS " ++ negatedText negated value)).Read dialect nesting bound limit
      (leftTokens ++ .word "IS" none :: negatedTokens negated [value]) := by
  apply hleft.continued .test _ hbound (Nat.le_refl _) ⟨_, rfl, by decide +kernel⟩
  · intro fuel rest _ hrest
    refine ⟨.test, negatedTokens negated [value] ++ rest, rfl, rfl, ?_⟩
    simp only [testValues, List.mem_cons, List.not_mem_nil, or_false] at hvalue
    rcases hvalue with rfl | rfl | rfl | rfl <;> cases negated <;>
      simp +decide [Grammar.proceed, Grammar.test, negatedTokens, negatedWords, negatedText, hasOneOf]
  · have hwords : ∀ value ∈ testValues, ∀ word ∈ "IS" :: negatedWords negated [value],
        isAsciiWord word := by
      cases negated <;> decide +kernel
    have htext : " IS " ++ negatedText negated value =
        trailing ("IS" :: negatedWords negated [value]) := by
      cases negated <;> simp [trailing, negatedText, negatedWords, ← String.toList_inj]
    simp only [Expr.render, htext]
    have htest : ∀ word ∈ "IS" :: negatedWords negated [value], isWord dialect word :=
      fun word hword => isWord_of_isAsciiWord (hwords value hvalue word hword)
    exact hleft.spells.append (spells_trailing htest) (delimited_trailing _)

/-- A test for being distinct, which takes all that follows it. -/
theorem read_distinct (hbound : bound < Level.test.precedence dialect)
    (hleft : left.Read dialect (nesting + 1) bound (Level.test.precedence dialect) leftTokens)
    (hright : right.Read dialect nesting 0 0 rightTokens) :
    (Expr.binary left ("IS " ++ negatedText negated "DISTINCT FROM") right).Read dialect (nesting + 1)
      bound 0 (leftTokens ++ .word "IS" none ::
        (negatedTokens negated ["DISTINCT", "FROM"] ++ rightTokens)) := by
  apply hleft.continued .test _ hbound (Nat.le_refl _) ⟨_, rfl, by decide +kernel⟩
  · intro fuel rest hfuel hrest
    simp only [List.length_append, List.length_cons] at hfuel
    have hread := hright.expr_apply fuel (by omega) hrest
    refine ⟨.test, negatedTokens negated ["DISTINCT", "FROM"] ++ (rightTokens ++ rest),
      by simp; rfl, rfl, ?_⟩
    cases negated <;>
      simp +decide [Grammar.proceed, Grammar.test, negatedTokens, negatedWords, negatedText, hasOneOf,
        keywords, hread]
  · have hwords : ∀ word ∈ "IS" :: negatedWords negated ["DISTINCT", "FROM"], isAsciiWord word := by
      cases negated <;> decide +kernel
    have htext : "IS " ++ negatedText negated "DISTINCT FROM" =
        String.intercalate " " ("IS" :: negatedWords negated ["DISTINCT", "FROM"]) := by
      cases negated <;> simp [negatedText, negatedWords, String.intercalate_cons_cons]
    have hseparates : Separates dialect (" " ++ ("IS " ++ negatedText negated "DISTINCT FROM") ++ " ")
        (.word "IS" none :: negatedTokens negated ["DISTINCT", "FROM"]) := by
      rw [htext]
      exact separates_words fun word hword => isWord_of_isAsciiWord (hwords word hword)
    rw [Expr.render_binary]
    simpa using hleft.spells.separated hseparates hright.spells hright.opens.ne_nil

end Negatable

/-! ### Types and time zones after an operand -/

/-- An operand and the type that it is made. -/
theorem read_cast {type : DataType} {typeTokens : List Token}
    (hbound : bound < Level.cast.precedence dialect)
    (hleft : left.Read dialect nesting bound (Level.cast.precedence dialect) leftTokens)
    (htype : type.ReadFrom dialect typeTokens)
    (hstart : ∀ c ∈ type.render.toList.head?, isOperatorPart c = false ∧ c ≠ ':') :
    (Expr.followed left ("::" ++ type.render)).Read dialect nesting bound limit
      (leftTokens ++ .symbol "::" :: typeTokens) := by
  have hcast : ∀ tokens, Continuation.ofTokens? dialect (.symbol "::" :: tokens) =
      some (.cast, tokens) := by
    cases dialect <;> exact fun _ => rfl
  apply hleft.continued .cast _ hbound (Nat.le_refl _) ⟨_, rfl, by decide +kernel⟩
  · intro fuel rest _ hrest
    refine ⟨.cast, typeTokens ++ rest, hcast _, rfl, ?_⟩
    simp [Grammar.proceed, Grammar.within_dialect, htype.dataType_of_ends hrest.ends]
  · have hsuffix := htype.spells.prefixed (show "::" ∈ prefixSymbols by decide) htype.ne_nil hstart
    simp only [Expr.render]
    refine hleft.spells.append hsuffix ?_
    simpa using Delimited.of_mem (show ':' ∈ delimiters by decide) _

theorem ofTokens?_zone (rest : List Token) :
    Continuation.ofTokens? dialect (.word "AT" none :: .word "TIME" none :: .word "ZONE" none :: rest) =
      some (.zone, rest) := by
  have hat : (Token.word "AT" none).keyword? = some "AT" := by decide +kernel
  simp +decide [Continuation.ofTokens?, hat]

/-- An operand in another time zone. -/
theorem read_zone (hbound : bound < Level.zone.precedence dialect)
    (hlimit : limit ≤ Level.zone.precedence dialect)
    (hleft : left.Read dialect (nesting + 1) bound (Level.zone.precedence dialect) leftTokens)
    (hright : right.Read dialect nesting (Level.zone.precedence dialect) limit rightTokens) :
    (Expr.binary left "AT TIME ZONE" right).Read dialect (nesting + 1) bound limit
      (leftTokens ++ (["AT", "TIME", "ZONE"].map (Token.word · none) ++ rightTokens)) := by
  apply hleft.continued .zone _ hbound (Nat.le_refl _) ⟨_, rfl, by decide +kernel⟩
  · intro fuel rest hfuel hrest
    simp only [List.length_append, List.length_map, List.length_cons] at hfuel
    have hread := hright.exprAbove_apply fuel (by omega) hrest hlimit
    refine ⟨.zone, rightTokens ++ rest, by simp [ofTokens?_zone], rfl, ?_⟩
    simp [Grammar.proceed, Grammar.exprTighter, Grammar.within_dialect, hread]
  · have hwords : ∀ word ∈ ["AT", "TIME", "ZONE"], isAsciiWord word := by decide +kernel
    have hseparates := @separates_words dialect _ fun word hword =>
      isWord_of_isAsciiWord (hwords word hword)
    have htext : String.intercalate " " ["AT", "TIME", "ZONE"] = "AT TIME ZONE" := by
      simp [String.intercalate_cons_cons]
    rw [htext] at hseparates
    rw [Expr.render_binary]
    simpa using hleft.spells.separated hseparates hright.spells hright.opens.ne_nil

/-! ### Expressions that are read back -/

/-- The token that the written form of an expression begins with. -/
def Expr.firstToken? (dialect : Dialect) (e : Expr) : Option Token :=
  (Token.ofText? dialect e.render).bind List.head?

theorem Expr.firstToken?_eq (h : Spells dialect e.render tokens) :
    e.firstToken? dialect = tokens.head? := by
  simp [firstToken?, h.ofText?_eq]

/-- What an expression is read back as. -/
inductive Shape
  /-- An operand that may have a collation. -/
  | atom
  /-- An expression whose operators bind tighter than the bound. What follows it may go on with
  something in it, unless it binds no tighter than the limit. -/
  | expression (bound limit : Nat)

/-- An expression is read back as what it is. -/
def Expr.ReadAs (dialect : Dialect) (shape : Shape) (nesting : Nat) (e : Expr) (tokens : List Token) :
    Prop :=
  match shape with
  | .atom => e.ReadAtom dialect nesting tokens
  | .expression bound limit => e.Read dialect nesting bound limit tokens

/-- The expressions that are read back, at most so deep inside each other. -/
inductive Expr.IsPlain (dialect : Dialect) : Shape → (nesting : Nat) → Expr → Prop
  /-- An operand without a collation. -/
  | atom {nesting bound limit : Nat} {e : Expr} (he : IsPlain dialect .atom nesting e) :
      IsPlain dialect (.expression bound limit) nesting e
  /-- An operand with its collation. -/
  | collated {nesting bound limit : Nat} {e : Expr} {path : List Name}
      (he : IsPlain dialect .atom nesting e) (hne : path ≠ [])
      (hpath : ∀ name ∈ path, name.IsPlain dialect) :
      IsPlain dialect (.expression bound limit) nesting (.followed e (" COLLATE " ++ renderPath path))
  /-- A number. -/
  | numeral {nesting : Nat} {text : String} (htext : isNumeral text) :
      IsPlain dialect .atom nesting (.verbatim text)
  /-- Another literal that is kept as it is written. -/
  | literal {nesting : Nat} {text : String} {token : Token} (hspells : Spells dialect text [token])
      (htoken : token.literal? = some text) : IsPlain dialect .atom nesting (.verbatim text)
  /-- A string. -/
  | string {nesting : Nat} {text : String} {quote : Char} (htext : IsPlainString dialect text quote) :
      IsPlain dialect .atom nesting (.string text quote)
  /-- A word with a value of its own. -/
  | constant {nesting : Nat} {text : String} (htext : IsConstant dialect text) :
      IsPlain dialect .atom nesting (.verbatim text)
  /-- A name, perhaps with others that qualify it. -/
  | name {nesting : Nat} {first : Name} {others : List Name} (hfirst : first.IsFree dialect)
      (hothers : ∀ name ∈ others, name.IsPlain dialect) :
      IsPlain dialect .atom nesting (.name (first :: others))
  /-- A name that begins a form where a parenthesis follows it. -/
  | functionName {nesting bound limit : Nat} {first : Name} {others : List Name}
      (hfirst : first.IsPlain dialect)
      (hword : ∃ word ∈ functionWords, first.token.keyword? = some word)
      (hothers : ∀ name ∈ others, name.IsPlain dialect) :
      IsPlain dialect (.expression bound limit) nesting (.name (first :: others))
  /-- A call of a function. -/
  | call {nesting : Nat} {first : Name} {others : List Name} {elements : List Expr}
      (hfirst : first.IsFree dialect) (hothers : ∀ name ∈ others, name.IsPlain dialect)
      (helements : ∀ e ∈ elements, IsPlain dialect (.expression 0 0) nesting e) :
      IsPlain dialect .atom (nesting + 1) (.phrase [.call (first :: others) (calledWith elements)])
  /-- A value that only the time tells, with its precision. -/
  | timeCall {nesting : Nat} {text : String} {elements : List Expr} (htext : isWord dialect text)
      (hword : ∃ word ∈ timeWords, (Token.word text none).keyword? = some word)
      (helements : ∀ e ∈ elements, IsPlain dialect (.expression 0 0) nesting e) :
      IsPlain dialect .atom (nesting + 1) (.call [⟨text, none⟩] (calledWith elements))
  /-- Expressions in parentheses. -/
  | group {nesting : Nat} {elements : List Expr} (hne : elements ≠ [])
      (helements : ∀ e ∈ elements, IsPlain dialect (.expression 0 0) nesting e) :
      IsPlain dialect .atom (nesting + 1) (.group elements)
  /-- A list. -/
  | array {nesting : Nat} {elements : List Expr} (hdialect : dialect ≠ .sqlite)
      (helements : ∀ e ∈ elements, IsPlain dialect (.expression 0 0) nesting e) :
      IsPlain dialect .atom (nesting + 1) (.between "ARRAY[" (.list elements) "]")
  /-- An operand that is made a type. -/
  | cast {nesting : Nat} {word : String} {e : Expr} {type : DataType}
      (hword : word ∈ ["CAST", "TRY_CAST", "SAFE_CAST"])
      (he : IsPlain dialect (.expression 0 0) nesting e) (htype : type.IsPlain dialect) :
      IsPlain dialect .atom (nesting + 1)
        (.known word [.phrase [e, .verbatim "AS", .verbatim type.render]])
  /-- An operand that is made a type, in the words of MySQL. -/
  | conversion {nesting : Nat} {e : Expr} {type : DataType}
      (he : IsPlain dialect (.expression 0 0) nesting e) (htype : type.IsPlain dialect) :
      IsPlain dialect .atom (nesting + 1) (.known "CONVERT" [e, .phrase [.verbatim type.render]])
  /-- A text in another character set. -/
  | transcoding {nesting : Nat} {e : Expr} {path : List Name}
      (he : IsPlain dialect (.expression 0 0) nesting e) (hne : path ≠ [])
      (hpath : ∀ name ∈ path, name.IsPlain dialect) :
      IsPlain dialect .atom (nesting + 1)
        (.known "CONVERT" [.phrase [e, .verbatim "USING", .name path]])
  /-- A part of a text. -/
  | substring {nesting : Nat} {e start : Expr} {length : Option Expr}
      (he : IsPlain dialect (.expression 0 0) nesting e)
      (hstart : IsPlain dialect (.expression 0 0) nesting start)
      (hlength : ∀ e ∈ length, IsPlain dialect (.expression 0 0) nesting e) :
      IsPlain dialect .atom (nesting + 1) (.known "SUBSTRING" (e :: start :: length.toList))
  /-- A part of a text, in words. -/
  | substringFor {nesting : Nat} {e : Expr} {start length : Option Expr}
      (he : IsPlain dialect (.expression 0 0) nesting e)
      (hstart : ∀ e ∈ start, IsPlain dialect (.expression 0 0) nesting e)
      (hlength : ∀ e ∈ length, IsPlain dialect (.expression 0 0) nesting e) :
      IsPlain dialect .atom (nesting + 1)
        (.known "SUBSTRING" [.phrase (e :: clauseParts "FROM" start ++ clauseParts "FOR" length)])
  /-- A text with a part that is replaced. -/
  | overlaid {nesting : Nat} {e part start : Expr} {length : Option Expr}
      (he : IsPlain dialect (.expression 0 0) nesting e)
      (hpart : IsPlain dialect (.expression 0 0) nesting part)
      (hstart : IsPlain dialect (.expression 0 0) nesting start)
      (hlength : ∀ e ∈ length, IsPlain dialect (.expression 0 0) nesting e) :
      IsPlain dialect .atom (nesting + 1)
        (.known "OVERLAY" [.phrase ([e, .verbatim "PLACING", part, .verbatim "FROM", start] ++
          clauseParts "FOR" length)])
  /-- A text of which something is cut off. -/
  | trimmed {nesting : Nat} {side : Option String} {e : Expr} {text : Option Expr}
      (hside : ∀ word ∈ side, word ∈ trimSides) (he : IsPlain dialect (.expression 0 0) nesting e)
      (hstart : side = none → ∀ token ∈ e.firstToken? dialect, ∀ word ∈ trimSides,
        token.isKeyword word = false)
      (htext : ∀ e ∈ text, IsPlain dialect (.expression 0 0) nesting e) :
      IsPlain dialect .atom (nesting + 1)
        (.known "TRIM" [.phrase (side.toList.map .verbatim ++ e :: clauseParts "FROM" text)])
  /-- A part of a time. -/
  | extracted {nesting : Nat} {field : String} {e : Expr}
      (hfield : field ∈ Grammar.timeFields ++ Grammar.timeAspects)
      (he : IsPlain dialect (.expression 0 0) nesting e) :
      IsPlain dialect .atom (nesting + 1) (.known "EXTRACT" [.binary (.verbatim field) "FROM" e])
  /-- A rounded number. -/
  | rounded {nesting : Nat} {word : String} {digits : Option String} {e : Expr}
      (hword : word ∈ roundingWords) (he : IsPlain dialect (.expression 0 0) nesting e)
      (hdigits : ∀ text ∈ digits, isNumeral text) :
      IsPlain dialect .atom (nesting + 1) (.known word (e :: digits.toList.map .verbatim))
  /-- The place of a text in another one. -/
  | located {nesting : Nat} {e text : Expr}
      (he : IsPlain dialect
        (.expression (Level.range.precedence dialect) (Level.range.precedence dialect)) nesting e)
      (htext : IsPlain dialect (.expression 0 0) nesting text) :
      IsPlain dialect .atom (nesting + 1) (.known "POSITION" [.binary e "IN" text])
  /-- A choice between cases. -/
  | choice {nesting : Nat} {subject otherwise : Option Expr} {cases : List (Expr × Expr)}
      (hsubject : ∀ e ∈ subject, IsPlain dialect (.expression 0 0) nesting e)
      (hstart : ∀ e ∈ subject, ∀ token ∈ e.firstToken? dialect,
        token.isKeyword "WHEN" = false ∧ token.names = false)
      (hne : cases ≠ [])
      (hconditions : ∀ case ∈ cases, IsPlain dialect (.expression 0 0) nesting case.1)
      (hresults : ∀ case ∈ cases, IsPlain dialect (.expression 0 0) nesting case.2)
      (hotherwise : ∀ e ∈ otherwise, IsPlain dialect (.expression 0 0) nesting e) :
      IsPlain dialect .atom (nesting + 1) (.phrase (choiceParts subject cases otherwise))
  /-- A text with its type before it. -/
  | typed {nesting bound limit : Nat} {form : TypeForm} {sizes : List TypeSize} {ending : List String}
      {text : String} (hform : form ∈ typeForms) (hinterval : form.keyword ≠ "INTERVAL")
      (hsizes : form.arguments.Admits sizes) (hending : ending ∈ form.endings)
      (htext : IsPlainString dialect text '\'') :
      IsPlain dialect (.expression bound limit) nesting
        (.verbatim ((DataType.known form.written (sizes.map TypeSize.render) (trailing ending)).render
          ++ " " ++ quoted '\'' text))
  /-- A span of time. -/
  | interval {nesting bound limit : Nat} {text : String} {quote : Char} {unit : Option String}
      (hdialect : dialect ≠ .mysql) (htext : IsPlainString dialect text quote)
      (hunit : ∀ word ∈ unit, word ∈ Grammar.timeFields) :
      IsPlain dialect (.expression bound limit) nesting
        (.phrase (.verbatim "INTERVAL" :: .string text quote :: unit.toList.map .verbatim))
  /-- A query in the place of an operand. -/
  | subquery {nesting : Nat} {query : Expr}
      (hquery : ∃ tokens, query.ReadQuery dialect nesting tokens) :
      IsPlain dialect .atom (nesting + 1) (.subquery query)
  /-- Whether a query finds anything. -/
  | found {nesting : Nat} {query : Expr} (hquery : ∃ tokens, query.ReadQuery dialect nesting tokens) :
      IsPlain dialect .atom (nesting + 1) (.phrase [.verbatim "EXISTS", .group [query]])
  /-- Whether a query finds nothing. -/
  | notFound {nesting : Nat} {query : Expr}
      (hquery : ∃ tokens, query.ReadQuery dialect nesting tokens) :
      IsPlain dialect .atom (nesting + 1) (.phrase [.verbatim "NOT EXISTS", .group [query]])
  /-- A sign and what it belongs to, which does not go on with the sign. -/
  | sign {nesting bound limit : Nat} {mark : String} {e : Expr} (hmark : mark = "+" ∨ mark = "-")
      (hlimit : limit ≤ Level.product.precedence dialect)
      (he : IsPlain dialect (.expression (Level.product.precedence dialect) limit) nesting e)
      (hstart : ∀ c ∈ e.render.toList.head?, isOperatorPart c = false ∧ c ≠ ':') :
      IsPlain dialect (.expression bound limit) (nesting + 1) (.marked mark e)
  /-- A negation, which is not taken for something else. -/
  | negation {nesting bound limit : Nat} {e : Expr} (hlimit : limit ≤ Level.negation.precedence dialect)
      (he : IsPlain dialect (.expression (Level.negation.precedence dialect) limit) nesting e)
      (hstart : ∀ token ∈ e.firstToken? dialect,
        token.names = false ∧ token.isKeyword "EXISTS" = false) :
      IsPlain dialect (.expression bound limit) (nesting + 1) (.phrase [.verbatim "NOT", e])
  /-- Two operands with an operator between them. -/
  | binary {nesting bound limit : Nat} {left right : Expr} {written : String} {level : Level}
      (hop : (written, level) ∈ operators dialect) (hbound : bound < level.precedence dialect)
      (hlimit : limit ≤ level.precedence dialect)
      (hleft : IsPlain dialect (.expression bound (level.precedence dialect)) (nesting + 1) left)
      (hright : IsPlain dialect (.expression (level.precedence dialect) limit) nesting right) :
      IsPlain dialect (.expression bound limit) (nesting + 1) (.binary left written right)
  /-- A whole division. -/
  | division {nesting bound : Nat} {left right : Expr} (hdialect : dialect = .mysql)
      (hbound : bound < Level.product.precedence dialect)
      (hleft : IsPlain dialect (.expression bound (Level.product.precedence dialect)) (nesting + 1)
        left)
      (hright : IsPlain dialect (.expression 0 0) nesting right) :
      IsPlain dialect (.expression bound 0) (nesting + 1) (.binary left "DIV" right)
  /-- An operand and the values that it is compared with. -/
  | quantified {nesting bound limit : Nat} {left right : Expr} {written quantifier : String}
      (hop : written ∈ comparisons) (hquantifier : quantifier ∈ quantifiers)
      (hbound : bound < Level.comparison.precedence dialect)
      (hleft : IsPlain dialect (.expression bound (Level.comparison.precedence dialect)) (nesting + 1)
        left)
      (hright : IsPlain dialect (.expression (Level.comparison.precedence dialect) 0) nesting right)
      (hquery : ∀ query, right ≠ .subquery query) :
      IsPlain dialect (.expression bound limit) (nesting + 1)
        (.binary left written (.known quantifier [right]))
  /-- A comparison with a pattern. -/
  | pattern {nesting bound limit : Nat} {left right : Expr} {words : List String} (negated : Bool)
      (hwords : words ∈ patternWords) (hbound : bound < Level.pattern.precedence dialect)
      (hlimit : limit ≤ Level.pattern.precedence dialect)
      (hleft : IsPlain dialect (.expression bound (Level.pattern.precedence dialect))
        (nesting + 1) left)
      (hright : IsPlain dialect (.expression (Level.pattern.precedence dialect) limit) nesting right)
      (hstart : words = ["REGEXP"] → ∀ token ∈ right.firstToken? dialect,
        token.isKeyword "RLIKE" = false) :
      IsPlain dialect (.expression bound limit) (nesting + 1)
        (.binary left (negatedText negated (String.intercalate " " words)) right)
  /-- A comparison with a pattern that has an escape character. -/
  | escaped {nesting bound limit : Nat} {left right : Expr} {words : List String} {text : String}
      (negated : Bool) (hwords : words ∈ escapableWords)
      (hbound : bound < Level.pattern.precedence dialect)
      (hleft : IsPlain dialect (.expression bound (Level.pattern.precedence dialect))
        (nesting + 1) left)
      (hright : IsPlain dialect
        (.expression (Level.pattern.precedence dialect) (Level.pattern.precedence dialect + 1))
        nesting right)
      (htext : IsPlainString dialect text '\'') (hquoted : quoted '\'' text = "'" ++ text ++ "'") :
      IsPlain dialect (.expression bound limit) (nesting + 1)
        (.followed (.binary left (negatedText negated (String.intercalate " " words)) right)
          (" ESCAPE '" ++ text ++ "'"))
  /-- Membership in a list. -/
  | inList {nesting bound limit : Nat} {left : Expr} {elements : List Expr} (negated : Bool)
      (hbound : bound < Level.range.precedence dialect)
      (hleft : IsPlain dialect (.expression bound (Level.range.precedence dialect)) (nesting + 1) left)
      (helements : ∀ e ∈ elements, IsPlain dialect (.expression 0 0) nesting e)
      (hne : elements ≠ [] ∨ dialect = .sqlite) :
      IsPlain dialect (.expression bound limit) (nesting + 1)
        (.binary left (negatedText negated "IN") (.group elements))
  /-- Membership in what a query finds. -/
  | inQuery {nesting bound limit : Nat} {left query : Expr} (negated : Bool)
      (hbound : bound < Level.range.precedence dialect)
      (hleft : IsPlain dialect (.expression bound (Level.range.precedence dialect)) (nesting + 1) left)
      (hquery : ∃ tokens, query.ReadQuery dialect nesting tokens) :
      IsPlain dialect (.expression bound limit) (nesting + 1)
        (.binary left (negatedText negated "IN") (.group [query]))
  /-- Membership in a range. -/
  | between {nesting bound limit : Nat} {left low high : Expr} (negated : Bool)
      (hbound : bound < Level.range.precedence dialect)
      (hlimit : limit ≤ Level.range.precedence dialect)
      (hleft : IsPlain dialect (.expression bound (Level.range.precedence dialect)) (nesting + 1) left)
      (hlow : IsPlain dialect
        (.expression (Level.range.precedence dialect) (Level.conjunction.precedence dialect))
        nesting low)
      (hhigh : IsPlain dialect (.expression (Level.range.precedence dialect) limit) nesting high) :
      IsPlain dialect (.expression bound limit) (nesting + 1)
        (.phrase [left, .verbatim (negatedText negated "BETWEEN"), low, .verbatim "AND", high])
  /-- A test for a value. -/
  | test {nesting bound limit : Nat} {left : Expr} {value : String} (negated : Bool)
      (hvalue : value ∈ testValues) (hbound : bound < Level.test.precedence dialect)
      (hleft : IsPlain dialect (.expression bound (Level.test.precedence dialect)) nesting left) :
      IsPlain dialect (.expression bound limit) nesting
        (.followed left (" IS " ++ negatedText negated value))
  /-- A test for being distinct. -/
  | distinct {nesting bound : Nat} {left right : Expr} (negated : Bool)
      (hbound : bound < Level.test.precedence dialect)
      (hleft : IsPlain dialect (.expression bound (Level.test.precedence dialect)) (nesting + 1) left)
      (hright : IsPlain dialect (.expression 0 0) nesting right) :
      IsPlain dialect (.expression bound 0) (nesting + 1)
        (.binary left ("IS " ++ negatedText negated "DISTINCT FROM") right)
  /-- An operand with the type that it is made after it. -/
  | casted {nesting bound limit : Nat} {left : Expr} {type : DataType}
      (hbound : bound < Level.cast.precedence dialect)
      (hleft : IsPlain dialect (.expression bound (Level.cast.precedence dialect)) nesting left)
      (htype : type.IsPlain dialect)
      (hstart : ∀ c ∈ type.render.toList.head?, isOperatorPart c = false ∧ c ≠ ':') :
      IsPlain dialect (.expression bound limit) nesting (.followed left ("::" ++ type.render))
  /-- An operand in another time zone. -/
  | zoned {nesting bound limit : Nat} {left right : Expr}
      (hbound : bound < Level.zone.precedence dialect)
      (hlimit : limit ≤ Level.zone.precedence dialect)
      (hleft : IsPlain dialect (.expression bound (Level.zone.precedence dialect)) (nesting + 1) left)
      (hright : IsPlain dialect (.expression (Level.zone.precedence dialect) limit) nesting right) :
      IsPlain dialect (.expression bound limit) (nesting + 1) (.binary left "AT TIME ZONE" right)

section IsPlain

variable {shape : Shape}

/-- Every one of these expressions is read back. -/
theorem Expr.IsPlain.exists_readAs (h : e.IsPlain dialect shape nesting) :
    ∃ tokens, e.ReadAs dialect shape nesting tokens := by
  induction h with
  | atom _ ih =>
    obtain ⟨tokens, htokens⟩ := ih
    exact ⟨tokens, (htokens.readWhole _).read _⟩
  | collated _ hne hpath ih =>
    obtain ⟨tokens, htokens⟩ := ih
    exact ⟨_, (htokens.collated hne hpath _).read _⟩
  | numeral htext => exact ⟨_, readAtom_numeral htext⟩
  | literal hspells htoken => exact ⟨_, readAtom_literal hspells htoken⟩
  | string htext => exact ⟨_, readAtom_string htext⟩
  | constant htext => exact ⟨_, readAtom_constant htext⟩
  | name hfirst hothers => exact ⟨_, readAtom_path hfirst hothers⟩
  | functionName hfirst hword hothers => exact ⟨_, (readWhole_functionPath hfirst hword hothers).read _⟩
  | call hfirst hothers _ ih =>
    choose! tokens htokens using ih
    exact ⟨_, readAtom_call hfirst hothers htokens⟩
  | timeCall htext hword _ ih =>
    choose! tokens htokens using ih
    exact ⟨_, readAtom_timeCall htext hword htokens⟩
  | group hne _ ih =>
    choose! tokens htokens using ih
    exact ⟨_, readAtom_group hne htokens⟩
  | array hdialect _ ih =>
    choose! tokens htokens using ih
    exact ⟨_, readAtom_array hdialect htokens⟩
  | cast hword _ htype ih =>
    obtain ⟨tokens, htokens⟩ := ih
    obtain ⟨typeTokens, htype⟩ := htype.exists_readFrom
    exact exists_cast hword htokens htype
  | conversion _ htype ih =>
    obtain ⟨tokens, htokens⟩ := ih
    obtain ⟨typeTokens, htype⟩ := htype.exists_readFrom
    exact exists_conversion htokens htype
  | transcoding _ hne hpath ih =>
    obtain ⟨tokens, htokens⟩ := ih
    exact exists_transcoding htokens hne hpath
  | substring _ _ _ ihFirst ihStart ihLength =>
    obtain ⟨tokens, htokens⟩ := ihFirst
    obtain ⟨startTokens, hstart⟩ := ihStart
    exact exists_substring htokens hstart ihLength
  | substringFor _ _ _ ihFirst ihStart ihLength =>
    obtain ⟨tokens, htokens⟩ := ihFirst
    exact exists_substringFor htokens ihStart ihLength
  | overlaid _ _ _ _ ihFirst ihPart ihStart ihLength =>
    obtain ⟨tokens, htokens⟩ := ihFirst
    obtain ⟨partTokens, hpart⟩ := ihPart
    obtain ⟨startTokens, hstart⟩ := ihStart
    exact exists_overlaid htokens hpart hstart ihLength
  | trimmed hside _ hstart _ ihFirst ihText =>
    obtain ⟨tokens, htokens⟩ := ihFirst
    -- The condition is about the first token of the text, which is the first one that is read.
    rw [Expr.firstToken?_eq htokens.spells] at hstart
    exact exists_trimmed hside htokens hstart ihText
  | extracted hfield _ ih =>
    obtain ⟨tokens, htokens⟩ := ih
    exact exists_extracted hfield htokens
  | rounded hword _ hdigits ih =>
    obtain ⟨tokens, htokens⟩ := ih
    exact exists_rounded hword htokens hdigits
  | located _ _ ihFirst ihText =>
    obtain ⟨tokens, htokens⟩ := ihFirst
    obtain ⟨textTokens, htext⟩ := ihText
    exact exists_located htokens htext
  | choice _ hstart hne _ _ _ ihSubject ihConditions ihResults ihOtherwise =>
    refine exists_choice (fun e he => ?_) hne ihConditions ihResults ihOtherwise
    obtain ⟨tokens, htokens⟩ := ihSubject e he
    have hfirst := hstart e he
    rw [Expr.firstToken?_eq htokens.spells] at hfirst
    exact ⟨tokens, htokens, hfirst⟩
  | typed hform hinterval hsizes hending htext =>
    exact ⟨_, (readWhole_typed hform hinterval hsizes hending htext).read _⟩
  | interval hdialect htext hunit => exact ⟨_, (readWhole_interval hdialect htext hunit).read _⟩
  | subquery hquery =>
    obtain ⟨tokens, htokens⟩ := hquery
    exact ⟨_, readAtom_subquery htokens⟩
  | found hquery =>
    obtain ⟨tokens, htokens⟩ := hquery
    exact ⟨_, readAtom_exists htokens⟩
  | notFound hquery =>
    obtain ⟨tokens, htokens⟩ := hquery
    exact ⟨_, readAtom_notExists htokens⟩
  | sign hmark hlimit _ hstart ih =>
    obtain ⟨tokens, htokens⟩ := ih
    exact ⟨_, (readWhole_marked hmark htokens hlimit hstart).read _⟩
  | negation hlimit _ hstart ih =>
    obtain ⟨tokens, htokens⟩ := ih
    rw [Expr.firstToken?_eq htokens.spells] at hstart
    exact ⟨_, (readWhole_not htokens hlimit hstart).read _⟩
  | binary hop hbound hlimit _ _ ihLeft ihRight =>
    obtain ⟨leftTokens, hleft⟩ := ihLeft
    obtain ⟨rightTokens, hright⟩ := ihRight
    exact ⟨_, read_binary hop hbound hlimit hleft hright⟩
  | division hdialect hbound _ _ ihLeft ihRight =>
    obtain ⟨leftTokens, hleft⟩ := ihLeft
    obtain ⟨rightTokens, hright⟩ := ihRight
    exact ⟨_, read_division hdialect hbound hleft hright⟩
  | quantified hop hquantifier hbound _ _ hquery ihLeft ihRight =>
    obtain ⟨leftTokens, hleft⟩ := ihLeft
    obtain ⟨rightTokens, hright⟩ := ihRight
    exact ⟨_, read_quantified hop hquantifier hbound hleft hright hquery⟩
  | pattern negated hwords hbound hlimit _ _ hstart ihLeft ihRight =>
    obtain ⟨leftTokens, hleft⟩ := ihLeft
    obtain ⟨rightTokens, hright⟩ := ihRight
    refine ⟨_, read_pattern negated hwords hbound hlimit hleft hright fun hregexp => ?_⟩
    obtain ⟨first, others, rfl⟩ := List.exists_cons_of_ne_nil hright.opens.ne_nil
    rw [Expr.firstToken?_eq hright.spells] at hstart
    simpa using hstart hregexp first rfl
  | escaped negated hwords hbound _ _ htext hquoted ihLeft ihRight =>
    obtain ⟨leftTokens, hleft⟩ := ihLeft
    obtain ⟨rightTokens, hright⟩ := ihRight
    exact ⟨_, read_escaped negated hwords hbound hleft hright htext hquoted⟩
  | inList negated hbound _ _ hne ihLeft ihElements =>
    obtain ⟨leftTokens, hleft⟩ := ihLeft
    choose! tokens htokens using ihElements
    exact ⟨_, read_in negated hbound hleft htokens hne⟩
  | inQuery negated hbound _ hquery ihLeft =>
    obtain ⟨leftTokens, hleft⟩ := ihLeft
    obtain ⟨tokens, htokens⟩ := hquery
    exact ⟨_, read_inQuery negated hbound hleft htokens⟩
  | between negated hbound hlimit _ _ _ ihLeft ihLow ihHigh =>
    obtain ⟨leftTokens, hleft⟩ := ihLeft
    obtain ⟨lowTokens, hlow⟩ := ihLow
    obtain ⟨highTokens, hhigh⟩ := ihHigh
    exact ⟨_, read_between negated hbound hlimit hleft hlow hhigh⟩
  | test negated hvalue hbound _ ih =>
    obtain ⟨tokens, htokens⟩ := ih
    exact ⟨_, read_test negated hvalue hbound htokens⟩
  | distinct negated hbound _ _ ihLeft ihRight =>
    obtain ⟨leftTokens, hleft⟩ := ihLeft
    obtain ⟨rightTokens, hright⟩ := ihRight
    exact ⟨_, read_distinct negated hbound hleft hright⟩
  | casted hbound _ htype hstart ih =>
    obtain ⟨tokens, htokens⟩ := ih
    obtain ⟨typeTokens, htype⟩ := htype.exists_readFrom
    exact ⟨_, read_cast hbound htokens htype hstart⟩
  | zoned hbound hlimit _ _ ihLeft ihRight =>
    obtain ⟨leftTokens, hleft⟩ := ihLeft
    obtain ⟨rightTokens, hright⟩ := ihRight
    exact ⟨_, read_zone hbound hlimit hleft hright⟩

theorem Expr.IsPlain.exists_readFrom (h : e.IsPlain dialect (.expression 0 0) (maxNesting - 2)) :
    ∃ tokens, e.ReadFrom dialect tokens := by
  obtain ⟨tokens, htokens⟩ := h.exists_readAs
  exact ⟨tokens, htokens.readFrom⟩

end IsPlain

end Schemata.Sql
