import Schemata.Proofs.Sql.Calls

/-!
# Forms with words of their own are read back

Casts, choices and some functions have words between their operands instead of commas. Each of the
operands ends before the next of these words, since no word of this kind goes on with an expression.
A query is a form of its own; whatever is read as one in parentheses can stand in the place of an
operand.

## Main definitions

* `Expr.ReadQuery`: a query is read back from its tokens, in parentheses
* `choiceParts`: the parts of a choice
* `wordPart`, `IsPart`: the parts of a phrase, each with its tokens

## Main results

* `readAtom_form`: a form in parentheses after its keyword
* `exists_cast`, `exists_substring`, `exists_extracted` and others: the forms in parentheses
* `exists_choice`: choices
* `readWhole_typed`, `readWhole_interval`: texts with their types before them
* `readAtom_subquery`, `readAtom_exists`: queries
-/

namespace Schemata.Sql

open Reader

variable {dialect : Dialect} {rest : List Token} {nesting : Nat}

/-! ### Phrases -/

/-- The words of forms. -/
def innerWords : List String :=
  ["AS", "CASE", "WHEN", "THEN", "ELSE", "END", "FROM", "FOR", "PLACING", "USING", "IN", "BOTH",
    "LEADING", "TRAILING", "EXISTS", "INTERVAL"] ++ (Grammar.timeFields ++ Grammar.timeAspects)

/-- A word of a form, with its token. -/
def wordPart (word : String) : Expr × List Token := (.verbatim word, [.word word none])

/-- The part of a phrase has the tokens. -/
def IsPart (dialect : Dialect) (part : Expr × List Token) : Prop :=
  Spells dialect part.1.render part.2 ∧ part.2 ≠ []

theorem isPart_word {word : String} (hword : word ∈ innerWords) : IsPart dialect (wordPart word) := by
  have hall : ∀ word ∈ innerWords, isAsciiWord word := by decide +kernel
  exact ⟨spells_word (isWord_of_isAsciiWord (hall word hword)), by simp [wordPart]⟩

theorem Expr.Read.isPart {bound limit : Nat} {e : Expr} {tokens : List Token}
    (h : e.Read dialect nesting bound limit tokens) : IsPart dialect (e, tokens) :=
  ⟨h.spells, h.opens.ne_nil⟩

theorem DataType.ReadFrom.isPart {type : DataType} {tokens : List Token}
    (h : type.ReadFrom dialect tokens) : IsPart dialect (.verbatim type.render, tokens) :=
  ⟨h.spells, h.ne_nil⟩

/-- The parts of a phrase stand one after the other. -/
theorem spells_phrase {parts : List (Expr × List Token)} (h : ∀ part ∈ parts, IsPart dialect part) :
    Spells dialect (Expr.phrase (parts.map Prod.fst)).render (parts.flatMap Prod.snd) := by
  have hall := spells_intercalate separates_blank (fun part : Expr × List Token => part.1.render)
    Prod.snd h
  have htext : (Expr.phrase (parts.map Prod.fst)).render =
      String.intercalate " " (parts.map fun part => part.1.render) := by
    simp only [Expr.render, renderAll_eq_map, List.map_map]
    rfl
  have htokens : ∀ items : List (List Token), ([] : List Token).intercalate items = items.flatten := by
    intro items
    induction items with
    | nil => rfl
    | cons first others ih =>
      cases others with
      | nil => simp
      | cons second others =>
        rw [List.intercalate_cons_cons, ih]
        simp
  rw [htokens] at hall
  rw [htext, List.flatMap_def]
  exact hall

/-- The parts of a list stand between commas. -/
theorem spells_list {parts : List (Expr × List Token)} (h : ∀ part ∈ parts, IsPart dialect part) :
    Spells dialect (String.intercalate ", " (renderAll (parts.map Prod.fst)))
      ([.symbol ","].intercalate (parts.map Prod.snd)) := by
  rw [renderAll_eq_map, List.map_map]
  exact spells_intercalate (separates_comma.append separates_blank)
    (fun part : Expr × List Token => part.1.render) Prod.snd h

/-! ### Forms in parentheses -/

/-- The keywords of the forms in parentheses. -/
def parenthesizedForms : List String := functionWords ++ ["TRIM", "EXISTS"]

theorem render_known (function : String) (arguments : List Expr) :
    (Expr.known function arguments).render =
      function ++ "" ++ ("(" ++ String.intercalate ", " (renderAll arguments) ++ ")") := by
  simp [Expr.known, Expr.render, renderPath, Name.render, String.append_assoc]

/-- A form in parentheses after its keyword. -/
theorem readAtom_form {word blank text : String} {e : Expr} {tokens : List Token}
    (hword : word ∈ parenthesizedForms) (hblank : blank ∈ ["", " "])
    (htext : e.render = word ++ blank ++ ("(" ++ text ++ ")")) (hspells : Spells dialect text tokens)
    (hread : ∀ fuel rest, 2 * tokens.length + 2 < fuel →
      ∃ form, (Grammar.within dialect fuel nesting).form? word word (some (.symbol "(")) = some form ∧
        form (.symbol "(" :: (tokens ++ .symbol ")" :: rest)) = .ok (e, rest)) :
    e.ReadAtom dialect nesting (.word word none :: .symbol "(" :: (tokens ++ [.symbol ")"])) := by
  have hall : ∀ word ∈ parenthesizedForms, isAsciiWord word ∧
      (Token.word word none).keyword? = some word ∧ (Token.word word none).opensType = false ∧
        (Token.word word none).leads = false := by
    decide +kernel
  obtain ⟨hascii, hkeyword, htype, hleads⟩ := hall word hword
  have hname : Spells dialect word [.word word none] := spells_word (isWord_of_isAsciiWord hascii)
  refine ⟨?_, .of_cons hleads (.inr (by simp [Token.names])) (.of_head?_ne (by simp)),
    fun fuel rest hfuel hrest => ?_⟩
  · rw [htext]
    simp only [List.mem_cons, List.not_mem_nil, or_false] at hblank
    rcases hblank with rfl | rfl
    · rw [String.append_empty]
      exact hname.append hspells.parenthesized (delimited_parenthesized _)
    · exact hname.separated separates_blank hspells.parenthesized (by simp)
  · simp only [List.length_cons, List.length_append, List.length_nil] at hfuel
    obtain ⟨form, hform, hread⟩ := hread fuel rest (by omega)
    rw [List.cons_append, List.cons_append, List.append_assoc, List.singleton_append]
    refine wholeOperand_of_form (typedText_of_word htype (by simp) (by simp) ?_) hkeyword hform hread
    exact .parenthesized hspells.closed (hrest.head?_ne (by decide))

/-- What follows an operand in parentheses. -/
theorem ends_close (rest : List Token) : Ends (.symbol ")" :: rest) := .cons (by decide) rest

section Forms

variable {first second third : Expr} {firstTokens secondTokens thirdTokens : List Token}

theorem Expr.Read.before_word (h : first.Read dialect nesting 0 0 firstTokens) (word : String)
    (hword : word ∈ linkWords) (fuel : Nat) (hfuel : 2 * firstTokens.length < fuel)
    (rest : List Token) :
    (Grammar.within dialect fuel (nesting + 1)).expr (firstTokens ++ .word word none :: rest) =
      .ok (first, .word word none :: rest) :=
  h.expr_apply fuel hfuel (follows_word hword 0)

theorem Expr.Read.before_mark (h : first.Read dialect nesting 0 0 firstTokens) (mark : String)
    (hmark : mark ∈ [",", ")", "]"]) (fuel : Nat) (hfuel : 2 * firstTokens.length < fuel)
    (rest : List Token) :
    (Grammar.within dialect fuel (nesting + 1)).expr (firstTokens ++ .symbol mark :: rest) =
      .ok (first, .symbol mark :: rest) :=
  h.expr_apply fuel hfuel (follows_mark hmark 0)

/-- A cast to a type. -/
theorem exists_cast {word : String} {type : DataType} {typeTokens : List Token}
    (hword : word ∈ ["CAST", "TRY_CAST", "SAFE_CAST"])
    (hfirst : first.Read dialect nesting 0 0 firstTokens) (htype : type.ReadFrom dialect typeTokens) :
    ∃ tokens, (Expr.known word [.phrase [first, .verbatim "AS", .verbatim type.render]]).ReadAtom
      dialect (nesting + 1) tokens := by
  have hall : ∀ word ∈ ["CAST", "TRY_CAST", "SAFE_CAST"], word ∈ parenthesizedForms := by decide
  have hspells := @spells_phrase dialect [(first, firstTokens), wordPart "AS",
    (.verbatim type.render, typeTokens)]
    (by simpa using ⟨hfirst.isPart, isPart_word (by decide), htype.isPart⟩)
  refine ⟨_, readAtom_form (hall word hword) (by simp) (render_known _ _) hspells
    fun fuel rest hfuel => ?_⟩
  simp [wordPart] at hfuel
  have hoperand := hfirst.before_word "AS" (by decide) fuel (by omega)
  have htaken := fun rest => htype.dataType_of_ends (ends_close rest)
  simp only [List.mem_cons, List.not_mem_nil, or_false] at hword
  rcases hword with rfl | rfl | rfl <;>
    refine ⟨_, rfl, ?_⟩ <;>
    simp +decide [wordPart, Grammar.cast, parenthesized, hoperand, keyword, keywords, htaken,
      Grammar.within_dialect, Grammar.clause]

/-- A conversion to a type. -/
theorem exists_conversion {type : DataType} {typeTokens : List Token}
    (hfirst : first.Read dialect nesting 0 0 firstTokens) (htype : type.ReadFrom dialect typeTokens) :
    ∃ tokens, (Expr.known "CONVERT" [first, .phrase [.verbatim type.render]]).ReadAtom
      dialect (nesting + 1) tokens := by
  have htext : Spells dialect (Expr.phrase [.verbatim type.render]).render typeTokens := by
    simpa [Expr.render, renderAll] using htype.spells
  have hspells := @spells_list dialect
    [(first, firstTokens), (.phrase [.verbatim type.render], typeTokens)]
    (by simpa using ⟨hfirst.isPart, htext, htype.ne_nil⟩)
  refine ⟨_, readAtom_form (by decide) (by simp) (render_known _ _) hspells fun fuel rest hfuel => ?_⟩
  simp at hfuel
  have hoperand := hfirst.before_mark "," (by simp) fuel (by omega)
  have htaken := fun rest => htype.dataType_of_ends (ends_close rest)
  refine ⟨_, rfl, ?_⟩
  simp [Grammar.conversion, parenthesized, hoperand, htaken, Grammar.within_dialect, Grammar.clause]

/-- A conversion to a character set. -/
theorem exists_transcoding {path : List Name} (hfirst : first.Read dialect nesting 0 0 firstTokens)
    (hne : path ≠ []) (hpath : ∀ name ∈ path, name.IsPlain dialect) :
    ∃ tokens, (Expr.known "CONVERT" [.phrase [first, .verbatim "USING", .name path]]).ReadAtom
      dialect (nesting + 1) tokens := by
  have hspells := @spells_phrase dialect [(first, firstTokens), wordPart "USING",
    (.name path, namesTokens "." path)]
    (by simpa using ⟨hfirst.isPart, isPart_word (by decide), spells_name_path hpath,
      namesTokens_ne_nil "." hne⟩)
  refine ⟨_, readAtom_form (by decide) (by simp) (render_known _ _) hspells fun fuel rest hfuel => ?_⟩
  simp [wordPart] at hfuel
  have hoperand := hfirst.before_word "USING" (by decide) fuel (by omega)
  have htaken : ∀ rest, Reader.path (namesTokens "." path ++ .symbol ")" :: rest) =
      .ok (path, .symbol ")" :: rest) :=
    fun rest => path_apply hne (by simp)
  refine ⟨_, rfl, ?_⟩
  simp +decide [wordPart, Grammar.conversion, parenthesized, hoperand, htaken]

/-- A text and the bounds of a part of it, with commas between them. -/
theorem exists_substring (hfirst : first.Read dialect nesting 0 0 firstTokens)
    (hsecond : second.Read dialect nesting 0 0 secondTokens) {length : Option Expr}
    (hlength : ∀ e ∈ length, ∃ tokens, e.Read dialect nesting 0 0 tokens) :
    ∃ tokens, (Expr.known "SUBSTRING" (first :: second :: length.toList)).ReadAtom
      dialect (nesting + 1) tokens := by
  cases length with
  | none =>
    have hspells := @spells_list dialect [(first, firstTokens), (second, secondTokens)]
      (by simpa using ⟨hfirst.isPart, hsecond.isPart⟩)
    refine ⟨_, readAtom_form (by decide) (by simp) (render_known _ _) hspells fun fuel rest hfuel => ?_⟩
    simp at hfuel
    have htext := hfirst.before_mark "," (by simp) fuel (by omega)
    have hstart := hsecond.before_mark ")" (by simp) fuel (by omega)
    refine ⟨_, rfl, ?_⟩
    simp [Grammar.substring, parenthesized, htext, hstart, either]
  | some third =>
    obtain ⟨thirdTokens, hthird⟩ := hlength third rfl
    have hspells := @spells_list dialect [(first, firstTokens), (second, secondTokens),
      (third, thirdTokens)] (by simpa using ⟨hfirst.isPart, hsecond.isPart, hthird.isPart⟩)
    refine ⟨_, readAtom_form (by decide) (by simp) (render_known _ _) hspells fun fuel rest hfuel => ?_⟩
    simp at hfuel
    have htext := hfirst.before_mark "," (by simp) fuel (by omega)
    have hstart := hsecond.before_mark "," (by simp) fuel (by omega)
    have hend := hthird.before_mark ")" (by simp) fuel (by omega)
    refine ⟨_, rfl, ?_⟩
    simp [Grammar.substring, parenthesized, htext, hstart, hend, either]

/-- The word and an operand, if there is one. -/
def clauseParts (word : String) (operand : Option Expr) : List Expr :=
  operand.elim [] fun e => [.verbatim word, e]

/-- The word and an operand, if there is one, with their tokens. -/
def clausePairs (word : String) (operand : Option (Expr × List Token)) : List (Expr × List Token) :=
  operand.elim [] fun part => [wordPart word, part]

theorem map_clausePairs (word : String) (operand : Option (Expr × List Token)) :
    (clausePairs word operand).map Prod.fst = clauseParts word (operand.map Prod.fst) := by
  cases operand <;> rfl

theorem isPart_clausePairs {word : String} (hword : word ∈ innerWords)
    {operand : Option (Expr × List Token)} (h : ∀ part ∈ operand, IsPart dialect part) :
    ∀ part ∈ clausePairs word operand, IsPart dialect part := by
  cases operand with
  | none => simp [clausePairs]
  | some part => simpa [clausePairs] using ⟨isPart_word hword, h part rfl⟩

/-- What is missing has no tokens to choose. -/
theorem exists_pair {P : Expr → List Token → Prop} {operand : Option Expr}
    (h : ∀ e ∈ operand, ∃ tokens, P e tokens) :
    ∃ pair : Option (Expr × List Token), pair.map Prod.fst = operand ∧
      ∀ part ∈ pair, P part.1 part.2 := by
  cases operand with
  | none => exact ⟨none, rfl, by simp⟩
  | some e =>
    obtain ⟨tokens, htokens⟩ := h e rfl
    exact ⟨some (e, tokens), rfl, by simpa using htokens⟩

/-- The words of the clauses that may be missing. -/
def clauseWords : List String := ["FROM", "FOR", "ELSE"]

section Clauses

variable {word : String} {operand : Option (Expr × List Token)}

/-- A clause, or what follows in its place, ends the operand before it. -/
theorem follows_clause (hword : word ∈ clauseWords) (operand : Option (Expr × List Token))
    (hrest : Follows dialect 0 rest) :
    Follows dialect 0 ((clausePairs word operand).flatMap Prod.snd ++ rest) := by
  have hlink : ∀ word ∈ clauseWords, word ∈ linkWords := by decide
  cases operand with
  | none => exact hrest
  | some part => exact follows_word (hlink word hword) 0

/-- No mark stands there either, unless it follows. -/
theorem head?_clause (word : String) (operand : Option (Expr × List Token)) {mark : String}
    (hrest : rest.head? ≠ some (.symbol mark)) :
    ((clausePairs word operand).flatMap Prod.snd ++ rest).head? ≠ some (.symbol mark) := by
  cases operand with
  | none => exact hrest
  | some part => simp [clausePairs, wordPart]

/-- A clause is told by its word. -/
theorem announce_clause {other : String} (operand : Option (Expr × List Token))
    (hother : (Token.word word none).isKeyword other = false) (hrest : announce [other] rest = false) :
    announce [other] ((clausePairs word operand).flatMap Prod.snd ++ rest) = false := by
  cases operand with
  | none => exact hrest
  | some part => simp [clausePairs, wordPart, hother]

/-- A clause is taken if it is there. -/
theorem clause_apply (hword : word ∈ clauseWords)
    (hoperand : ∀ part ∈ operand, part.1.Read dialect nesting 0 0 part.2) (fuel : Nat)
    (hfuel : 2 * ((clausePairs word operand).flatMap Prod.snd).length < fuel)
    (hrest : Follows dialect 0 rest) (hnext : announce [word] rest = false) :
    Grammar.clause [word] (Grammar.within dialect fuel (nesting + 1)).expr
      ((clausePairs word operand).flatMap Prod.snd ++ rest) =
        .ok (clauseParts word (operand.map Prod.fst), rest) := by
  have hkeyword : ∀ word ∈ clauseWords, (Token.word word none).isKeyword word := by decide +kernel
  cases operand with
  | none => simp [clausePairs, clauseParts, Grammar.clause, hnext]
  | some part =>
    simp only [clausePairs, wordPart, Option.elim, List.flatMap_cons, List.length_append] at hfuel
    have hread := (hoperand part rfl).expr_apply fuel (by omega) hrest
    simp [clausePairs, clauseParts, wordPart, Grammar.clause, hkeyword word hword, hread]

end Clauses

/-- A text and the bounds of a part of it, with words between them. -/
theorem exists_substringFor {start length : Option Expr}
    (hfirst : first.Read dialect nesting 0 0 firstTokens)
    (hstart : ∀ e ∈ start, ∃ tokens, e.Read dialect nesting 0 0 tokens)
    (hlength : ∀ e ∈ length, ∃ tokens, e.Read dialect nesting 0 0 tokens) :
    ∃ tokens, (Expr.known "SUBSTRING"
      [.phrase (first :: clauseParts "FROM" start ++ clauseParts "FOR" length)]).ReadAtom
        dialect (nesting + 1) tokens := by
  obtain ⟨start, rfl, hstartRead⟩ := exists_pair hstart
  obtain ⟨length, rfl, hlengthRead⟩ := exists_pair hlength
  have hspells := @spells_phrase dialect
    ((first, firstTokens) :: clausePairs "FROM" start ++ clausePairs "FOR" length) (by
      simp only [List.cons_append, List.forall_mem_cons, List.forall_mem_append]
      exact ⟨hfirst.isPart,
        isPart_clausePairs (by decide) fun part hpart => (hstartRead part hpart).isPart,
        isPart_clausePairs (by decide) fun part hpart => (hlengthRead part hpart).isPart⟩)
  simp only [List.cons_append, List.map_cons, List.map_append, map_clausePairs] at hspells
  refine ⟨_, readAtom_form (by decide) (by simp) (render_known _ _) hspells fun fuel rest hfuel => ?_⟩
  simp only [List.flatMap_cons, List.flatMap_append, List.length_append] at hfuel
  have hclose : Follows dialect 0 (.symbol ")" :: rest) := follows_mark (by simp) 0
  have hfor := follows_clause (show "FOR" ∈ clauseWords by decide) length hclose
  have hfrom := follows_clause (show "FROM" ∈ clauseWords by decide) start hfor
  have htext := hfirst.expr_apply fuel (by omega) hfrom
  -- A comma at either place would begin the form with commas.
  have hcomma := @head?_clause (.symbol ")" :: rest) "FOR" length "," (by simp)
  have hcommas := hasSymbol_of_head (head?_clause "FROM" start hcomma)
  have hstart := clause_apply (show "FROM" ∈ clauseWords by decide) hstartRead fuel (by omega) hfor
    (announce_clause length (by decide +kernel) (by simp))
  have hlength := clause_apply (show "FOR" ∈ clauseWords by decide) hlengthRead fuel (by omega) hclose
    (by simp)
  refine ⟨_, rfl, ?_⟩
  simp [Grammar.substring, parenthesized, htext, hasSymbol_of_head hcomma, hcommas, hstart, hlength]

/-- A text and what is put over a part of it. -/
theorem exists_overlaid {length : Option Expr} (hfirst : first.Read dialect nesting 0 0 firstTokens)
    (hsecond : second.Read dialect nesting 0 0 secondTokens)
    (hthird : third.Read dialect nesting 0 0 thirdTokens)
    (hlength : ∀ e ∈ length, ∃ tokens, e.Read dialect nesting 0 0 tokens) :
    ∃ tokens, (Expr.known "OVERLAY" [.phrase
      ([first, .verbatim "PLACING", second, .verbatim "FROM", third] ++ clauseParts "FOR" length)
      ]).ReadAtom dialect (nesting + 1) tokens := by
  obtain ⟨length, rfl, hlengthRead⟩ := exists_pair hlength
  have hspells := @spells_phrase dialect ([(first, firstTokens), wordPart "PLACING",
    (second, secondTokens), wordPart "FROM", (third, thirdTokens)] ++ clausePairs "FOR" length) (by
      simp only [List.cons_append, List.nil_append, List.forall_mem_cons]
      exact ⟨hfirst.isPart, isPart_word (by decide), hsecond.isPart, isPart_word (by decide),
        hthird.isPart, isPart_clausePairs (by decide) fun part hpart =>
          (hlengthRead part hpart).isPart⟩)
  simp only [List.map_append, map_clausePairs] at hspells
  refine ⟨_, readAtom_form (by decide) (by simp) (render_known _ _) hspells fun fuel rest hfuel => ?_⟩
  simp only [wordPart, List.cons_append, List.nil_append, List.flatMap_cons, List.length_append,
    List.length_cons] at hfuel
  have hclose : Follows dialect 0 (.symbol ")" :: rest) := follows_mark (by simp) 0
  have htext := hfirst.before_word "PLACING" (by decide) fuel (by omega)
  have hplaced := hsecond.before_word "FROM" (by decide) fuel (by omega)
  have hstart := hthird.expr_apply fuel (by omega)
    (follows_clause (show "FOR" ∈ clauseWords by decide) length hclose)
  have hlength := clause_apply (show "FOR" ∈ clauseWords by decide) hlengthRead fuel (by omega) hclose
    (by simp)
  refine ⟨_, rfl, ?_⟩
  simp +decide [wordPart, Grammar.overlaid, parenthesized, htext, hplaced, hstart, hlength, keyword,
    keywords]

/-- The sides that a text is cut off at. -/
def trimSides : List String := ["BOTH", "LEADING", "TRAILING"]

/-- The side is told by its word. Where it is missing, the operand must not begin with such a word. -/
theorem trimSide_apply {side : Option String} (hside : ∀ word ∈ side, word ∈ trimSides)
    (hne : firstTokens ≠ [])
    (hstart : side = none → ∀ token ∈ firstTokens.head?, ∀ word ∈ trimSides,
      token.isKeyword word = false) :
    Grammar.markOf trimSides ((side.toList.map wordPart).flatMap Prod.snd ++ (firstTokens ++ rest)) =
      .ok (side.toList.map .verbatim, firstTokens ++ rest) := by
  cases side with
  | none =>
    obtain ⟨token, others, rfl⟩ := List.exists_cons_of_ne_nil hne
    have hnone : trimSides.find? token.isKeyword = none := by
      rw [List.find?_eq_none]
      intro word hword
      simpa using hstart rfl token rfl word hword
    simp [Grammar.markOf, hasOneOf, hnone]
  | some word =>
    have hfind : ∀ word ∈ trimSides, trimSides.find? (Token.word word none).isKeyword = some word := by
      decide +kernel
    simp [Grammar.markOf, hasOneOf, wordPart, hfind word (hside word rfl)]

/-- What is cut off a text, which must not be taken for the side where that is missing. -/
theorem exists_trimmed {side : Option String} {text : Option Expr}
    (hside : ∀ word ∈ side, word ∈ trimSides)
    (hfirst : first.Read dialect nesting 0 0 firstTokens)
    (hstart : side = none → ∀ token ∈ firstTokens.head?, ∀ word ∈ trimSides,
      token.isKeyword word = false)
    (htext : ∀ e ∈ text, ∃ tokens, e.Read dialect nesting 0 0 tokens) :
    ∃ tokens, (Expr.known "TRIM"
      [.phrase (side.toList.map .verbatim ++ first :: clauseParts "FROM" text)
      ]).ReadAtom dialect (nesting + 1) tokens := by
  obtain ⟨text, rfl, htextRead⟩ := exists_pair htext
  have hwords : ∀ word ∈ trimSides, word ∈ innerWords := by decide
  have hspells := @spells_phrase dialect (side.toList.map wordPart ++
    (first, firstTokens) :: clausePairs "FROM" text) (by
      simp only [List.forall_mem_append, List.forall_mem_cons, List.forall_mem_map]
      exact ⟨fun word hword => isPart_word (hwords word (hside word (by simpa using hword))),
        hfirst.isPart,
        isPart_clausePairs (by decide) fun part hpart => (htextRead part hpart).isPart⟩)
  have hverbatim : (side.toList.map wordPart).map Prod.fst = side.toList.map Expr.verbatim := by
    simp [wordPart]
  simp only [List.map_append, List.map_cons, map_clausePairs, hverbatim] at hspells
  refine ⟨_, readAtom_form (by decide) (by simp) (render_known _ _) hspells fun fuel rest hfuel => ?_⟩
  refine ⟨_, rfl, ?_⟩
  simp only [List.flatMap_cons, List.flatMap_append, List.length_append] at hfuel
  have hmark := fun rest => @trimSide_apply rest firstTokens side hside hfirst.opens.ne_nil hstart
  have hclose : Follows dialect 0 (.symbol ")" :: rest) := follows_mark (by simp) 0
  have hoperand := hfirst.expr_apply fuel (by omega)
    (follows_clause (show "FROM" ∈ clauseWords by decide) text hclose)
  have hcut := clause_apply (show "FROM" ∈ clauseWords by decide) htextRead fuel (by omega) hclose
    (by simp)
  unfold trimSides at hmark
  simp only [List.flatMap_append, List.flatMap_cons, List.append_assoc, Grammar.trimmed, parenthesized,
    bind_apply, symbol_apply, hmark, hoperand, hcut]
  cases text <;> simp [clauseParts]

/-- A part of a time is a keyword. -/
theorem timeField_apply {grammar : Grammar} {field : String}
    (hfield : field ∈ Grammar.timeFields ++ Grammar.timeAspects) :
    grammar.timeField (.word field none :: rest) = .ok (.verbatim field, rest) := by
  have hfind : ∀ field ∈ Grammar.timeFields ++ Grammar.timeAspects,
      (Grammar.timeFields ++ Grammar.timeAspects).find? (Token.word field none).isKeyword =
        some field := by
    decide +kernel
  have htaken : hasOneOf (Grammar.timeFields ++ Grammar.timeAspects) (.word field none :: rest) =
      .ok (some field, rest) := by
    simp only [hasOneOf, bind_apply, get_apply, hfind field hfield, set_apply, pure_apply]
  simp only [Grammar.timeField, bind_apply, htaken, peek_apply, pure_apply]

/-- A part of a time. -/
theorem exists_extracted {field : String} (hfield : field ∈ Grammar.timeFields ++ Grammar.timeAspects)
    (hfirst : first.Read dialect nesting 0 0 firstTokens) :
    ∃ tokens, (Expr.known "EXTRACT" [.binary (.verbatim field) "FROM" first]).ReadAtom
      dialect (nesting + 1) tokens := by
  have hspells := @spells_phrase dialect [wordPart field, wordPart "FROM", (first, firstTokens)]
    (by simpa using ⟨isPart_word (List.mem_append_right _ hfield), isPart_word (by decide),
      hfirst.isPart⟩)
  refine ⟨_, readAtom_form (by decide) (by simp) (render_known _ _) hspells fun fuel rest hfuel => ?_⟩
  simp [wordPart] at hfuel
  have hoperand := hfirst.before_mark ")" (by simp) fuel (by omega)
  refine ⟨_, rfl, ?_⟩
  simp +decide [wordPart, Grammar.extracted, parenthesized, timeField_apply hfield, hoperand, keyword,
    keywords, Expr.binary]

/-- The words of functions that round to a whole number. -/
def roundingWords : List String := ["CEIL", "FLOOR"]

/-- What is rounded, to a whole number or to some digits. -/
theorem exists_rounded {word : String} {digits : Option String} (hword : word ∈ roundingWords)
    (hfirst : first.Read dialect nesting 0 0 firstTokens) (hdigits : ∀ text ∈ digits, isNumeral text) :
    ∃ tokens, (Expr.known word (first :: digits.toList.map .verbatim)).ReadAtom dialect (nesting + 1)
      tokens := by
  have hall : ∀ word ∈ roundingWords, word ∈ parenthesizedForms := by decide
  have hform : ∀ grammar : Grammar, grammar.form? word word (some (.symbol "(")) =
      some (do return .known word (← grammar.rounded)) := by
    intro grammar
    simp only [roundingWords, List.mem_cons, List.not_mem_nil, or_false] at hword
    rcases hword with rfl | rfl <;> rfl
  cases digits with
  | none =>
    have hspells := @spells_list dialect [(first, firstTokens)] (by simpa using hfirst.isPart)
    refine ⟨_, readAtom_form (hall word hword) (by simp) (render_known _ _) hspells
      fun fuel rest hfuel => ⟨_, hform _, ?_⟩⟩
    simp at hfuel
    have hoperand := hfirst.before_mark ")" (by simp) fuel (by omega)
    simp [Grammar.rounded, parenthesized, hoperand]
  | some digits =>
    have hspells := @spells_list dialect [(first, firstTokens), (.verbatim digits, [.number digits ""])]
      (by simpa using ⟨hfirst.isPart, spells_numeral (hdigits digits rfl), by simp⟩)
    refine ⟨_, readAtom_form (hall word hword) (by simp) (render_known _ _) hspells
      fun fuel rest hfuel => ⟨_, hform _, ?_⟩⟩
    simp at hfuel
    have hoperand := hfirst.before_mark "," (by simp) fuel (by omega)
    simp [Grammar.rounded, parenthesized, hoperand]

/-- A text and the text to find it in. The first one ends before the word that could go on with it. -/
theorem exists_located
    (hfirst : first.Read dialect nesting (Level.range.precedence dialect)
      (Level.range.precedence dialect) firstTokens)
    (hsecond : second.Read dialect nesting 0 0 secondTokens) :
    ∃ tokens, (Expr.known "POSITION" [.binary first "IN" second]).ReadAtom dialect
      (nesting + 1) tokens := by
  have hspells := @spells_phrase dialect [(first, firstTokens), wordPart "IN", (second, secondTokens)]
    (by simpa using ⟨hfirst.isPart, isPart_word (by decide), hsecond.isPart⟩)
  refine ⟨_, readAtom_form (by decide) (by simp) (render_known _ _) hspells fun fuel rest hfuel => ?_⟩
  simp [wordPart] at hfuel
  have hfollows : ∀ rest, Follows dialect (Level.range.precedence dialect) (.word "IN" none :: rest) :=
    fun rest => .of_ofTokens?_eq (.cons (by decide) _) (show _ = some (.inList false, rest) from rfl)
      (by simp) (Nat.le_refl _)
  have hpart := fun rest => hfirst.exprAbove_apply fuel (by omega) (hfollows rest) (Nat.le_refl _)
  have hoperand := hsecond.before_mark ")" (by simp) fuel (by omega)
  refine ⟨_, rfl, ?_⟩
  simp +decide [wordPart, Grammar.located, parenthesized, Grammar.exprTighter, Grammar.within_dialect,
    hpart, hoperand, keyword, keywords, Expr.binary]

end Forms

/-! ### Choices -/

section Choices

variable {cases : List (Expr × Expr)} {conditionTokens resultTokens : Expr × Expr → List Token}

/-- The parts of the cases of a choice. -/
def caseParts (cases : List (Expr × Expr)) : List Expr :=
  cases.flatMap fun case => [.verbatim "WHEN", case.1, .verbatim "THEN", case.2]

/-- The parts of a choice. -/
def choiceParts (subject : Option Expr) (cases : List (Expr × Expr)) (otherwise : Option Expr) :
    List Expr :=
  .verbatim "CASE" :: subject.toList ++ caseParts cases ++ clauseParts "ELSE" otherwise ++
    [.verbatim "END"]

/-- The parts of the cases, with their tokens. -/
def casePairs (conditionTokens resultTokens : Expr × Expr → List Token) (cases : List (Expr × Expr)) :
    List (Expr × List Token) :=
  cases.flatMap fun case => [wordPart "WHEN", (case.1, conditionTokens case), wordPart "THEN",
    (case.2, resultTokens case)]

theorem map_casePairs (cases : List (Expr × Expr)) :
    (casePairs conditionTokens resultTokens cases).map Prod.fst = caseParts cases := by
  simp [casePairs, caseParts, wordPart, List.map_flatMap]

theorem casePairs_cons (case : Expr × Expr) (cases : List (Expr × Expr)) :
    (casePairs conditionTokens resultTokens (case :: cases)).flatMap Prod.snd =
      .word "WHEN" none :: (conditionTokens case ++ .word "THEN" none :: (resultTokens case ++
        (casePairs conditionTokens resultTokens cases).flatMap Prod.snd)) := by
  simp [casePairs, wordPart]

theorem length_casePairs (cases : List (Expr × Expr)) :
    cases.length ≤ ((casePairs conditionTokens resultTokens cases).flatMap Prod.snd).length := by
  induction cases with
  | nil => simp
  | cons case cases ih =>
    rw [casePairs_cons]
    simp only [List.length_cons, List.length_append]
    omega

theorem isPart_casePairs
    (hconditions : ∀ case ∈ cases, IsPart dialect (case.1, conditionTokens case))
    (hresults : ∀ case ∈ cases, IsPart dialect (case.2, resultTokens case)) :
    ∀ part ∈ casePairs conditionTokens resultTokens cases, IsPart dialect part := by
  intro part hpart
  obtain ⟨case, hcase, hpart⟩ := List.mem_flatMap.1 hpart
  simp only [List.mem_cons, List.not_mem_nil, or_false] at hpart
  rcases hpart with rfl | rfl | rfl | rfl
  · exact isPart_word (by decide)
  · exact hconditions case hcase
  · exact isPart_word (by decide)
  · exact hresults case hcase

/-- A case, or what follows in its place, ends the operand before it. -/
theorem follows_cases (cases : List (Expr × Expr)) (hrest : Follows dialect 0 rest) :
    Follows dialect 0 ((casePairs conditionTokens resultTokens cases).flatMap Prod.snd ++ rest) := by
  cases cases with
  | nil => exact hrest
  | cons case cases =>
    rw [casePairs_cons]
    exact follows_word (by decide) 0

/-- The cases are taken one by one. Each result ends before the next case. -/
theorem casesWithin_apply
    (hconditions : ∀ case ∈ cases, case.1.Read dialect nesting 0 0 (conditionTokens case))
    (hresults : ∀ case ∈ cases, case.2.Read dialect nesting 0 0 (resultTokens case)) (fuel : Nat)
    (hfuel : 2 * ((casePairs conditionTokens resultTokens cases).flatMap Prod.snd).length < fuel)
    (hrest : Follows dialect 0 rest) (hwhen : announce ["WHEN"] rest = false) {more : Nat}
    (hmore : cases.length < more) :
    (Grammar.within dialect fuel (nesting + 1)).casesWithin more
      ((casePairs conditionTokens resultTokens cases).flatMap Prod.snd ++ rest) =
        .ok (caseParts cases, rest) := by
  induction cases generalizing more with
  | nil =>
    obtain ⟨more, rfl⟩ : ∃ n, more = n + 1 := Nat.exists_eq_add_one.2 (by omega)
    simp [casePairs, caseParts, Grammar.casesWithin, hwhen]
  | cons case cases ih =>
    obtain ⟨more, rfl⟩ : ∃ n, more = n + 1 := Nat.exists_eq_add_one.2 (by omega)
    rw [casePairs_cons] at hfuel ⊢
    simp only [List.length_cons, List.length_append] at hfuel hmore
    have hcondition := (hconditions case (by simp)).before_word "THEN" (by decide) fuel (by omega)
    have hresult := (hresults case (by simp)).expr_apply fuel (by omega)
      (@follows_cases dialect rest conditionTokens resultTokens cases hrest)
    have hothers := @ih (fun case hcase => hconditions case (List.mem_cons_of_mem _ hcase))
      (fun case hcase => hresults case (List.mem_cons_of_mem _ hcase)) (by omega) more (by omega)
    simp only [List.cons_append, List.append_assoc]
    simp +decide only [Grammar.casesWithin, bind_apply, hasKeyword_apply, hasKeywords_apply,
      announce_cons_cons, announce_nil, if_true, List.drop_succ_cons, List.drop_zero, if_false,
      hcondition, keyword, keywords, guard_apply, hresult, List.length_singleton]
    simp [hothers, caseParts]

variable {subject otherwise : Option (Expr × List Token)}

/-- The parts of a choice after its first word, with their tokens. -/
def choicePairs (conditionTokens resultTokens : Expr × Expr → List Token)
    (subject : Option (Expr × List Token)) (cases : List (Expr × Expr))
    (otherwise : Option (Expr × List Token)) : List (Expr × List Token) :=
  subject.toList ++ (casePairs conditionTokens resultTokens cases ++
    (clausePairs "ELSE" otherwise ++ [wordPart "END"]))

theorem map_choicePairs :
    (wordPart "CASE" :: choicePairs conditionTokens resultTokens subject cases otherwise).map Prod.fst =
      choiceParts (subject.map Prod.fst) cases (otherwise.map Prod.fst) := by
  cases subject <;>
    simp [choicePairs, map_casePairs, map_clausePairs, choiceParts, wordPart]

theorem flatMap_choicePairs :
    (choicePairs conditionTokens resultTokens subject cases otherwise).flatMap Prod.snd =
      subject.toList.flatMap Prod.snd ++
        ((casePairs conditionTokens resultTokens cases).flatMap Prod.snd ++
          ((clausePairs "ELSE" otherwise).flatMap Prod.snd ++ [.word "END" none])) := by
  simp [choicePairs, wordPart]

/-- The cases begin with their first word. -/
theorem exists_first_case (hne : cases ≠ []) (rest : List Token) : ∃ after,
    (casePairs conditionTokens resultTokens cases).flatMap Prod.snd ++ rest =
      .word "WHEN" none :: after := by
  obtain ⟨case, cases, rfl⟩ := List.exists_cons_of_ne_nil hne
  exact ⟨_, by rw [casePairs_cons]; rfl⟩

theorem choice_apply
    (hsubject : ∀ part ∈ subject, part.1.Read dialect nesting 0 0 part.2 ∧
      ∀ token ∈ part.2.head?, token.isKeyword "WHEN" = false)
    (hne : cases ≠ [])
    (hconditions : ∀ case ∈ cases, case.1.Read dialect nesting 0 0 (conditionTokens case))
    (hresults : ∀ case ∈ cases, case.2.Read dialect nesting 0 0 (resultTokens case))
    (hotherwise : ∀ part ∈ otherwise, part.1.Read dialect nesting 0 0 part.2) (fuel : Nat)
    (hfuel : 2 * ((choicePairs conditionTokens resultTokens subject cases
      otherwise).flatMap Prod.snd).length < fuel) (rest : List Token) :
    (Grammar.within dialect fuel (nesting + 1)).choice
      ((choicePairs conditionTokens resultTokens subject cases otherwise).flatMap Prod.snd ++ rest) =
        .ok (.phrase (choiceParts (subject.map Prod.fst) cases (otherwise.map Prod.fst)), rest) := by
  rw [flatMap_choicePairs] at hfuel ⊢
  simp only [List.length_append] at hfuel
  simp only [List.append_assoc, List.cons_append, List.nil_append]
  have hend : Follows dialect 0 (.word "END" none :: rest) := follows_word (by decide) 0
  have hclause := clause_apply (show "ELSE" ∈ clauseWords by decide) hotherwise fuel (by omega) hend
    (by simp +decide)
  have hlast := follows_clause (show "ELSE" ∈ clauseWords by decide) otherwise hend
  have hwhen : announce ["WHEN"] ((clausePairs "ELSE" otherwise).flatMap Prod.snd ++
      .word "END" none :: rest) = false :=
    announce_clause otherwise (by decide +kernel) (by simp +decide)
  have hlength := @length_casePairs conditionTokens resultTokens cases
  have hcases := casesWithin_apply hconditions hresults fuel (by omega) hlast hwhen
    (show cases.length < ((casePairs conditionTokens resultTokens cases).flatMap Prod.snd ++
      ((clausePairs "ELSE" otherwise).flatMap Prod.snd ++ .word "END" none :: rest)).length + 1 by
        simp only [List.length_append]
        omega)
  have hempty : (caseParts cases).isEmpty = false := by
    obtain ⟨case, cases, rfl⟩ := List.exists_cons_of_ne_nil hne
    simp [caseParts]
  -- Whether there is a subject is told by the first word of the cases, and nothing else of them.
  obtain ⟨after, hafter⟩ := @exists_first_case _ conditionTokens resultTokens hne
    ((clausePairs "ELSE" otherwise).flatMap Prod.snd ++ .word "END" none :: rest)
  rw [hafter] at hcases ⊢
  cases subject with
  | none =>
    have hnext : nextIsKeyword "WHEN" (.word "WHEN" none :: after) =
        .ok (true, .word "WHEN" none :: after) := by
      simp +decide [nextIsKeyword]
    simp only [Option.toList_none, List.flatMap_nil, List.nil_append, Grammar.choice, bind_apply, hnext,
      choose_apply, if_true, pure_apply, get_apply, hcases, hempty, Bool.not_false, guard_apply,
      hclause]
    simp +decide [keyword, keywords, choiceParts]
  | some part =>
    obtain ⟨hread, hfirst⟩ := hsubject part rfl
    simp only [Option.toList_some, List.flatMap_singleton] at hfuel
    have hoperand := hread.before_word "WHEN" (by decide) fuel (by omega) after
    have hnext : nextIsKeyword "WHEN" (part.2 ++ .word "WHEN" none :: after) =
        .ok (false, part.2 ++ .word "WHEN" none :: after) := by
      obtain ⟨token, tail, htokens⟩ := List.exists_cons_of_ne_nil hread.opens.ne_nil
      simp [nextIsKeyword, htokens, hfirst token (by simp [htokens])]
    simp only [Option.toList_some, List.flatMap_singleton, Grammar.choice, bind_apply, hnext,
      choose_apply, Bool.false_eq_true, if_false, pure_apply, hoperand, get_apply, hcases, hempty,
      Bool.not_false, if_true, guard_apply, hclause]
    simp +decide [keyword, keywords, choiceParts]

/-- The first case, or the subject before it, is no part of a type. -/
theorem choicePairs_start
    (hsubject : ∀ part ∈ subject, Opens part.2 ∧ ∀ token ∈ part.2.head?, token.names = false)
    (hne : cases ≠ []) (rest : List Token) :
    let tail := (choicePairs conditionTokens resultTokens subject cases otherwise).flatMap Prod.snd ++
      rest
    Encloses tail ∧ (∀ mark ∈ [".", "["], tail.head? ≠ some (.symbol mark)) ∧
      ∀ token ∈ tail.head?, token.names = false ∧ token ≠ .symbol "." := by
  intro tail
  obtain ⟨after, hafter⟩ := @exists_first_case _ conditionTokens resultTokens hne
    ((clausePairs "ELSE" otherwise).flatMap Prod.snd ++ .word "END" none :: rest)
  have htail : tail = subject.toList.flatMap Prod.snd ++ .word "WHEN" none :: after := by
    simp only [tail, flatMap_choicePairs, List.append_assoc, List.singleton_append, hafter]
  rw [htail]
  cases subject with
  | none => exact ⟨.of_head?_ne (by simp), by simp, by simp +decide⟩
  | some part =>
    obtain ⟨hopens, hnames⟩ := hsubject part rfl
    have hall := @Opens.append part.2 (.word "WHEN" none :: after) hopens (by simp +decide)
    have hmarks : ∀ mark ∈ [".", "["], mark ∈ closingMarks := by decide
    rw [Option.toList_some, List.flatMap_singleton]
    refine ⟨hall.encloses, fun mark hmark => hopens.head?_ne (hmarks mark hmark) _,
      fun token htoken => ⟨?_, ?_⟩⟩
    · obtain ⟨first, others, htokens⟩ := List.exists_cons_of_ne_nil hopens.ne_nil
      simp only [htokens, List.cons_append, List.head?_cons, Option.mem_some_iff] at htoken
      exact htoken ▸ hnames first (by simp [htokens])
    · rintro rfl
      exact hopens.head?_ne (hmarks "." (by simp)) _ htoken

/-- A choice, whose subject must not be taken for the first case. -/
theorem exists_choice {subject otherwise : Option Expr}
    (hsubject : ∀ e ∈ subject, ∃ tokens, e.Read dialect nesting 0 0 tokens ∧
      ∀ token ∈ tokens.head?, token.isKeyword "WHEN" = false ∧ token.names = false)
    (hne : cases ≠ [])
    (hconditions : ∀ case ∈ cases, ∃ tokens, case.1.Read dialect nesting 0 0 tokens)
    (hresults : ∀ case ∈ cases, ∃ tokens, case.2.Read dialect nesting 0 0 tokens)
    (hotherwise : ∀ e ∈ otherwise, ∃ tokens, e.Read dialect nesting 0 0 tokens) :
    ∃ tokens, (Expr.phrase (choiceParts subject cases otherwise)).ReadAtom dialect (nesting + 1)
      tokens := by
  choose! conditionTokens hconditions using hconditions
  choose! resultTokens hresults using hresults
  obtain ⟨otherwise, rfl, hotherwiseRead⟩ := exists_pair hotherwise
  obtain ⟨subject, rfl, hsubjectRead⟩ := exists_pair hsubject
  have hspells := @spells_phrase dialect
    (wordPart "CASE" :: choicePairs conditionTokens resultTokens subject cases otherwise) (by
      simp only [choicePairs, List.forall_mem_cons, List.forall_mem_append]
      exact ⟨isPart_word (by decide),
        fun part hpart => (hsubjectRead part (by simpa using hpart)).1.isPart,
        isPart_casePairs (fun case hcase => (hconditions case hcase).isPart)
          fun case hcase => (hresults case hcase).isPart,
        isPart_clausePairs (by decide) fun part hpart => (hotherwiseRead part hpart).isPart,
        isPart_word (by decide), by simp⟩)
  rw [map_choicePairs] at hspells
  have hstart := @choicePairs_start cases conditionTokens resultTokens subject otherwise
    (fun part hpart => ⟨(hsubjectRead part hpart).1.opens,
      fun token htoken => ((hsubjectRead part hpart).2 token htoken).2⟩) hne
  refine ⟨_, hspells, ?_, fun fuel rest hfuel hrest => ?_⟩
  · have hnames := (hstart []).2.2
    rw [List.append_nil] at hnames
    exact .of_cons (by decide +kernel) (.inr hnames) (.of_head?_ne (by simp))
  · simp only [List.flatMap_cons, wordPart, List.length_append, List.length_singleton] at hfuel
    have hread := choice_apply (fun part hpart => ⟨(hsubjectRead part hpart).1,
      fun token htoken => ((hsubjectRead part hpart).2 token htoken).1⟩) hne hconditions hresults
        hotherwiseRead fuel (by omega) rest
    obtain ⟨hencloses, hmarks, -⟩ := hstart rest
    simp only [List.flatMap_cons, wordPart, List.cons_append, List.nil_append]
    exact wholeOperand_of_form (typedText_of_word (by decide +kernel) (hmarks "." (by simp))
      (hmarks "[" (by simp)) hencloses) (show _ = some "CASE" by decide) rfl hread

end Choices

/-! ### Texts with their types -/

section Typed

variable {limit : Nat} {text : String}

/-- A text with its type before it. -/
theorem readWhole_typed {form : TypeForm} {sizes : List TypeSize} {ending : List String}
    (hform : form ∈ typeForms) (hinterval : form.keyword ≠ "INTERVAL")
    (hsizes : form.arguments.Admits sizes) (hending : ending ∈ form.endings)
    (htext : IsPlainString dialect text '\'') :
    (Expr.verbatim ((DataType.known form.written (sizes.map TypeSize.render) (trailing ending)).render
      ++ " " ++ quoted '\'' text)).ReadWhole dialect nesting limit
        (.word form.written none :: (sizeTokens sizes ++ ending.map (Token.word · none) ++
          [.string text '\''])) := by
  have hfacts : ∀ form ∈ typeForms, (Token.word form.written none).leads = false ∧
      (∀ ending ∈ form.endings, ∀ word ∈ ending, (Token.word word none).names = false) ∧
        (form.written = "INTERVAL" → form.keyword = "INTERVAL") := by
    decide +kernel
  obtain ⟨hleads, hnames, hwritten⟩ := hfacts form hform
  have htype : DataType.ReadFrom dialect _ _ := DataType.readFrom_known hform hsizes hending
  have hspells := htype.spells.separated separates_blank (spells_string htext) (by simp)
  refine ⟨by simpa [Expr.render] using hspells, .of_cons hleads (.inr ?_) (.of_head?_ne (by simp)),
    fun fuel rest _ _ => ?_⟩
  · intro token htoken
    unfold sizeTokens at htoken
    split at htoken
    · cases ending with
      | nil =>
        cases htoken
        simp [Token.names]
      | cons word ending =>
        cases htoken
        exact ⟨hnames _ hending word (by simp), by simp⟩
    · cases htoken
      simp [Token.names]
  · have hread := @DataType.ReadFrom.dataType_apply dialect (.string text '\'' :: rest) _ _ htype
      (.cons (by simp [Token.extendsType]) rest) (by simp)
    have hne : form.written ≠ "INTERVAL" := fun heq => hinterval (hwritten heq)
    simp only [List.cons_append, List.append_assoc, List.nil_append] at hread ⊢
    simp [Grammar.wholeOperand, Grammar.typedText, Grammar.within_dialect, hread, hne, Reader.text]

/-- A unit of time is told by its word, and gives no collation to the text before it. -/
theorem unit_facts {word : String} (hword : word ∈ Grammar.timeFields) :
    word ∈ innerWords ∧ (Token.word word none).isKeyword "COLLATE" = false ∧
      Grammar.timeFields.find? (Token.word word none).isKeyword = some word := by
  have hall : ∀ word ∈ Grammar.timeFields, (Token.word word none).isKeyword "COLLATE" = false ∧
      Grammar.timeFields.find? (Token.word word none).isKeyword = some word := by
    decide +kernel
  exact ⟨List.mem_append_right _ (List.mem_append_left _ hword), hall word hword⟩

/-- After its keyword a span of time is a text and its unit. -/
theorem interval_apply {quote : Char} {unit : Option String} (hdialect : dialect ≠ .mysql)
    (hunit : ∀ word ∈ unit, word ∈ Grammar.timeFields) (fuel : Nat)
    (hrest : Follows dialect limit rest) :
    (Grammar.within dialect (fuel + 1) nesting).interval
      (.string text quote :: (unit.toList.map (Token.word · none) ++ rest)) =
        .ok (.phrase (.verbatim "INTERVAL" :: .string text quote :: unit.toList.map .verbatim),
          rest) := by
  have hstring : ∀ rest, announce ["COLLATE"] rest = false →
      (Grammar.within dialect (fuel + 1) nesting).operand (.string text quote :: rest) =
        .ok (.string text quote, rest) := by
    intro rest hrest
    rw [Grammar.within_operand, wholeOperand_string]
    simp [Grammar.collated, hrest]
  have hto : announce ["TO"] rest = false := hrest.ends.announce_eq (by decide) []
  have hopen : nextIsSymbol "(" rest = .ok (false, rest) := by
    have hhead := hrest.ends.head?_ne (show .symbol "(" ∉ endTokens by decide)
    simp only [nextIsSymbol, bind_apply, peek_apply, hhead, decide_false, pure_apply]
  cases unit with
  | none =>
    have hunits : hasOneOf Grammar.timeFields rest = .ok (none, rest) :=
      hrest.ends.hasOneOf_eq (by decide)
    simp [Grammar.interval, Grammar.within_dialect, hdialect, hstring rest hrest.uncollated,
      Grammar.markOf, hunits, Grammar.precision, hopen, hto]
  | some word =>
    obtain ⟨-, hcollate, hfind⟩ := unit_facts (hunit word rfl)
    have hvalue := hstring (.word word none :: rest) (by simpa using hcollate)
    -- After seconds the reader looks for two sizes, after any other unit for one.
    by_cases hsecond : word = "SECOND"
    · subst hsecond
      simp [Grammar.interval, Grammar.within_dialect, hdialect, hvalue, Grammar.markOf, hasOneOf,
        hfind, hopen]
    · simp [Grammar.interval, Grammar.within_dialect, hdialect, hvalue, Grammar.markOf, hasOneOf,
        hfind, hsecond, Grammar.precision, hopen, hto]

/-- A span of time, with its unit if it has one. MySQL takes any expression there. -/
theorem readWhole_interval {quote : Char} {unit : Option String} (hdialect : dialect ≠ .mysql)
    (htext : IsPlainString dialect text quote) (hunit : ∀ word ∈ unit, word ∈ Grammar.timeFields) :
    (Expr.phrase (.verbatim "INTERVAL" :: .string text quote :: unit.toList.map .verbatim)).ReadWhole
      dialect nesting limit
      (.word "INTERVAL" none :: .string text quote :: unit.toList.map (Token.word · none)) := by
  have hspells := @spells_phrase dialect
    (wordPart "INTERVAL" :: (.string text quote, [.string text quote])
    :: unit.toList.map wordPart) (by
      simp only [List.forall_mem_cons, List.forall_mem_map]
      refine ⟨isPart_word (by decide), ⟨spells_string htext, by simp⟩, fun word hword => isPart_word ?_⟩
      exact (unit_facts (hunit word (by simpa using hword))).1)
  refine ⟨?_, .of_cons (by decide +kernel) (.inr (by simp [Token.names])) (.of_head?_ne (by simp)),
    fun fuel rest hfuel hrest => ?_⟩
  · cases unit <;> simpa [wordPart] using hspells
  · simp only [List.length_cons] at hfuel
    obtain ⟨fuel, rfl⟩ : ∃ n, fuel = n + 1 := Nat.exists_eq_add_one.2 (by omega)
    have hinterval : DataType.ReadFrom dialect (.known "INTERVAL" [] "") [.word "INTERVAL" none] :=
      @DataType.readFrom_known dialect ⟨"INTERVAL", "INTERVAL", [], .none, false, false⟩ [] []
        (by simp [typeForms]) rfl (by decide)
    have htype := fun rest => @DataType.ReadFrom.dataType_apply dialect (.string text quote :: rest) _ _
      hinterval (.cons (by simp [Token.extendsType]) rest) (by simp)
    have hread := @interval_apply dialect rest nesting limit text quote unit hdialect hunit fuel hrest
    simp only [List.cons_append, List.nil_append] at htype ⊢
    simp [Grammar.wholeOperand, Grammar.typedText, Grammar.within_dialect, htype, hread]

end Typed

/-! ### Queries -/

/-- A query is read back from the tokens of its written form, where it stands in parentheses. -/
structure Expr.ReadQuery (dialect : Dialect) (nesting : Nat) (query : Expr) (tokens : List Token) :
    Prop where
  /-- These are its tokens. -/
  spells : Spells dialect query.render tokens
  /-- They begin as a query does. -/
  announced : ∃ first others, tokens = first :: others ∧
    (first.isKeyword "SELECT" || first.isKeyword "WITH")
  /-- They are taken for the query. -/
  reads : ∀ fuel rest, 2 * tokens.length + 2 ≤ fuel →
    (Grammar.within dialect fuel nesting).wholeQuery (tokens ++ .symbol ")" :: rest) =
      .ok (query, .symbol ")" :: rest)

section Queries

variable {query : Expr} {tokens : List Token}

theorem Expr.ReadQuery.nextIsQuery_apply (h : query.ReadQuery dialect nesting tokens)
    (rest : List Token) :
    Grammar.nextIsQuery (tokens ++ rest) = .ok (true, tokens ++ rest) := by
  obtain ⟨first, others, rfl, hfirst⟩ := h.announced
  simpa [Grammar.nextIsQuery, nextIsKeyword] using hfirst

theorem Expr.ReadQuery.query_apply (h : query.ReadQuery dialect nesting tokens) {fuel : Nat}
    (hfuel : 2 * tokens.length + 2 < fuel) (rest : List Token) :
    (Grammar.within dialect fuel (nesting + 1)).query (tokens ++ .symbol ")" :: rest) =
      .ok (query, .symbol ")" :: rest) := by
  obtain ⟨fuel, rfl⟩ : ∃ n, fuel = n + 1 := Nat.exists_eq_add_one.2 (by omega)
  exact h.reads fuel rest (by omega)

/-- A query in the place of an operand. -/
theorem readAtom_subquery (h : query.ReadQuery dialect nesting tokens) :
    (Expr.subquery query).ReadAtom dialect (nesting + 1)
      (.symbol "(" :: (tokens ++ [.symbol ")"])) := by
  refine ⟨by simpa [Expr.render] using h.spells.parenthesized, .of_cons (by decide) (.inl ⟨"(", rfl⟩)
    (.parenthesized h.spells.closed (by simp)), fun fuel rest hfuel hrest => ?_⟩
  simp only [List.length_cons, List.length_append, List.length_nil] at hfuel
  have hquery := h.query_apply (show 2 * tokens.length + 2 < fuel by omega) rest
  have hpoint : hasSymbol "." rest = .ok (false, rest) := hrest.hasSymbol_eq (by decide)
  rw [List.cons_append, List.append_assoc, List.singleton_append]
  apply wholeOperand_of_symbol
  simp [Grammar.afterSymbol, Grammar.signLevel?, Grammar.enclosed, h.nextIsQuery_apply, hquery, hpoint]

/-- Whether a query finds nothing. -/
theorem readAtom_notExists (h : query.ReadQuery dialect nesting tokens) :
    (Expr.phrase [.verbatim "NOT EXISTS", .group [query]]).ReadAtom dialect (nesting + 1)
      (.word "NOT" none :: .word "EXISTS" none :: .symbol "(" :: (tokens ++ [.symbol ")"])) := by
  have hwords : ∀ word ∈ ["NOT", "EXISTS"], isWord dialect word :=
    have hall : ∀ word ∈ ["NOT", "EXISTS"], isAsciiWord word := by decide +kernel
    fun word hword => isWord_of_isAsciiWord (hall word hword)
  refine ⟨?_, .of_cons (by decide +kernel) (.inr (by simp +decide)) (.of_head?_ne (by simp)),
    fun fuel rest hfuel hrest => ?_⟩
  · have htext : (Expr.phrase [.verbatim "NOT EXISTS", .group [query]]).render =
        String.intercalate " " ["NOT", "EXISTS"] ++ " " ++ ("(" ++ query.render ++ ")") := by
      simp [Expr.render, renderAll, String.intercalate_cons_cons]
    rw [htext]
    exact (spells_words hwords).separated separates_blank h.spells.parenthesized (by simp)
  · simp only [List.length_cons, List.length_append, List.length_nil] at hfuel
    have hquery := h.query_apply (show 2 * tokens.length + 2 < fuel by omega) rest
    rw [List.cons_append, List.cons_append, List.cons_append, List.append_assoc, List.singleton_append]
    refine wholeOperand_of_form (typedText_of_word (by decide +kernel) (by simp) (by simp)
      (.of_head?_ne (by simp))) (show _ = some "NOT" by decide) rfl ?_
    simp +decide [Grammar.existence, parenthesized, hquery]

/-- Whether a query finds anything. -/
theorem readAtom_exists (h : query.ReadQuery dialect nesting tokens) :
    (Expr.phrase [.verbatim "EXISTS", .group [query]]).ReadAtom dialect (nesting + 1)
      (.word "EXISTS" none :: .symbol "(" :: (tokens ++ [.symbol ")"])) := by
  refine readAtom_form (by decide) (show " " ∈ ["", " "] by simp) ?_ h.spells fun fuel rest hfuel => ?_
  · simp [Expr.render, renderAll, String.intercalate_cons_cons]
  · have hquery := h.query_apply hfuel rest
    refine ⟨_, rfl, ?_⟩
    simp [Grammar.existence, parenthesized, hquery]

end Queries

end Schemata.Sql
