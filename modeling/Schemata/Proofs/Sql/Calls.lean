import Schemata.Proofs.Sql.Operands

/-!
# Groups, lists and calls are read back

Expressions in parentheses are read back one by one, and so are those in brackets. A call begins as
the name of a type may, with its arguments in the place of the numbers of that type. As no text
follows, it is not taken for one.

## Main definitions

* `calledWith`: the arguments of a call as the reader gives them

## Main results

* `readAtom_group`, `readAtom_array`: expressions in parentheses and in brackets
* `readAtom_call`, `readAtom_timeCall`: calls
-/

namespace Schemata.Sql

open Reader

variable {dialect : Dialect} {rest : List Token}

/-! ### Lists of expressions -/

section Lists

variable {nesting fuel : Nat} {elements : List Expr} {tokens : Expr → List Token}

theorem renderAll_eq_map (elements : List Expr) : renderAll elements = elements.map Expr.render := by
  induction elements with
  | nil => rfl
  | cons first others ih => simp [renderAll, ih]

theorem spells_elements (h : ∀ e ∈ elements, e.Read dialect nesting 0 0 (tokens e)) :
    Spells dialect (String.intercalate ", " (renderAll elements))
      ([.symbol ","].intercalate (elements.map tokens)) := by
  rw [renderAll_eq_map]
  exact spells_intercalate (separates_comma.append separates_blank) Expr.render tokens
    fun e he => ⟨(h e he).spells, (h e he).opens.ne_nil⟩

theorem opens_elements (hne : elements ≠ []) (h : ∀ e ∈ elements, Opens (tokens e)) :
    Opens ([.symbol ","].intercalate (elements.map tokens)) := by
  obtain ⟨first, others, rfl⟩ := List.exists_cons_of_ne_nil hne
  have hfirst := h first (by simp)
  cases others with
  | nil => simpa using hfirst
  | cons second others =>
    rw [List.map_cons, List.map_cons, List.intercalate_cons_cons, List.append_assoc]
    exact hfirst.append (by simp [Token.joins, Token.names])

/-- Expressions with commas between them are taken one by one. -/
theorem separated_elements {item : Reader Expr} {mark : String} (hmark : mark ∈ [")", "]"])
    (hne : elements ≠ [])
    (hitem : ∀ e ∈ elements, ∀ mark ∈ [",", ")", "]"], ∀ rest,
      item (tokens e ++ .symbol mark :: rest) = .ok (e, .symbol mark :: rest)) (rest : List Token) :
    separated item "," ([.symbol ","].intercalate (elements.map tokens) ++ .symbol mark :: rest) =
      .ok (elements, .symbol mark :: rest) := by
  have hmarks : ∀ mark ∈ [")", "]"], mark ∈ [",", ")", "]"] ∧ mark ≠ "," := by decide
  have hall : separated item "," ([.symbol ","].intercalate (elements.map tokens) ++
      .symbol mark :: rest) = .ok (elements.map id, .symbol mark :: rest) := by
    apply separated_apply tokens id
      (fun rest => ∃ mark ∈ [",", ")", "]"], rest.head? = some (.symbol mark)) hne
    · rintro e he rest ⟨mark, hmark, hhead⟩
      obtain ⟨others, rfl⟩ : ∃ others, rest = .symbol mark :: others := by
        cases rest <;> simp_all
      exact hitem e he mark hmark others
    · exact fun e _ rest _ => ⟨",", by simp, rfl⟩
    · exact ⟨mark, (hmarks mark hmark).1, rfl⟩
    · simpa using (hmarks mark hmark).2
  rwa [List.map_id] at hall

theorem length_le_of_mem (tokens : Expr → List Token) {e : Expr} (he : e ∈ elements) :
    (tokens e).length ≤ ([Token.symbol ","].intercalate (elements.map tokens)).length :=
  length_le_length_intercalate (List.mem_map_of_mem he)

theorem exprs_apply {mark : String} (hmark : mark ∈ [")", "]"]) (fuel : Nat) (rest : List Token)
    (hne : elements ≠ []) (h : ∀ e ∈ elements, e.Read dialect nesting 0 0 (tokens e))
    (hfuel : 2 * ([Token.symbol ","].intercalate (elements.map tokens)).length < fuel) :
    (Grammar.within dialect fuel (nesting + 1)).exprs
      ([.symbol ","].intercalate (elements.map tokens) ++ .symbol mark :: rest) =
        .ok (elements, .symbol mark :: rest) := by
  refine separated_elements hmark hne (fun e he mark hmark rest => ?_) rest
  have hlength := length_le_of_mem tokens he
  exact (h e he).expr_apply fuel (by omega) (follows_mark hmark 0)

end Lists

/-! ### Groups -/

section Groups

variable {nesting : Nat} {elements : List Expr} {tokens : Expr → List Token}

theorem readAtom_group (hne : elements ≠ [])
    (h : ∀ e ∈ elements, e.Read dialect nesting 0 0 (tokens e)) :
    (Expr.group elements).ReadAtom dialect (nesting + 1)
      (.symbol "(" :: ([.symbol ","].intercalate (elements.map tokens) ++ [.symbol ")"])) := by
  have hspells := spells_elements h
  refine ⟨hspells.parenthesized, .of_cons (by decide) (.inl ⟨"(", rfl⟩)
    (.parenthesized hspells.closed (by simp)), fun fuel rest hfuel hrest => ?_⟩
  simp only [List.length_cons, List.length_append, List.length_nil] at hfuel
  have hexprs := @exprs_apply _ _ _ _ ")" (by simp) fuel rest hne h (by omega)
  have hquery := (opens_elements hne fun e he => (h e he).opens).nextIsQuery_apply (.symbol ")" :: rest)
  have hpoint : hasSymbol "." rest = .ok (false, rest) := hrest.hasSymbol_eq (by decide)
  rw [List.cons_append, List.append_assoc, List.singleton_append]
  apply wholeOperand_of_symbol
  simp [Grammar.afterSymbol, Grammar.signLevel?, Grammar.enclosed, hquery, hexprs, hpoint]

/-- The elements of a list are in brackets, which in SQLite are those of names. -/
theorem readAtom_array (hdialect : dialect ≠ .sqlite)
    (h : ∀ e ∈ elements, e.Read dialect nesting 0 0 (tokens e)) :
    (Expr.between "ARRAY[" (.list elements) "]").ReadAtom dialect (nesting + 1)
      (.word "ARRAY" none :: .symbol "[" ::
        ([.symbol ","].intercalate (elements.map tokens) ++ [.symbol "]"])) := by
  have hword : isWord dialect "ARRAY" := isWord_of_isAsciiWord (by decide +kernel)
  have hkeyword : (Token.word "ARRAY" none).keyword? = some "ARRAY" := by decide
  refine ⟨?_, .of_cons (by decide) (.inr (by simp [Token.names])) (.of_head?_ne (by simp)),
    fun fuel rest hfuel _ => ?_⟩
  · have htext : (Expr.between "ARRAY[" (.list elements) "]").render =
        "ARRAY" ++ ("[" ++ String.intercalate ", " (renderAll elements) ++ "]") := by
      simp [Expr.between, Expr.render, ← String.toList_inj]
    have hbracketed : Spells dialect ("[" ++ String.intercalate ", " (renderAll elements) ++ "]")
        (.symbol "[" :: ([.symbol ","].intercalate (elements.map tokens) ++ [.symbol "]"])) :=
      (spells_elements h).bracketed hdialect
    rw [htext]
    refine (spells_word hword).append hbracketed ?_
    simp only [String.toList_append, List.append_assoc]
    exact .of_mem (show '[' ∈ delimiters by decide) _
  · simp only [List.length_cons, List.length_append, List.length_nil] at hfuel
    -- The word begins a type, too, but not with a bracket like this one.
    have htyped : (Grammar.within dialect fuel (nesting + 1)).typedText (.word "ARRAY" none ::
        .symbol "[" :: ([.symbol ","].intercalate (elements.map tokens) ++ .symbol "]" :: rest)) =
          .error .unexpected := by
      apply typedText_of_error
      simp [dataType, typeWithin, Token.isKeyword, hkeyword, symbol]
    have helements : (Grammar.within dialect fuel (nesting + 1)).elements
        ([.symbol ","].intercalate (elements.map tokens) ++ .symbol "]" :: rest) =
          .ok (elements, rest) := by
      by_cases hempty : elements = []
      · simp [hempty, Grammar.elements]
      · have hexprs := @exprs_apply _ _ _ _ "]" (by simp) fuel rest hempty h (by omega)
        have hclose : hasSymbol "]" ([.symbol ","].intercalate (elements.map tokens) ++
            .symbol "]" :: rest) = .ok (false, _) :=
          hasSymbol_of_head ((opens_elements hempty fun e he => (h e he).opens).head?_ne (by decide) _)
        simp [Grammar.elements, hclose, hexprs]
    rw [List.cons_append, List.cons_append, List.append_assoc, List.singleton_append]
    refine wholeOperand_of_form htyped hkeyword rfl ?_
    simp [helements]

end Groups

/-! ### Calls -/

section Calls

variable {nesting fuel : Nat} {elements : List Expr} {tokens : Expr → List Token}

/-- Nothing makes what stands before it the name of an argument. -/
theorem argumentMark_apply {grammar : Grammar} (hnames : ∀ token ∈ rest.head?, token.names = false)
    (hcolon : grammar.dialect = .postgresql → rest.head? ≠ some (.symbol ":")) :
    grammar.argumentMark rest = .error .unexpected := by
  have hvalue : announce ["VALUE"] rest = false := by
    cases rest with
    | nil => simp
    | cons token rest =>
      have htoken := hnames token rfl
      simp only [Token.names, Bool.or_eq_false_iff, List.any_eq_false, Bool.not_eq_true] at htoken
      simp [htoken.2 "VALUE" (by simp)]
  have harrow : hasSymbol "=>" rest = .ok (false, rest) := by
    apply hasSymbol_of_head
    intro hhead
    exact absurd (hnames _ hhead) (by decide)
  by_cases hdialect : grammar.dialect = .postgresql
  · simp [Grammar.argumentMark, hvalue, harrow, hdialect, symbol, hasSymbol_of_head (hcolon hdialect)]
  · simp [Grammar.argumentMark, hvalue, harrow, hdialect]

/-- An expression is an argument that is not given by name. -/
theorem argument_apply {grammar : Grammar} {e : Expr} {tokens : List Token} {mark : String}
    (hread : grammar.expr (tokens ++ .symbol mark :: rest) = .ok (e, .symbol mark :: rest))
    (hopens : Opens tokens) (hmark : mark ∈ [",", ")", "]"]) :
    grammar.argument (tokens ++ .symbol mark :: rest) = .ok (e, .symbol mark :: rest) := by
  have hmarks : ∀ mark ∈ [",", ")", "]"], (Token.symbol mark).joins = false ∧
      (Token.symbol mark).names = false ∧ mark ≠ ":" ∧ mark ≠ "." := by
    decide
  obtain ⟨hjoins, hnames, hcolon, hpoint⟩ := hmarks mark hmark
  have hstar := hopens.star (.symbol mark :: rest) (by simpa using hpoint)
  -- PostgreSQL takes an expression for the name of the argument first, the others a mere name.
  by_cases hdialect : grammar.dialect = .postgresql
  · have hnone : grammar.argumentMark (.symbol mark :: rest) = .error .unexpected :=
      argumentMark_apply (by simpa using hnames) (by simp [hcolon])
    simp [Grammar.argument, Grammar.argumentAfter, hdialect, hstar, hread, hnone]
  · have hnone : (do grammar.argumentAfter (.name [← name]) : Reader Expr)
        (tokens ++ .symbol mark :: rest) = .error .unexpected := by
      have hnamed : ∀ name others, (∀ token ∈ others.head?, token.names = false) →
          grammar.argumentAfter name others = .error .unexpected := by
        intro name others hothers
        have hmark := argumentMark_apply hothers fun h => absurd h hdialect
        simp [Grammar.argumentAfter, hmark]
      obtain ⟨first, others, heq, -, hsecond⟩ :=
        (@Opens.append _ (.symbol mark :: rest) hopens (by simpa using hjoins)).starts
      rw [heq]
      rcases hsecond with ⟨mark, rfl⟩ | hothers
      · simp [name]
      · cases first <;> simp [name, hnamed _ others hothers]
    have hattempt : attempt (do grammar.argumentAfter (.name [← name]) : Reader Expr)
        (tokens ++ .symbol mark :: rest) = .ok (none, tokens ++ .symbol mark :: rest) := by
      rw [attempt_apply, hnone]
    rw [Grammar.argument, if_pos hdialect, bind_apply, hattempt]
    simp [Grammar.starOrExpr, hstar, hread]

/-- What a call makes of its arguments. -/
def calledWith (elements : List Expr) : List Expr :=
  if elements.isEmpty then [] else [.phrase [.list elements]]

theorem render_call (path : List Name) (elements : List Expr) :
    (Expr.call path (calledWith elements)).render =
      renderPath path ++ ("(" ++ String.intercalate ", " (renderAll elements) ++ ")") := by
  by_cases hempty : elements = []
  · simp [hempty, calledWith, Expr.render, renderAll, ← String.toList_inj]
  · simp [hempty, calledWith, Expr.render, renderAll, String.append_assoc]

theorem arguments_apply (fuel : Nat) (rest : List Token)
    (h : ∀ e ∈ elements, e.Read dialect nesting 0 0 (tokens e))
    (hfuel : 2 * ([Token.symbol ","].intercalate (elements.map tokens)).length < fuel) :
    (Grammar.within dialect fuel (nesting + 1)).arguments
      ([.symbol ","].intercalate (elements.map tokens) ++ .symbol ")" :: rest) =
        .ok (calledWith elements, rest) := by
  by_cases hempty : elements = []
  · simp [hempty, calledWith, Grammar.arguments, Grammar.missingValues, Grammar.mark]
  · have hopens := opens_elements hempty fun e he => (h e he).opens
    have hmissing := (@Opens.append _ (.symbol ")" :: rest) hopens
      (by simp [Token.joins, Token.names])).missingValues_apply
    have hclose : hasSymbol ")" ([.symbol ","].intercalate (elements.map tokens) ++
        .symbol ")" :: rest) = .ok (false, [.symbol ","].intercalate (elements.map tokens) ++
          .symbol ")" :: rest) := hasSymbol_of_head (hopens.head?_ne (by decide) _)
    have hall := hopens.announce_eq (show "ALL" ∈ openingWords by decide) [] (.symbol ")" :: rest)
    have hdistinct :=
      hopens.announce_eq (show "DISTINCT" ∈ openingWords by decide) [] (.symbol ")" :: rest)
    have helements : separated (Grammar.within dialect fuel (nesting + 1)).argument ","
        ([.symbol ","].intercalate (elements.map tokens) ++ .symbol ")" :: rest) =
          .ok (elements, .symbol ")" :: rest) := by
      refine separated_elements (by simp) hempty (fun e he mark hmark rest => ?_) rest
      have hlength := length_le_of_mem tokens he
      have hread := (h e he).expr_apply fuel (by omega) (@follows_mark dialect rest mark hmark 0)
      exact argument_apply hread (h e he).opens hmark
    have hafter : Grammar.missingValues (.symbol ")" :: rest) = .ok ([], .symbol ")" :: rest) := by
      simp [Grammar.missingValues, Grammar.mark]
    simp [Grammar.arguments, hmissing, hclose, Grammar.mark, hall, hdistinct, helements,
      Grammar.clause, Grammar.overflow, hafter, calledWith, hempty]

/-- Nothing tells which rows a function is applied to where the expression ends. -/
theorem call_apply {grammar : Grammar} {tokens : List Token} {arguments : List Expr} (path : List Name)
    (h : grammar.arguments tokens = .ok (arguments, rest)) (hrest : Ends rest) :
    grammar.call path tokens = .ok (.phrase [.call path arguments], rest) := by
  have hwithin := hrest.announce_eq (show "WITHIN" ∉ endWords by decide) ["GROUP"]
  have hfilter := hrest.announce_eq (show "FILTER" ∉ endWords by decide) []
  have hover := hrest.announce_eq (show "OVER" ∉ endWords by decide) []
  have hnulls : hasOneOf ["RESPECT", "IGNORE"] rest = .ok (none, rest) :=
    hrest.hasOneOf_eq (by decide)
  by_cases hdialect : grammar.dialect = .mysql <;>
    simp [Grammar.call, h, Grammar.clause, hwithin, Grammar.filter, hdialect, hfilter,
      Grammar.nullTreatment, hnulls, hover]

theorem delimited_parenthesized (text : String) : Delimited dialect ("(" ++ text ++ ")").toList := by
  simp only [String.toList_append, List.append_assoc]
  exact .of_mem (show '(' ∈ delimiters by decide) _

theorem readAtom_call {first : Name} {others : List Name} (hname : first.IsFree dialect)
    (hothers : ∀ name ∈ others, name.IsPlain dialect)
    (h : ∀ e ∈ elements, e.Read dialect nesting 0 0 (tokens e)) :
    (Expr.phrase [.call (first :: others) (calledWith elements)]).ReadAtom dialect (nesting + 1)
      (namesTokens "." (first :: others) ++ .symbol "(" ::
        ([.symbol ","].intercalate (elements.map tokens) ++ [.symbol ")"])) := by
  have helements := spells_elements h
  have hpath : ∀ name ∈ first :: others, name.IsPlain dialect := by
    simpa using ⟨hname.isPlain, hothers⟩
  refine ⟨?_, opens_path hname.leads_eq others (by simp [Token.names]),
    fun fuel rest hfuel hrest => ?_⟩
  · have htext : (Expr.phrase [.call (first :: others) (calledWith elements)]).render =
        renderPath (first :: others) ++
          ("(" ++ String.intercalate ", " (renderAll elements) ++ ")") := by
      simp [← render_call, Expr.render, renderAll]
    rw [htext]
    exact (spells_path hpath).append helements.parenthesized (delimited_parenthesized _)
  · simp only [List.length_cons, List.length_append, List.length_nil] at hfuel
    have hdialect : (Grammar.within dialect fuel (nesting + 1)).dialect = dialect :=
      Grammar.within_dialect fuel (nesting + 1)
    have harguments := arguments_apply fuel rest h (by omega)
    -- The name is taken neither for a type nor for the keyword of another operand.
    have htyped := @Name.IsFree.typedText_eq dialect (.symbol "(" ::
        ([.symbol ","].intercalate (elements.map tokens) ++ .symbol ")" :: rest))
      (Grammar.within dialect fuel (nesting + 1)) first hname others (by simp) (by simp)
      (.parenthesized helements.closed (hrest.head?_ne (by decide)))
      fun form hform hkeyword hinterval =>
        typedText_of_called hform hkeyword hinterval helements.closed hrest
    simp only [List.append_assoc, List.cons_append, List.nil_append]
    rw [namesTokens_eq, List.cons_append] at htyped ⊢
    apply wholeOperand_of_name htyped
    · intro keyword hkeyword
      rw [← hdialect] at hname
      exact hname.form?_eq_none hkeyword _
    · rw [← hdialect] at hpath
      rw [nameOrCall_eq hpath (endsName_of_mem (by simp) _) (by simp)]
      simp [call_apply (first :: others) harguments hrest]

/-- The words for values that only the time tells may be given a precision. -/
theorem readAtom_timeCall {text : String} (htext : isWord dialect text)
    (hword : ∃ word ∈ timeWords, (Token.word text none).keyword? = some word)
    (h : ∀ e ∈ elements, e.Read dialect nesting 0 0 (tokens e)) :
    (Expr.call [⟨text, none⟩] (calledWith elements)).ReadAtom dialect (nesting + 1)
      (.word text none :: .symbol "(" ::
        ([.symbol ","].intercalate (elements.map tokens) ++ [.symbol ")"])) := by
  obtain ⟨word, hmem, hkeyword⟩ := hword
  have hfacts : ∀ word ∈ timeWords, (word ≠ "ARRAY" ∧ ∀ form ∈ typeForms, word ≠ form.keyword) ∧
      ∀ other ∈ openingWords, word ≠ other := by
    decide +kernel
  obtain ⟨⟨harray, hforms⟩, hopening⟩ := hfacts word hmem
  have htype : (Token.word text none).opensType = false := by
    simpa [Token.opensType, Token.isKeyword, hkeyword, harray] using hforms
  have hleads : (Token.word text none).leads = false := by
    simpa [Token.leads, Token.isKeyword, hkeyword] using hopening
  have helements := spells_elements h
  refine ⟨?_, .of_cons hleads (.inr (by simp [Token.names])) (.of_head?_ne (by simp)),
    fun fuel rest hfuel hrest => ?_⟩
  · rw [render_call]
    have hname : renderPath [⟨text, none⟩] = text := by simp [renderPath, Name.render]
    rw [hname]
    exact (spells_word htext).append helements.parenthesized (delimited_parenthesized _)
  · simp only [List.length_cons, List.length_append, List.length_nil] at hfuel
    have harguments := arguments_apply fuel rest h (by omega)
    simp only [List.cons_append, List.append_assoc, List.nil_append]
    have hform : ∃ form, (Grammar.within dialect fuel (nesting + 1)).form? text word
        (some (.symbol "(")) = some form ∧
          form (.symbol "(" ::
              ([.symbol ","].intercalate (elements.map tokens) ++ .symbol ")" :: rest)) =
            .ok (.call [⟨text, none⟩] (calledWith elements), rest) := by
      simp only [timeWords, List.mem_cons, List.not_mem_nil, or_false] at hmem
      rcases hmem with rfl | rfl | rfl | rfl | rfl <;> exact ⟨_, rfl, by simp [harguments]⟩
    obtain ⟨form, hform, hread⟩ := hform
    refine wholeOperand_of_form (typedText_of_word htype (by simp) (by simp) ?_) hkeyword hform hread
    exact .parenthesized helements.closed (hrest.head?_ne (by decide))

end Calls

end Schemata.Sql
