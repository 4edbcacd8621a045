import Schemata.Proofs.Sql.Options

/-!
# Types in the place of operands

An operand may be a text with its type before it. So whatever word an operand begins with, it is first
tried as the name of a type, with numbers in parentheses and brackets behind it. It is no type if
neither a text nor a bracket follows, be it the word itself or what stands in parentheses behind it.

## Main definitions

* `Encloses`: a parenthesis is closed, and no bracket follows
* `EndsName`: what follows a name in an expression
* `Reader.StaysInside`: readers that take no parentheses

## Main results

* `typedText_of_path`: names of types that SQL does not know
* `typedText_of_keyword`, `typedText_of_called`: keywords of types, alone and with parentheses behind
-/

namespace Schemata.Sql

open Reader

variable {dialect : Dialect} {rest : List Token}

/-! ### What stands in parentheses -/

/-- A parenthesis at the beginning is closed, and no bracket follows. -/
def Encloses (tokens : List Token) : Prop :=
  ∀ others, tokens = .symbol "(" :: others →
    ∃ inner after, others = inner ++ .symbol ")" :: after ∧ Closed inner ∧
      after.head? ≠ some (.symbol "[")

theorem Encloses.of_head?_ne {tokens : List Token} (h : tokens.head? ≠ some (.symbol "(")) :
    Encloses tokens := by
  rintro others rfl
  exact absurd rfl h

theorem Encloses.parenthesized {inner : List Token} (hinner : Closed inner)
    (hrest : rest.head? ≠ some (.symbol "[")) :
    Encloses (.symbol "(" :: (inner ++ .symbol ")" :: rest)) := by
  rintro others heq
  exact ⟨inner, rest, (List.cons.inj heq).2.symm, hinner, hrest⟩

theorem Encloses.append {tokens more : List Token} (h : Encloses tokens) (hne : tokens ≠ [])
    (hmore : more.head? ≠ some (.symbol "[")) : Encloses (tokens ++ more) := by
  intro others heq
  obtain ⟨first, tail, rfl⟩ := List.exists_cons_of_ne_nil hne
  obtain ⟨rfl, rfl⟩ := List.cons.inj heq
  obtain ⟨inner, after, rfl, hinner, hafter⟩ := h tail rfl
  refine ⟨inner, after ++ more, by simp, hinner, ?_⟩
  cases after with
  | nil => exact hmore
  | cons second after => exact hafter

/-- What is in parentheses ends with the first closing one, unless another one is opened before it. -/
theorem after_eq_of_closed {inner inner' after after' : List Token} (hinner : Closed inner)
    (hopen : .symbol "(" ∉ inner') (hclose : .symbol ")" ∉ inner')
    (heq : inner ++ .symbol ")" :: after = inner' ++ .symbol ")" :: after') : after = after' := by
  rcases List.append_eq_append_iff.1 heq with ⟨between, rfl, hbetween⟩ | ⟨between, rfl, hbetween⟩
  · cases between with
    | nil => exact (List.cons.inj hbetween).2
    | cons first between =>
      obtain ⟨rfl, -⟩ := List.cons.inj hbetween
      simp at hclose
  · cases between with
    | nil => exact (List.cons.inj hbetween).2.symm
    | cons first between =>
      -- The parenthesis that closes the shorter one would close the longer one first.
      obtain ⟨rfl, -⟩ := List.cons.inj hbetween
      have htaken : (inner' ++ .symbol ")" :: between).takeWhile (· ≠ .symbol "(") =
          inner' ++ (.symbol ")" :: between).takeWhile (· ≠ .symbol "(") := by
        apply List.takeWhile_append_of_pos
        intro token htoken
        simp only [decide_eq_true_eq]
        rintro rfl
        exact hopen htoken
      refine absurd ?_ hinner
      rw [htaken]
      simp

/-! ### What the arguments of a type take -/

/-- What the reader takes has no parentheses. -/
def Reader.StaysInside {α : Type} (reader : Reader α) : Prop :=
  ∀ tokens, reader tokens = .error .unexpected ∨ ∃ result taken rest,
    reader tokens = .ok (result, rest) ∧ tokens = taken ++ rest ∧
      .symbol "(" ∉ taken ∧ .symbol ")" ∉ taken

namespace Reader

namespace StaysInside

variable {α β : Type}

theorem pure (a : α) : StaysInside (Pure.pure a : Reader α) :=
  fun tokens => .inr ⟨a, [], tokens, rfl, by simp⟩

theorem failure : StaysInside (failure : Reader α) :=
  fun _ => .inl rfl

theorem guard (p : Prop) [Decidable p] : StaysInside (guard p : Reader Unit) := by
  intro tokens
  by_cases hp : p
  · exact .inr ⟨(), [], tokens, by simp [hp]⟩
  · exact .inl (by simp [hp])

theorem get : StaysInside (get : Reader (List Token)) :=
  fun tokens => .inr ⟨tokens, [], tokens, rfl, by simp⟩

theorem bind {reader : Reader α} {next : α → Reader β} (hreader : reader.StaysInside)
    (hnext : ∀ a, (next a).StaysInside) : (reader >>= next).StaysInside := by
  intro tokens
  rw [bind_apply]
  rcases hreader tokens with hfirst | ⟨a, taken, middle, hfirst, rfl, hopen, hclose⟩
  · exact .inl (by rw [hfirst])
  · rw [hfirst]
    refine (hnext a middle).imp_right ?_
    rintro ⟨result, taken', rest, hsecond, rfl, hopen', hclose'⟩
    exact ⟨result, taken ++ taken', rest, hsecond, by simp, by simp [hopen, hopen'],
      by simp [hclose, hclose']⟩

theorem map {reader : Reader α} (f : α → β) (h : reader.StaysInside) : (f <$> reader).StaysInside := by
  have hbind : f <$> reader = reader >>= fun a => Pure.pure (f a) := rfl
  rw [hbind]
  exact h.bind fun a => pure (f a)

theorem choose {p : Prop} [Decidable p] {first second : Reader α} (hfirst : first.StaysInside)
    (hsecond : second.StaysInside) : (if p then first else second).StaysInside := by
  split
  · exact hfirst
  · exact hsecond

theorem hasSymbol {text : String} (hopen : text ≠ "(") (hclose : text ≠ ")") :
    StaysInside (hasSymbol text) := by
  intro tokens
  by_cases hhead : tokens.head? = some (.symbol text)
  · obtain ⟨rest, rfl⟩ : ∃ rest, tokens = .symbol text :: rest := by
      cases tokens <;> simp_all
    exact .inr ⟨true, [.symbol text], rest, by simp, by simp, by simpa using hopen.symm,
      by simpa using hclose.symm⟩
  · exact .inr ⟨false, [], tokens, hasSymbol_of_head hhead, by simp⟩

theorem hasOneOf (words : List String) : StaysInside (hasOneOf words) := by
  intro tokens
  cases tokens with
  | nil => exact .inr ⟨none, [], [], rfl, by simp⟩
  | cons token rest =>
    cases hfind : words.find? token.isKeyword with
    | none => exact .inr ⟨none, [], token :: rest, by simp [Reader.hasOneOf, hfind], by simp⟩
    | some word =>
      obtain ⟨text, rfl, -⟩ := exists_of_isKeyword (List.find?_some hfind)
      exact .inr ⟨some word, [.word text none], rest, by simp [Reader.hasOneOf, hfind], by simp⟩

theorem hasKeyword (word : String) : StaysInside (hasKeyword word) := by
  intro tokens
  by_cases hword : announce [word] tokens
  · match tokens with
    | [] => simp at hword
    | token :: rest =>
      have hkeyword : token.isKeyword word := by simpa using hword
      obtain ⟨text, rfl, -⟩ := exists_of_isKeyword hkeyword
      exact .inr ⟨true, [.word text none], rest, by simp [hkeyword], by simp⟩
  · exact .inr ⟨false, [], tokens, by simp [hword], by simp⟩

/-- What is not begun with a parenthesis. -/
theorem of_next {f : Token → Reader α} (h : ∀ token, (f token).StaysInside)
    (hparens : ∀ mark ∈ ["(", ")"], ∀ tokens, f (.symbol mark) tokens = .error .unexpected) :
    StaysInside (next >>= f) := by
  intro tokens
  cases tokens with
  | nil => exact .inl rfl
  | cons token tokens =>
    simp only [bind_apply, next_cons]
    by_cases hmark : ∃ mark ∈ ["(", ")"], token = .symbol mark
    · obtain ⟨mark, hmark, rfl⟩ := hmark
      exact .inl (hparens mark hmark tokens)
    · simp only [List.mem_cons, List.not_mem_nil, or_false, exists_eq_or_imp, exists_eq_left,
        not_or] at hmark
      refine (h token tokens).imp_right ?_
      rintro ⟨result, taken, rest, heq, rfl, hopen, hclose⟩
      exact ⟨result, token :: taken, rest, heq, by simp, by simp [hopen, Ne.symm hmark.1],
        by simp [hclose, Ne.symm hmark.2]⟩

theorem separated {item : Reader α} {separator : String} (hitem : item.StaysInside)
    (hopen : separator ≠ "(") (hclose : separator ≠ ")") : (separated item separator).StaysInside := by
  have hwithin : ∀ fuel, (separatedWithin item separator fuel).StaysInside := by
    intro fuel
    induction fuel with
    | zero => exact failure
    | succ fuel ih =>
      exact hitem.bind fun _ => (hasSymbol hopen hclose).bind fun _ =>
        choose (ih.bind fun _ => pure _) (pure _)
  exact get.bind fun _ => hwithin _

theorem numberBelow (bound : Nat) : StaysInside (numberBelow bound) := by
  refine of_next (fun token => ?_) (by simp)
  cases token with
  | number digits mark => exact (guard _).bind fun _ => (guard _).bind fun _ => pure _
  | _ => exact failure

theorem text : StaysInside text := by
  refine of_next (fun token => ?_) (by simp)
  cases token with
  | string text quote => exact pure _
  | escaped text written => exact pure _
  | word text quote => exact (guard _).bind fun _ => pure _
  | _ => exact failure

theorem plainText : StaysInside plainText := by
  refine of_next (fun token => ?_) (by simp)
  split
  · exact pure _
  · exact failure

theorem place (mark : String) : StaysInside (place mark) := by
  refine of_next (fun token => ?_) (by simp)
  split
  · exact pure _
  · exact pure _
  · exact failure

theorem number : StaysInside number := by
  refine of_next (fun token => ?_) (by simp)
  split
  · exact pure _
  · exact (guard _).bind fun _ => pure _
  · exact place _
  · exact place _
  · exact failure

theorem signedNumber : StaysInside signedNumber := by
  refine (hasSymbol (by decide) (by decide)).bind fun _ => choose (number.bind fun _ => pure _) ?_
  exact (hasSymbol (by decide) (by decide)).bind fun _ =>
    choose (number.bind fun _ => pure _) number

theorem characterLength : StaysInside characterLength := by
  refine (hasKeyword "MAX").bind fun _ => choose (pure _) ?_
  refine (numberBelow _).bind fun _ => (hasOneOf _).bind fun unit => ?_
  cases unit <;> exact pure _

/-- So do the readers of what must stand in the parentheses of a type. -/
theorem of_typeMembers? {arguments : TypeArguments} {members : Reader (List String)}
    (h : typeMembers? arguments = some members) : members.StaysInside := by
  cases arguments <;> cases h
  · exact (plainText.map _).separated (by decide) (by decide)
  · refine separated (text.bind fun _ => ?_) (by decide) (by decide)
    exact (hasSymbol (by decide) (by decide)).bind fun _ =>
      choose (signedNumber.bind fun _ => pure _) (pure _)
  · exact (numberBelow _).bind fun _ => pure _
  · refine (numberBelow _).bind fun _ => (hasSymbol (by decide) (by decide)).bind fun _ => ?_
    exact choose (text.bind fun _ => pure _) (pure _)

/-- In parentheses it ends with the closing one. -/
theorem parenthesized {reader : Reader α} (h : reader.StaysInside) {inner : List Token}
    (hinner : Closed inner) (after : List Token) :
    parenthesized reader (.symbol "(" :: (inner ++ .symbol ")" :: after)) = .error .unexpected ∨
      ∃ result, parenthesized reader (.symbol "(" :: (inner ++ .symbol ")" :: after)) =
        .ok (result, after) := by
  rcases h (inner ++ .symbol ")" :: after) with hread | ⟨result, taken, rest, hread, heq, hopen, hclose⟩
  · exact .inl (by simp [Reader.parenthesized, hread])
  · by_cases hhead : rest.head? = some (.symbol ")")
    · obtain ⟨rest, rfl⟩ : ∃ tail, rest = .symbol ")" :: tail := by
        cases rest <;> simp_all
      obtain rfl := after_eq_of_closed hinner hopen hclose heq
      exact .inr ⟨result, by simp [Reader.parenthesized, hread]⟩
    · exact .inl (by simp [Reader.parenthesized, hread, symbol, hasSymbol_of_head hhead])

end StaysInside

end Reader

/-! ### What follows a name -/

/-- What can follow an operand that is a word: the end of the expression, an opening parenthesis, or a
point. -/
def EndsName (rest : List Token) : Prop :=
  ∀ token ∈ rest.head?, token ∈ [.symbol "(", .symbol "."] ++ endTokens

theorem Ends.endsName (h : Ends rest) : EndsName rest :=
  fun token htoken => List.mem_append_right _ (h token htoken)

theorem endsName_of_mem {mark : String} (hmark : mark ∈ ["(", "."]) (rest : List Token) :
    EndsName (.symbol mark :: rest) := by
  have hall : ∀ mark ∈ ["(", "."], .symbol mark ∈ [Token.symbol "(", .symbol "."] ++ endTokens := by
    decide
  simpa [EndsName] using hall mark hmark

namespace EndsName

theorem isKeyword_eq (h : EndsName rest) {words : List String}
    (hwords : ∀ word ∈ words, word ∉ endWords) :
    ∀ token ∈ rest.head?, ∀ word ∈ words, token.isKeyword word = false := by
  intro token htoken word hword
  rcases List.mem_append.1 (h token htoken) with hmark | hmem
  · have hall : ∀ token ∈ [Token.symbol "(", .symbol "."], ∃ mark, token = .symbol mark := by simp
    obtain ⟨mark, rfl⟩ := hall token hmark
    rfl
  · exact isKeyword_of_mem_endTokens hmem (hwords word hword)

theorem head?_ne (h : EndsName rest) {token : Token}
    (htoken : token ∉ [.symbol "(", .symbol "."] ++ endTokens) : rest.head? ≠ some token :=
  fun hhead => htoken (h token hhead)

/-- It is a symbol or a keyword. -/
theorem cases_head (h : EndsName rest) : rest = [] ∨ (∃ mark tail, rest = .symbol mark :: tail) ∨
    ∃ word tail, word ∈ endWords ∧ rest = .word word none :: tail := by
  cases rest with
  | nil => exact .inl rfl
  | cons token tail =>
    have htoken := h token rfl
    simp only [endTokens, List.mem_append, List.mem_cons, List.not_mem_nil, or_false,
      List.mem_map] at htoken
    rcases htoken with (rfl | rfl) | ⟨symbol, -, rfl⟩ | ⟨word, hword, rfl⟩
    · exact .inr (.inl ⟨_, _, rfl⟩)
    · exact .inr (.inl ⟨_, _, rfl⟩)
    · exact .inr (.inl ⟨_, _, rfl⟩)
    · exact .inr (.inr ⟨_, _, hword, rfl⟩)

/-- No text is there. -/
theorem text_apply (h : EndsName rest) : Reader.text rest = .error .unexpected := by
  have hwords : ∀ word ∈ endWords, (Token.word word none).isPlainWord = false := by
    decide +kernel
  rcases h.cases_head with rfl | ⟨mark, tail, rfl⟩ | ⟨word, tail, hword, rfl⟩
  · rfl
  · rfl
  · simp [Reader.text, hwords word hword]

end EndsName

/-! ### Words that give no type to a text -/

section TypedText

variable {grammar : Grammar} {text : String} {quote : Option Char}

theorem typedText_of_error {tokens : List Token}
    (h : dataType grammar.dialect tokens = .error .unexpected) :
    grammar.typedText tokens = .error .unexpected := by
  simp [Grammar.typedText, h]

/-- Only a word gives a type to a text. -/
theorem typedText_of_not_word {token : Token} (h : ∀ text quote, token ≠ .word text quote) :
    grammar.typedText (token :: rest) = .error .unexpected :=
  typedText_of_error (dataType_of_not_word h)

/-- What is in the parentheses of a type is taken up to the closing one, or it is no such thing. -/
theorem modifiersWithin_cases (fuel : Nat) (tokens : List Token) :
    modifiersWithin fuel tokens = .error .unexpected ∨ ∃ modifiers taken after,
      modifiersWithin fuel tokens = .ok (modifiers, after) ∧ tokens = taken ++ .symbol ")" :: after ∧
        .symbol "(" ∉ taken ∧ .symbol ")" ∉ taken := by
  induction fuel generalizing tokens with
  | zero => exact .inl rfl
  | succ fuel ih =>
    cases tokens with
    | nil => exact .inl rfl
    | cons token tokens =>
      simp only [modifiersWithin, bind_apply, next_cons]
      rcases ih tokens with h | ⟨modifiers, taken, after, h, rfl, hopen, hclose⟩
      · split
        · exact .inr ⟨[], [], tokens, rfl, by simp⟩
        all_goals simp [h]
      · split
        · exact .inr ⟨[], [], taken ++ .symbol ")" :: after, rfl, by simp⟩
        all_goals
          first
          | exact .inl rfl
          | exact .inr ⟨_, _ :: taken, after, by simp only [bind_apply, h]; rfl, rfl, by simp [hopen],
              by simp [hclose]⟩

/-- The name of a type that SQL does not know gives no type to a text, if no bracket follows. -/
theorem typedText_of_path {path : List Name} {first : Name} (hfirst : path.head? = some first)
    (hopens : first.token.opensType = false) (hpoint : rest.head? ≠ some (.symbol "."))
    (hbracket : rest.head? ≠ some (.symbol "[")) (hencloses : Encloses rest) :
    grammar.typedText (namesTokens "." path ++ rest) = .error .unexpected := by
  have hne : path ≠ [] := by
    rintro rfl
    cases hfirst
  have hpath : Reader.path (namesTokens "." path ++ rest) = .ok (path, rest) := path_apply hne hpoint
  -- Parentheses after the name are tried as modifiers, which end where the parentheses do, if at all.
  have hcustom : customType (namesTokens "." path ++ rest) = .error .unexpected ∨
      ∃ modifiers after, customType (namesTokens "." path ++ rest) =
        .ok (.custom path modifiers, after) ∧ after.head? ≠ some (.symbol "[") := by
    by_cases hopen : rest.head? = some (.symbol "(")
    · obtain ⟨others, rfl⟩ : ∃ others, rest = .symbol "(" :: others := by
        cases rest <;> simp_all
      obtain ⟨inner, after, rfl, hinner, hafter⟩ := hencloses others rfl
      rcases modifiersWithin_cases ((inner ++ .symbol ")" :: after).length + 1)
        (inner ++ .symbol ")" :: after) with h | ⟨modifiers, taken, after', h, heq, htaken⟩
      · exact .inl (by simp only [customType, bind_apply, hpath, hasSymbol_symbol, decide_true,
          if_true, choose_apply, get_apply, h])
      · obtain rfl := after_eq_of_closed hinner htaken.1 htaken.2 heq
        refine .inr ⟨modifiers, after, ?_, hafter⟩
        simp only [customType, bind_apply, hpath, hasSymbol_symbol, decide_true, if_true,
          choose_apply, get_apply, h, pure_apply]
    · refine .inr ⟨[], rest, ?_, hbracket⟩
      simp [customType, hpath, hasSymbol_of_head hopen]
  obtain ⟨others, rfl⟩ : ∃ others, path = first :: others := by
    cases path <;> simp_all
  obtain ⟨tokens, htokens⟩ : ∃ tokens, namesTokens "." (first :: others) = first.token :: tokens := by
    cases others with
    | nil => exact ⟨[], rfl⟩
    | cons second others => exact ⟨_, namesTokens_cons ..⟩
  rw [htokens, List.cons_append, Name.token] at hcustom ⊢
  rcases hcustom with h | ⟨modifiers, after, h, hafter⟩
  · exact typedText_of_error (by rw [dataType_of_custom hopens, h])
  · have htype : dataType grammar.dialect (.word first.text first.quote :: (tokens ++ rest)) =
        .ok (.custom (first :: others) modifiers, after) := by
      rw [dataType_of_custom hopens, h]
      exact arraysWithin_apply _ hafter
    simp [Grammar.typedText, htype]

/-- Neither does a word that begins no type that SQL knows. -/
theorem typedText_of_word (hopens : (Token.word text quote).opensType = false)
    (hpoint : rest.head? ≠ some (.symbol ".")) (hbracket : rest.head? ≠ some (.symbol "["))
    (hencloses : Encloses rest) :
    grammar.typedText (.word text quote :: rest) = .error .unexpected :=
  @typedText_of_path rest grammar [⟨text, quote⟩] ⟨text, quote⟩ rfl hopens hpoint hbracket hencloses

/-- What follows the keyword of a type is no text, so the type does not belong to one. -/
theorem typedText_of_form {form : TypeForm} (hform : form ∈ typeForms)
    (hkeyword : (Token.word text quote).keyword? = some form.keyword)
    (hinterval : form.keyword ≠ "INTERVAL")
    (htaken : afterKeyword form rest = .error .unexpected ∨ ∃ sizes type after,
      afterKeyword form rest = .ok (type, after) ∧ (type = .known form.written sizes "" ∨
        type = .listed form.written sizes) ∧ EndsName after) :
    grammar.typedText (.word text quote :: rest) = .error .unexpected := by
  rcases htaken with h | ⟨sizes, type, after, h, htype, hafter⟩
  · apply typedText_of_error
    rw [dataType_of_form hform hkeyword, h]
  · have hread : dataType grammar.dialect (.word text quote :: rest) = .ok (type, after) := by
      rw [dataType_of_form hform hkeyword, h]
      exact arraysWithin_apply _ (hafter.head?_ne (by decide))
    have hwritten : ∀ form ∈ typeForms, form.written = "INTERVAL" → form.keyword = "INTERVAL" := by
      decide +kernel
    have hne : form.written ≠ "INTERVAL" := fun heq => hinterval (hwritten form hform heq)
    rcases htype with rfl | rfl <;> simp [Grammar.typedText, hread, hne, hafter.text_apply]

/-- What follows the numbers of a type is no part of it. -/
theorem afterKeyword_of_sizes {form : TypeForm} {sizes : List String} {after : List Token}
    (hform : form ∈ typeForms) (hmembers : typeMembers? form.arguments = none) (hrest : EndsName rest)
    (hsizes : typeSizes form.arguments rest = .ok (sizes, after)) (hafter : EndsName after) :
    afterKeyword form rest = .ok (.known form.written sizes "", after) := by
  have hseconds : (form.seconds.find? fun second => announce second.1 rest) = none :=
    find?_seconds_eq_none hform (hrest.isKeyword_eq (by decide))
  have hending : [] ∈ form.endings := by
    unfold TypeForm.endings
    split <;> [skip; split] <;> simp
  exact afterKeyword_apply hmembers hseconds hsizes hending (hafter.isKeyword_eq (by decide))

theorem afterKeyword_of_error {form : TypeForm} (hform : form ∈ typeForms)
    (hmembers : typeMembers? form.arguments = none) (hrest : EndsName rest)
    (hsizes : typeSizes form.arguments rest = .error .unexpected) :
    afterKeyword form rest = .error .unexpected := by
  have hseconds : (form.seconds.find? fun second => announce second.1 rest) = none :=
    find?_seconds_eq_none hform (hrest.isKeyword_eq (by decide))
  simp [afterKeyword, hmembers, hseconds, hsizes]

/-- The keyword of a type gives no type to a text where the expression ends, or a point follows. -/
theorem typedText_of_keyword {form : TypeForm} (hform : form ∈ typeForms)
    (hkeyword : (Token.word text quote).keyword? = some form.keyword)
    (hinterval : form.keyword ≠ "INTERVAL") (hrest : EndsName rest)
    (hopen : rest.head? ≠ some (.symbol "(")) :
    grammar.typedText (.word text quote :: rest) = .error .unexpected := by
  apply typedText_of_form hform hkeyword hinterval
  cases hmembers : typeMembers? form.arguments with
  | some members =>
    left
    simp [afterKeyword, hmembers, Reader.parenthesized, symbol, hasSymbol_of_head hopen]
  | none =>
    have hsizes := typeSizes_nil form.arguments hopen
    exact .inr ⟨[], _, rest, afterKeyword_of_sizes hform hmembers hrest hsizes hrest, .inl rfl, hrest⟩

/-- It gives none either where something stands in parentheses behind it, and then the expression
ends. -/
theorem typedText_of_called {form : TypeForm} {inner after : List Token} (hform : form ∈ typeForms)
    (hkeyword : (Token.word text quote).keyword? = some form.keyword)
    (hinterval : form.keyword ≠ "INTERVAL") (hinner : Closed inner) (hafter : Ends after) :
    grammar.typedText (.word text quote :: .symbol "(" :: (inner ++ .symbol ")" :: after)) =
      .error .unexpected := by
  apply typedText_of_form hform hkeyword hinterval
  have hrest : EndsName (.symbol "(" :: (inner ++ .symbol ")" :: after)) :=
    endsName_of_mem (by simp) _
  cases hmembers : typeMembers? form.arguments with
  | some members =>
    rcases (StaysInside.of_typeMembers? hmembers).parenthesized hinner after with h | ⟨listed, h⟩
    · exact .inl (by simp [afterKeyword, hmembers, h])
    · exact .inr ⟨listed, _, after, by simp [afterKeyword, hmembers, h], .inr rfl, hafter.endsName⟩
  | none =>
    -- Either the parentheses are left, or they hold the numbers of the type, or they do not fit it.
    have hsizes : typeSizes form.arguments (.symbol "(" :: (inner ++ .symbol ")" :: after)) =
        .error .unexpected ∨ ∃ sizes rest, typeSizes form.arguments (.symbol "(" ::
          (inner ++ .symbol ")" :: after)) = .ok (sizes, rest) ∧ EndsName rest := by
      by_cases hnone : form.arguments = .none
      · exact .inr ⟨[], _, by simp [typeSizes, hnone], hrest⟩
      · by_cases hlength : form.arguments = .length
        · rcases StaysInside.characterLength.parenthesized hinner after with h | ⟨length, h⟩
          · exact .inl (by simp [typeSizes, hlength, h])
          · exact .inr ⟨[length], after, by simp [typeSizes, hlength, h], hafter.endsName⟩
        · have hinside : (separated size ",").StaysInside :=
            (StaysInside.numberBelow _).separated (by decide) (by decide)
          rcases hinside.parenthesized hinner after with h | ⟨sizes, h⟩
          · exact .inl (by simp [typeSizes, hnone, hlength, h])
          · by_cases hcount : sizes.length ≤ if form.arguments = .scale then 2 else 1
            · exact .inr ⟨sizes.map Nat.repr, after, by simp [typeSizes, hnone, hlength, h, hcount],
                hafter.endsName⟩
            · exact .inl (by simp [typeSizes, hnone, hlength, h, hcount])
    rcases hsizes with h | ⟨sizes, rest, h, hrest'⟩
    · exact .inl (afterKeyword_of_error hform hmembers hrest h)
    · exact .inr ⟨sizes, _, rest, afterKeyword_of_sizes hform hmembers hrest h hrest', .inl rfl, hrest'⟩

end TypedText

end Schemata.Sql
