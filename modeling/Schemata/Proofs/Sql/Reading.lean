import Mathlib.Data.Option.Basic
import Schemata.Proofs.Sql.Spelling

/-!
# What readers take

Readers are functions, so what they take from the front of some tokens is an equation. The
equations of the single readers are for simplification; a list of items with separators between
them is taken item by item.

What follows a type, an expression or an option in the definition of a column is one of few tokens,
or nothing. None of them goes on with what stands before it.

## Main definitions

* `endTokens`, `Ends`: what can follow in the definition of a column

## Main results

* `Reader.separated_apply`: a list of items is taken item by item
* `Ends.announce_eq`, `Ends.hasSymbol_eq`: what follows is not taken for something else
-/

namespace Schemata.Sql

namespace Reader

variable {α β : Type} {tokens rest : List Token}

/-! ### Single readers -/

@[simp] theorem pure_apply (a : α) : (pure a : Reader α) tokens = .ok (a, tokens) := rfl

@[simp] theorem bind_apply (reader : Reader α) (next : α → Reader β) :
    (reader >>= next) tokens = match reader tokens with
      | .ok (result, rest) => next result rest
      | .error fault => .error fault := by
  change (reader tokens >>= fun p => next p.1 p.2) = _
  cases reader tokens <;> rfl

@[simp] theorem map_apply (f : α → β) (reader : Reader α) :
    (f <$> reader) tokens = match reader tokens with
      | .ok (result, rest) => .ok (f result, rest)
      | .error fault => .error fault := by
  change (reader tokens >>= fun p => pure (f p.1, p.2)) = _
  cases reader tokens <;> rfl

@[simp] theorem discard_apply (reader : Reader α) :
    (discard reader) tokens = match reader tokens with
      | .ok (_, rest) => .ok (⟨⟩, rest)
      | .error fault => .error fault := by
  change ((fun _ => PUnit.unit) <$> reader) tokens = _
  rw [map_apply]

@[simp] theorem get_apply : (get : Reader (List Token)) tokens = .ok (tokens, tokens) := rfl

@[simp] theorem set_apply : (set rest : Reader PUnit) tokens = .ok (⟨⟩, rest) := rfl

@[simp] theorem failure_apply : (failure : Reader α) tokens = .error .unexpected := rfl

@[simp] theorem guard_apply (p : Prop) [Decidable p] :
    (guard p : Reader Unit) tokens = if p then .ok ((), tokens) else .error .unexpected := by
  unfold guard
  split <;> rfl

@[simp] theorem choose_apply (p : Prop) [Decidable p] (first second : Reader α) :
    (if p then first else second) tokens = if p then first tokens else second tokens := by
  split <;> rfl

@[simp] theorem peek_apply : peek tokens = .ok (tokens.head?, tokens) := rfl

@[simp] theorem announce_nil : announce [] tokens = true := by simp [announce]

@[simp] theorem announce_cons_nil (word : String) (words : List String) :
    announce (word :: words) [] = false := by
  simp [announce]

@[simp] theorem announce_cons_cons (word : String) (words : List String) (token : Token) :
    announce (word :: words) (token :: rest) = (token.isKeyword word && announce words rest) := by
  cases hword : token.isKeyword word <;> simp [announce, hword]

@[simp] theorem hasKeywords_apply (words : List String) :
    hasKeywords words tokens =
      .ok (announce words tokens,
        if announce words tokens then tokens.drop words.length else tokens) := by
  cases hwords : announce words tokens <;> simp [hasKeywords, hwords]

@[simp] theorem hasKeyword_apply (word : String) :
    hasKeyword word tokens = hasKeywords [word] tokens := rfl

@[simp] theorem hasSymbol_nil (text : String) : hasSymbol text [] = .ok (false, []) := rfl

@[simp] theorem hasSymbol_symbol (text other : String) :
    hasSymbol text (.symbol other :: rest) =
      .ok (other = text, if other = text then rest else .symbol other :: rest) := by
  by_cases h : other = text <;> simp [hasSymbol, h]

@[simp] theorem hasSymbol_word (text word : String) (quote : Option Char) :
    hasSymbol text (.word word quote :: rest) = .ok (false, .word word quote :: rest) := rfl

@[simp] theorem next_cons (token : Token) : next (token :: rest) = .ok (token, rest) := rfl

@[simp] theorem isKeyword_symbol (text word : String) :
    (Token.symbol text).isKeyword word = false := rfl

@[simp] theorem isKeyword_number (digits mark word : String) :
    (Token.number digits mark).isKeyword word = false := rfl

@[simp] theorem isKeyword_string (text word : String) (quote : Char) :
    (Token.string text quote).isKeyword word = false := rfl

@[simp] theorem isKeyword_quoted (text word : String) (quote : Char) :
    (Token.word text (some quote)).isKeyword word = false := rfl

/-- A keyword is a word without quotes. -/
theorem exists_of_isKeyword {token : Token} {word : String} (h : token.isKeyword word) :
    ∃ text, token = .word text none ∧ (Token.word text none).keyword? = some word := by
  simp only [Token.isKeyword, decide_eq_true_eq] at h
  match token with
  | .word text none => exact ⟨text, rfl, h⟩

@[simp] theorem symbol_apply (text : String) :
    symbol text (.symbol text :: rest) = .ok ((), rest) := by
  simp [symbol]

theorem hasSymbol_of_head {text : String} (h : rest.head? ≠ some (.symbol text)) :
    hasSymbol text rest = .ok (false, rest) := by
  match rest with
  | [] => rfl
  | .symbol other :: rest =>
    have hne : other ≠ text := by
      rintro rfl
      exact h rfl
    simp [hne]
  | .word .. :: _ | .number .. :: _ | .string .. :: _ | .escaped .. :: _ | .foreign _ :: _
  | .dollars _ :: _ | .literal _ :: _ | .operator _ :: _ => rfl

@[simp] theorem attempt_apply (reader : Reader α) :
    attempt reader tokens = match reader tokens with
      | .ok (result, rest) => .ok (some result, rest)
      | .error .unexpected => .ok (none, tokens)
      | .error .tooDeep => .error .tooDeep := rfl

/-- What is not a number is no size. -/
theorem size_of_error {token : Token} (h : ∀ digits mark, token ≠ .number digits mark) :
    size (token :: rest) = .error .unexpected := by
  cases token with
  | number digits mark => exact absurd rfl (h digits mark)
  | _ => rfl

/-! ### Lists -/

section Separated

variable {ι : Type} {item : Reader α} {separator : String} {items : List ι}
  (tokens : ι → List Token) (result : ι → α) (follows : List Token → Prop)

/-- What follows an item in a list is the rest of the list. -/
theorem follows_separated (hne : items ≠ [])
    (hfollows : ∀ i ∈ items, ∀ rest, follows rest →
      follows (.symbol separator :: (tokens i ++ rest))) (hrest : follows rest) :
    follows (.symbol separator :: ([.symbol separator].intercalate (items.map tokens) ++ rest)) := by
  induction items with
  | nil => exact absurd rfl hne
  | cons first others ih =>
    cases others with
    | nil => simpa using hfollows first (by simp) rest hrest
    | cons second others =>
      have hothers := ih (by simp) fun i hi => hfollows i (List.mem_cons_of_mem _ hi)
      simpa using hfollows first (by simp) _ hothers

theorem separatedWithin_apply (hne : items ≠ [])
    (hitem : ∀ i ∈ items, ∀ rest, follows rest → item (tokens i ++ rest) = .ok (result i, rest))
    (hfollows : ∀ i ∈ items, ∀ rest, follows rest →
      follows (.symbol separator :: (tokens i ++ rest)))
    (hrest : follows rest) (hend : rest.head? ≠ some (.symbol separator)) {fuel : Nat}
    (hfuel : items.length ≤ fuel) :
    separatedWithin item separator fuel
      ([.symbol separator].intercalate (items.map tokens) ++ rest) = .ok (items.map result, rest) := by
  induction items generalizing fuel with
  | nil => exact absurd rfl hne
  | cons first others ih =>
    obtain ⟨fuel, rfl⟩ : ∃ n, fuel = n + 1 := Nat.exists_eq_add_one.2 (by simp at hfuel; omega)
    cases others with
    | nil => simp [separatedWithin, hitem first (by simp) rest hrest, hasSymbol_of_head hend]
    | cons second others =>
      have hlater := fun i (hi : i ∈ second :: others) => hfollows i (List.mem_cons_of_mem _ hi)
      have hothers := ih (by simp) (fun i hi => hitem i (List.mem_cons_of_mem _ hi)) hlater
        (by simpa using hfuel)
      have hfirst := hitem first (by simp) _ (follows_separated tokens follows (by simp) hlater hrest)
      rw [List.map_cons, List.map_cons, List.intercalate_cons_cons, ← List.map_cons,
        List.append_assoc, List.append_assoc, List.singleton_append, separatedWithin]
      simp only [bind_apply, hfirst, hasSymbol_symbol, decide_true, if_true, hothers, pure_apply]
      rfl

/-- A list of items is taken item by item, if each of them is taken wherever it may stand. -/
theorem separated_apply (hne : items ≠ [])
    (hitem : ∀ i ∈ items, ∀ rest, follows rest → item (tokens i ++ rest) = .ok (result i, rest))
    (hfollows : ∀ i ∈ items, ∀ rest, follows rest →
      follows (.symbol separator :: (tokens i ++ rest)))
    (hrest : follows rest) (hend : rest.head? ≠ some (.symbol separator)) :
    separated item separator ([.symbol separator].intercalate (items.map tokens) ++ rest) =
      .ok (items.map result, rest) := by
  have hlength : items.length ≤
      ([.symbol separator].intercalate (items.map tokens) ++ rest).length + 1 := by
    clear hne hitem hfollows hend
    induction items with
    | nil => simp
    | cons first others ih =>
      cases others with
      | nil => simp
      | cons second others =>
        simp at ih ⊢
        omega
  simp only [separated, bind_apply, get_apply]
  exact separatedWithin_apply tokens result follows hne hitem hfollows hrest hend hlength

end Separated

end Reader

theorem length_le_length_intercalate {separator item : List Token} {items : List (List Token)}
    (h : item ∈ items) : item.length ≤ (separator.intercalate items).length := by
  induction items with
  | nil => cases h
  | cons first others ih =>
    cases others with
    | nil => simp_all
    | cons second others =>
      rw [List.intercalate_cons_cons, List.length_append, List.length_append]
      rcases List.mem_cons.1 h with rfl | h
      · omega
      · have hothers := ih h
        omega

/-! ### What follows in the definition of a column -/

/-- The words that can follow a type, an expression or an option: those that go on with an expression,
those that stand between the parts of an operand, and those that begin an option. -/
def endWords : List String :=
  ["AND", "OR", "XOR", "DIV", "IS", "IN", "LIKE", "ILIKE", "SIMILAR", "RLIKE", "REGEXP", "BETWEEN",
      "NOT", "AT"] ++
    ["AS", "WHEN", "THEN", "ELSE", "END", "FROM", "FOR", "PLACING", "USING", "ESCAPE"] ++
    ["NULL", "DEFAULT", "PRIMARY", "UNIQUE", "REFERENCES", "CHECK", "CONSTRAINT", "AUTOINCREMENT",
      "AUTO_INCREMENT", "COMMENT", "CHARACTER", "GENERATED", "ON", "ASC", "DESC", "COLLATE"]

/-- The tokens that can follow a type, an expression or an option. -/
def endTokens : List Token :=
  (operatorSymbols ++ ["::", ",", ")", "]", ";"]).map .symbol ++ endWords.map (Token.word · none)

/-- Each of these tokens is the keyword as which it is written, and no other. -/
theorem isKeyword_of_ne {token : Token} {word : String} (h : token ∈ endTokens)
    (hne : token ≠ .word word none) : token.isKeyword word = false := by
  have hkeyword : ∀ word ∈ endWords, (Token.word word none).keyword? = some word := by
    decide +kernel
  rcases List.mem_append.1 h with h | h
  · obtain ⟨symbol, -, rfl⟩ := List.mem_map.1 h
    rfl
  · obtain ⟨written, hwritten, rfl⟩ := List.mem_map.1 h
    have hother : written ≠ word := fun heq => hne (by rw [heq])
    simp [Token.isKeyword, hkeyword written hwritten, hother]

theorem isKeyword_of_mem_endTokens {token : Token} {word : String} (h : token ∈ endTokens)
    (hword : word ∉ endWords) : token.isKeyword word = false := by
  apply isKeyword_of_ne h
  rintro rfl
  exact hword (by simpa [endTokens] using h)

/-- What follows is one of these tokens, or nothing. -/
def Ends (rest : List Token) : Prop := ∀ token ∈ rest.head?, token ∈ endTokens

namespace Ends

variable {token : Token} {rest : List Token}

theorem cons (h : token ∈ endTokens) (rest : List Token) : Ends (token :: rest) := by
  simpa [Ends] using h

theorem isKeyword_eq (h : Ends rest) {word : String} (hword : word ∉ endWords) :
    ∀ token ∈ rest.head?, token.isKeyword word = false :=
  fun token htoken => isKeyword_of_mem_endTokens (h token htoken) hword

theorem announce_eq (h : Ends rest) {word : String} (hword : word ∉ endWords)
    (words : List String) : Reader.announce (word :: words) rest = false := by
  cases rest with
  | nil => simp
  | cons token rest => simp [h.isKeyword_eq hword token rfl]

theorem head?_ne (h : Ends rest) (htoken : token ∉ endTokens) : rest.head? ≠ some token :=
  fun hhead => htoken (h token hhead)

theorem hasSymbol_eq (h : Ends rest) {text : String} (htext : .symbol text ∉ endTokens) :
    Reader.hasSymbol text rest = .ok (false, rest) :=
  Reader.hasSymbol_of_head (h.head?_ne htext)

theorem hasOneOf_eq (h : Ends rest) {words : List String}
    (hwords : ∀ word ∈ words, word ∉ endWords) :
    Reader.hasOneOf words rest = .ok (none, rest) := by
  cases rest with
  | nil => rfl
  | cons token rest =>
    have hnone : words.find? token.isKeyword = none := by
      simpa using fun word hword => h.isKeyword_eq (hwords word hword) token rfl
    simp [Reader.hasOneOf, hnone]

end Ends

end Schemata.Sql
