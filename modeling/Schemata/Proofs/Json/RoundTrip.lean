import Mathlib.Data.List.Forall2
import Mathlib.Data.Option.Basic
import Schemata.Json.Printer
import Schemata.Json.Reader
import Schemata.Text.Search

/-!
# Written documents are read back

The written form of a document, with its line ends and margins, is read back as the document, every
string character by character: what is escaped is unescaped, and all else stands for itself. The two
steps of reading are met one after the other. The tokens of the written form are those of the
document, whatever the layout; and the tokens of a document are put together to the document.

## Main definitions

* `Json.tokens`: the tokens of a document
* `Json.Lexes`, `Json.Spells`: a text has the given tokens, at the end of a text and before others
* `Json.IsReadable`: the numbers of a document are numbers

## Main results

* `scanString_renderChars`: a string is read back
* `spells_render`, `value?_tokens`: the two steps of reading a written document
* `parse?_pretty`: a written document is read back
-/

namespace Schemata.Json

/-! ### Strings -/

/-- The two digits that are written for a control character are read as its number. -/
theorem hexValue?_control :
    ∀ n < 0x20, ((if n < 0x10 then "0" else "") ++ Text.hexDigits n).toList.length = 2 ∧
      hexValue? ('0' :: '0' :: ((if n < 0x10 then "0" else "") ++ Text.hexDigits n).toList) =
        some n := by
  decide

/-- A control character is read from its four digits. -/
theorem scanString_control {c : Char} (h : c.toNat < 0x20) (rest : List Char) :
    scanString (("\\u00" ++ (if c.toNat < 0x10 then "0" else "") ++ Text.hexDigits c.toNat).toList
        ++ rest) =
      (scanString rest).map fun (units, after) => (c.toNat :: units, after) := by
  obtain ⟨hlength, hvalue⟩ := hexValue?_control c.toNat h
  rw [String.append_assoc, String.toList_append]
  match hdigits : ((if c.toNat < 0x10 then "0" else "") ++ Text.hexDigits c.toNat).toList with
  | [a, b] =>
    rw [hdigits] at hvalue
    change scanString ('\\' :: 'u' :: '0' :: '0' :: a :: b :: rest) = _
    rw [scanString, hvalue]
    cases scanString rest <;> rfl
  | [] | [_] | _ :: _ :: _ :: _ => simp [hdigits] at hlength

/-- A character is read from its escape of one letter. -/
theorem scanString_escape (letter : Char) {c : Char} (h : escape? letter = some c)
    (rest : List Char) :
    scanString ('\\' :: letter :: rest) =
      (scanString rest).map fun (units, after) => (c.toNat :: units, after) := by
  have hu : letter ≠ 'u' := by
    rintro rfl
    cases h
  rw [scanString]
  · rw [h]
    cases scanString rest <;> rfl
  · intro a b c d tail eq
    simp_all

/-- A character that needs no escape is read as it stands. -/
theorem scanString_plain {c : Char} (hquote : c ≠ '"') (hbackslash : c ≠ '\\')
    (h : ¬c.toNat < 0x20) (rest : List Char) :
    scanString (c :: rest) =
      (scanString rest).map fun (units, after) => (c.toNat :: units, after) := by
  have hguard : 0x20 ≤ c.toNat ∧ c ≠ '\\' := ⟨Nat.not_lt.1 h, hbackslash⟩
  rw [scanString]
  · rw [guard, if_pos hguard]
    cases scanString rest <;> rfl
  all_goals simp_all

/-- A character of a string is read as its code point, escaped or not. -/
theorem scanString_renderChar (c : Char) (rest : List Char) :
    scanString ((renderChar c).toList ++ rest) =
      (scanString rest).map fun (units, after) => (c.toNat :: units, after) := by
  unfold renderChar
  split
  case isTrue h => exact h ▸ scanString_escape '"' rfl rest
  rename_i hquote
  split
  case isTrue h => exact h ▸ scanString_escape '\\' rfl rest
  rename_i hbackslash
  split
  case isTrue h => exact h ▸ scanString_escape 'b' rfl rest
  split
  case isTrue h => exact h ▸ scanString_escape 'f' rfl rest
  split
  case isTrue h => exact h ▸ scanString_escape 'n' rfl rest
  split
  case isTrue h => exact h ▸ scanString_escape 'r' rfl rest
  split
  case isTrue h => exact h ▸ scanString_escape 't' rfl rest
  split
  case isTrue h => exact scanString_control h rest
  case isFalse h =>
    rw [Char.toString_eq_singleton, String.toList_singleton]
    exact scanString_plain hquote hbackslash h rest

/-- The characters of a string are read up to the quote that closes it. -/
theorem scanString_renderChars (cs after : List Char) :
    scanString ((String.join (cs.map renderChar)).toList ++ '"' :: after) =
      some (cs.map Char.toNat, after) := by
  induction cs with
  | nil => simp [scanString]
  | cons c rest ih =>
    rw [List.map_cons, String.join_cons, String.toList_append, List.append_assoc,
      scanString_renderChar, ih]
    rfl

/-- No character is a surrogate. -/
theorem isSurrogate_toNat (c : Char) :
    isHighSurrogate c.toNat = false ∧ isLowSurrogate c.toNat = false := by
  have hvalid : c.toNat < 0xD800 ∨ 0xDFFF < c.toNat ∧ c.toNat < 0x110000 := c.valid
  simp only [isHighSurrogate, isLowSurrogate, Bool.and_eq_false_iff, decide_eq_false_iff_not]
  omega

/-- The code points of a text are read as the text. -/
theorem textOfUnits?_toNat (cs : List Char) : textOfUnits? (cs.map Char.toNat) = some cs := by
  induction cs with
  | nil => rfl
  | cons c rest ih =>
    obtain ⟨hhigh, hlow⟩ := isSurrogate_toNat c
    cases rest with
    | nil => simp [textOfUnits?, hhigh, hlow]
    | cons next rest =>
      rw [List.map_cons] at ih
      simp [textOfUnits?, hhigh, hlow, ih]

/-- The text of a string, or the want of one, is read back with its quotes. -/
theorem scan?_renderString (text : Option String) (after : List Char) :
    Token.scan? ((renderString text).toList ++ after) = some (.scalar (string text), after) := by
  cases text with
  | none => rfl
  | some text =>
    have hrest : (renderString (some text)).toList ++ after =
        '"' :: ((String.join (text.toList.map renderChar)).toList ++ '"' :: after) := by
      simp [renderString]
    rw [hrest, Token.scan?, if_neg (by decide), if_pos rfl, scanString_renderChars]
    simp [textOfUnits?_toNat]

/-! ### Numbers -/

/-- The characters begin with characters of numbers, and the second ones follow them. -/
def IsNumeral (cs rest : List Char) : Prop :=
  ∃ front, cs = front ++ rest ∧ ∀ c ∈ front, isNumberChar c

theorem IsNumeral.refl (cs : List Char) : IsNumeral cs cs := ⟨[], rfl, by simp⟩

theorem IsNumeral.cons {c : Char} {cs rest : List Char} (hc : isNumberChar c)
    (h : IsNumeral cs rest) : IsNumeral (c :: cs) rest := by
  obtain ⟨front, rfl, hfront⟩ := h
  exact ⟨c :: front, rfl, by simpa [hc] using hfront⟩

theorem IsNumeral.trans {cs middle rest : List Char} (h : IsNumeral cs middle)
    (h' : IsNumeral middle rest) : IsNumeral cs rest := by
  obtain ⟨front, rfl, hfront⟩ := h
  obtain ⟨back, rfl, hback⟩ := h'
  refine ⟨front ++ back, by simp, fun c hc => ?_⟩
  exact (List.mem_append.1 hc).elim (hfront c) (hback c)

theorem isNumberChar_of_isDigit {c : Char} (h : c.isDigit) : isNumberChar c := by
  simp [isNumberChar, h]

theorem isNumeral_digits {cs rest : List Char} (h : afterDigits? cs = some rest) :
    IsNumeral cs rest := by
  unfold afterDigits? at h
  split at h
  · cases h
    refine ⟨cs.takeWhile Char.isDigit, List.takeWhile_append_dropWhile.symm, fun c hc => ?_⟩
    exact isNumberChar_of_isDigit (List.all_eq_true.1 List.all_takeWhile c hc)
  · cases h

theorem isNumeral_integer {cs rest : List Char} (h : afterInteger? cs = some rest) :
    IsNumeral cs rest := by
  unfold afterInteger? at h
  split at h
  · cases h
    exact .cons (by decide) (.refl rest)
  · exact isNumeral_digits h

theorem isNumeral_fraction {cs rest : List Char} (h : afterFraction? cs = some rest) :
    IsNumeral cs rest := by
  unfold afterFraction? at h
  split at h
  · exact .cons (by decide) (isNumeral_digits h)
  · cases h
    exact .refl cs

theorem isNumeral_exponent {cs rest : List Char} (h : afterExponent? cs = some rest) :
    IsNumeral cs rest := by
  unfold afterExponent? at h
  split at h
  · split at h
    case isTrue he =>
      refine .cons (by rcases he with rfl | rfl <;> decide) ?_
      split at h
      · exact .cons (by decide) (isNumeral_digits h)
      · exact .cons (by decide) (isNumeral_digits h)
      · exact isNumeral_digits h
    case isFalse =>
      cases h
      exact .refl _
  · cases h
    exact .refl []

/-- What begins an integer part is a digit. -/
theorem head_of_afterInteger? {cs rest : List Char} (h : afterInteger? cs = some rest) :
    ∃ c tail, cs = c :: tail ∧ c.isDigit := by
  unfold afterInteger? at h
  split at h
  · exact ⟨'0', _, rfl, by decide⟩
  · unfold afterDigits? at h
    cases cs with
    | nil => simp at h
    | cons c tail =>
      refine ⟨c, tail, rfl, ?_⟩
      simpa using (Option.ite_none_right_eq_some.1 h).1

/-- A number begins with a digit or its sign, and has no characters but those of numbers. -/
theorem exists_of_isNumber {cs : List Char} (h : isNumber cs) :
    ∃ c rest, cs = c :: rest ∧ (c.isDigit || c = '-') ∧ ∀ d ∈ cs, isNumberChar d := by
  have unsigned : ∀ {ds : List Char},
      (((afterInteger? ds).bind afterFraction?).bind afterExponent? == some []) = true →
      (∃ c rest, ds = c :: rest ∧ c.isDigit) ∧ ∀ d ∈ ds, isNumberChar d := by
    intro ds hds
    obtain ⟨exponent, hfraction, hexponent⟩ := Option.bind_eq_some_iff.1 (beq_iff_eq.1 hds)
    obtain ⟨fraction, hinteger, hfraction⟩ := Option.bind_eq_some_iff.1 hfraction
    obtain ⟨front, hfront, hall⟩ := ((isNumeral_integer hinteger).trans
      (isNumeral_fraction hfraction)).trans (isNumeral_exponent hexponent)
    rw [List.append_nil] at hfront
    exact ⟨head_of_afterInteger? hinteger, hfront ▸ hall⟩
  unfold isNumber at h
  split at h
  · obtain ⟨-, hall⟩ := unsigned h
    exact ⟨'-', _, rfl, by decide, by simpa [isNumberChar] using hall⟩
  · obtain ⟨⟨c, rest, rfl, hc⟩, hall⟩ := unsigned h
    exact ⟨c, rest, rfl, by simp [hc], hall⟩

/-! ### Texts and their tokens -/

/-- The characters have the tokens. -/
def Lexes (cs : List Char) (tokens : List Token) : Prop :=
  ∀ fuel, cs.length ≤ fuel → Token.scanAll? fuel cs = some tokens

/-- No number or word goes on with these characters. -/
def Stops (after : List Char) : Prop :=
  ∀ c ∈ after.head?, isNumberChar c = false ∧ c.isAlpha = false

/-- The text has the tokens, before whatever follows it. -/
def Spells (text : String) (tokens : List Token) : Prop :=
  ∀ after ts, Stops after → Lexes after ts → Lexes (text.toList ++ after) (tokens ++ ts)

theorem Lexes.nil : Lexes [] [] := by
  intro fuel _
  cases fuel <;> rfl

/-- A blank before a token is passed over. -/
theorem Lexes.space {c : Char} {cs : List Char} {tokens : List Token} (hc : isSpace c)
    (h : Lexes cs tokens) : Lexes (c :: cs) tokens := by
  intro fuel hfuel
  cases fuel with
  | zero => simp at hfuel
  | succ fuel =>
    rw [Token.scanAll?, if_pos hc]
    exact h fuel (by simpa using hfuel)

theorem Lexes.spaces {blanks cs : List Char} {tokens : List Token}
    (hblanks : ∀ c ∈ blanks, isSpace c) (h : Lexes cs tokens) : Lexes (blanks ++ cs) tokens := by
  induction blanks with
  | nil => exact h
  | cons c rest ih =>
    exact .space (hblanks c (by simp)) (ih fun d hd => hblanks d (by simp [hd]))

/-- A token that is scanned at the start of the characters is their first one. -/
theorem Lexes.token {cs after : List Char} {token : Token} {tokens : List Token}
    (hstart : ∀ c ∈ cs.head?, isSpace c = false) (hscan : Token.scan? cs = some (token, after))
    (hlength : after.length < cs.length) (h : Lexes after tokens) :
    Lexes cs (token :: tokens) := by
  intro fuel hfuel
  cases cs with
  | nil => simp at hlength
  | cons c rest =>
    cases fuel with
    | zero => simp at hfuel
    | succ fuel =>
      have hc : ¬isSpace c = true := by simp [hstart c (by simp)]
      simp only [List.length_cons] at hlength hfuel
      rw [Token.scanAll?, if_neg hc, hscan]
      simp [h fuel (by omega)]

/-- Blanks, marks and quotes are no part of a number or word. -/
theorem not_inWord {c : Char} (h : isSpace c ∨ isMark c ∨ c = '"') :
    isNumberChar c = false ∧ c.isAlpha = false := by
  simp only [isSpace, isMark, Bool.or_eq_true, decide_eq_true_eq, or_assoc] at h
  rcases h with rfl | rfl | rfl | rfl | rfl | rfl | rfl | rfl | rfl | rfl | rfl <;> decide

/-- A letter, digit or sign is no blank, mark or quote. -/
theorem startsWord {c : Char} (h : isNumberChar c ∨ c.isAlpha) :
    isSpace c = false ∧ isMark c = false ∧ c ≠ '"' := by
  have hout : ¬(isSpace c ∨ isMark c ∨ c = '"') := by
    intro hseparator
    simp [not_inWord hseparator] at h
  simpa [not_or] using hout

theorem stops_of_separator {c : Char} (hc : isSpace c ∨ isMark c ∨ c = '"') (after : List Char) :
    Stops (c :: after) := by
  intro d hd
  obtain rfl : c = d := by simpa using hd
  exact not_inWord hc

theorem Lexes.mark {c : Char} {cs : List Char} {tokens : List Token} (hc : isMark c)
    (h : Lexes cs tokens) : Lexes (c :: cs) (.mark c :: tokens) := by
  refine .token ?_ (by rw [Token.scan?, if_pos hc]) (by simp) h
  intro d hd
  obtain rfl : c = d := by simpa using hd
  simp only [isMark, Bool.or_eq_true, decide_eq_true_eq, or_assoc] at hc
  rcases hc with rfl | rfl | rfl | rfl | rfl | rfl <;> decide

theorem spells_string (text : Option String) :
    Spells (renderString text) [.scalar (string text)] := by
  intro after ts _ h
  obtain ⟨rest, hrest⟩ : ∃ rest, (renderString text).toList = '"' :: rest := by
    cases text with
    | none => exact ⟨_, rfl⟩
    | some text =>
      exact ⟨(String.join (text.toList.map renderChar) ++ "\"").toList, by simp [renderString]⟩
  refine .token ?_ (scan?_renderString text after) ?_ h
  · rw [hrest]
    intro c hc
    simp only [List.cons_append, List.head?_cons, Option.mem_some_iff] at hc
    subst hc
    decide
  · rw [hrest]
    simp only [List.cons_append, List.length_cons, List.length_append]
    omega

theorem spells_number {lexeme : String} (hnumber : isNumber lexeme.toList) :
    Spells lexeme [.scalar (number lexeme)] := by
  intro after ts hafter h
  obtain ⟨c, rest, hcs, hc, hall⟩ := exists_of_isNumber hnumber
  obtain ⟨htake, hdrop⟩ := Text.takeWhile_append_stop hall fun d hd => (hafter d hd).1
  have hstart := startsWord (.inl (hall c (by simp [hcs])))
  have hscan : Token.scan? (lexeme.toList ++ after) = some (.scalar (number lexeme), after) := by
    rw [hcs, List.cons_append] at htake hdrop ⊢
    rw [Token.scan?, if_neg (by simp [hstart.2.1]), if_neg hstart.2.2, if_pos hc, htake, hdrop,
      ← hcs]
    dsimp only
    rw [hnumber, String.ofList_toList]
    rfl
  refine .token ?_ hscan ?_ h
  · simp [hcs, hstart.1]
  · rw [hcs, List.length_append, List.length_cons]
    omega

theorem spells_word {word : String} {v : Json}
    (hletters : ∀ c ∈ word.toList, c.isAlpha ∧ (c.isDigit || c = '-') = false)
    (hv : literal? word.toList = some v) : Spells word [.scalar v] := by
  intro after ts hafter h
  obtain ⟨htake, hdrop⟩ :=
    Text.takeWhile_append_stop (fun c hc => (hletters c hc).1) fun d hd => (hafter d hd).2
  cases hcs : word.toList with
  | nil =>
    rw [hcs] at hv
    cases hv
  | cons c rest =>
    obtain ⟨hc, hnumber⟩ := hletters c (by simp [hcs])
    have hstart := startsWord (.inr hc)
    have hscan : Token.scan? (word.toList ++ after) = some (.scalar v, after) := by
      rw [hcs, List.cons_append] at htake hdrop ⊢
      rw [Token.scan?, if_neg (by simp [hstart.2.1]), if_neg hstart.2.2,
        if_neg (by simp [hnumber]), htake, hdrop, ← hcs, hv]
      rfl
    rw [← hcs]
    refine .token ?_ hscan ?_ h
    · simp [hcs, hstart.1]
    · rw [hcs, List.length_append, List.length_cons]
      omega

/-! ### The tokens of a document -/

mutual

/-- The tokens of a document. -/
def tokens : Json → List Token
  | array elements => .mark '[' :: ([.mark ','].intercalate (elementTokens elements) ++ [.mark ']'])
  | object members =>
    .mark '\x7b' :: ([.mark ','].intercalate (memberTokens members) ++ [.mark '\x7d'])
  | null => [.scalar null]
  | bool b => [.scalar (bool b)]
  | number lexeme => [.scalar (number lexeme)]
  | string text => [.scalar (string text)]

/-- The tokens of every element. -/
def elementTokens : List Json → List (List Token)
  | [] => []
  | v :: rest => tokens v :: elementTokens rest

/-- The tokens of every member. -/
def memberTokens : List (Option String × Json) → List (List Token)
  | [] => []
  | (key, v) :: rest => (.scalar (string key) :: .mark ':' :: tokens v) :: memberTokens rest

end

mutual

/-- Every number of the document is written as a number. -/
def IsReadable : Json → Prop
  | number lexeme => isNumber lexeme.toList
  | array elements => ElementsAreReadable elements
  | object members => MembersAreReadable members
  | null | bool _ | string _ => True

/-- Every number in the elements is written as a number. -/
def ElementsAreReadable : List Json → Prop
  | [] => True
  | v :: rest => IsReadable v ∧ ElementsAreReadable rest

/-- Every number in the members is written as a number. -/
def MembersAreReadable : List (Option String × Json) → Prop
  | [] => True
  | (_, v) :: rest => IsReadable v ∧ MembersAreReadable rest

end

theorem isSpace_of_mem_margin (depth : Nat) : ∀ c ∈ (margin depth).toList, isSpace c := by
  simp +contextual [margin, isSpace]

/-- A line for each item, with commas between them, has the tokens of the items. -/
theorem spells_lines (depth : Nat) {items : List String} {itemTokens : List (List Token)}
    (h : List.Forall₂ Spells items itemTokens) :
    Spells (String.intercalate ",\n" (items.map fun item => margin depth ++ item))
      ([.mark ','].intercalate itemTokens) := by
  intro after ts hafter hts
  -- What follows an item, a comma or the end of the lines, ends the last token of the item.
  induction h with
  | nil => simpa using hts
  | @cons item ofItem rest ofRest hitem hrest ih =>
    cases hrest with
    | nil =>
      simp only [List.map_cons, List.map_nil, String.intercalate_singleton,
        List.intercalate_singleton, String.toList_append, List.append_assoc]
      exact .spaces (isSpace_of_mem_margin _) (hitem after ts hafter hts)
    | cons _ _ =>
      rw [List.map_cons, List.map_cons, String.intercalate_cons_cons, List.intercalate_cons_cons]
      simp only [String.toList_append, List.append_assoc, List.singleton_append]
      refine .spaces (isSpace_of_mem_margin _) (hitem _ _ (stops_of_separator (by decide) _) ?_)
      exact .mark (by decide) (.space (by decide) ih)

/-- The items of a container have their tokens between those of the container's marks. -/
theorem spells_block (o c : Char) (ho : isMark o) (hc : isMark c) (depth : Nat)
    {items : List String} {itemTokens : List (List Token)}
    (h : List.Forall₂ Spells items itemTokens) :
    Spells (block (String.singleton o) (String.singleton c) depth items)
      (.mark o :: ([.mark ','].intercalate itemTokens ++ [.mark c])) := by
  intro after ts hafter hts
  cases h with
  | nil => simpa [block] using Lexes.mark ho (.mark hc hts)
  | cons hitem hrest =>
    have hlines := spells_lines (depth + 1) (.cons hitem hrest)
    simp only [block, String.toList_append, String.toList_singleton, List.append_assoc,
      show "\n".toList = ['\n'] from rfl, List.cons_append, List.nil_append]
    refine .mark ho (.space (by decide) (hlines _ _ (stops_of_separator (by decide) _) ?_))
    exact .space (by decide) (.spaces (isSpace_of_mem_margin _) (.mark hc hts))

mutual

/-- The written form of a document has the tokens of the document. -/
theorem spells_render : ∀ (v : Json) (depth : Nat), v.IsReadable → Spells (render depth v) v.tokens
  | null, _, _ => by
    unfold render
    exact spells_word (by simp) rfl
  | bool true, _, _ => by
    unfold render
    exact spells_word (by simp) rfl
  | bool false, _, _ => by
    unfold render
    exact spells_word (by simp) rfl
  | number _, _, h => spells_number h
  | string text, _, _ => spells_string text
  | array elements, depth, h =>
    spells_block '[' ']' (by decide) (by decide) depth (spells_elements elements (depth + 1) h)
  | object members, depth, h =>
    spells_block '\x7b' '\x7d' (by decide) (by decide) depth (spells_members members (depth + 1) h)

/-- Every element has its tokens. -/
theorem spells_elements : ∀ (vs : List Json) (depth : Nat), ElementsAreReadable vs →
    List.Forall₂ Spells (renderElements depth vs) (elementTokens vs)
  | [], _, _ => .nil
  | v :: rest, depth, h => .cons (spells_render v depth h.1) (spells_elements rest depth h.2)

/-- Every member has its tokens. -/
theorem spells_members : ∀ (ms : List (Option String × Json)) (depth : Nat),
    MembersAreReadable ms → List.Forall₂ Spells (renderMembers depth ms) (memberTokens ms)
  | [], _, _ => .nil
  | (key, v) :: rest, depth, h => by
    refine .cons ?_ (spells_members rest depth h.2)
    intro after ts hafter hts
    simp only [String.toList_append, List.append_assoc]
    refine spells_string key _ _ (stops_of_separator (by decide) _) ?_
    exact .mark (by decide) (.space (by decide) (spells_render v depth h.1 after ts hafter hts))

end

/-- What begins a document does not close a container. -/
theorem tokens_append_ne (v : Json) {c : Char} (hc : c = ']' ∨ c = '\x7d')
    (more rest : List Token) : v.tokens ++ more ≠ .mark c :: rest := by
  rcases hc with rfl | rfl <;> cases v <;> simp [tokens]

theorem value?_scalar (fuel : Nat) (v : Json) (rest : List Token) :
    value? fuel (.scalar v :: rest) = some (v, rest) := by
  cases fuel <;> rfl

/-- An array with elements is read by reading them. -/
theorem value?_array (fuel : Nat) (v : Json) (more : List Token) :
    value? (fuel + 1) (.mark '[' :: (v.tokens ++ more)) =
      (elements? fuel (v.tokens ++ more)).map fun (vs, after) => (array vs, after) := by
  rw [value?]
  exact fun rest h => tokens_append_ne v (.inl rfl) more rest h

/-- An object with members is read by reading them. -/
theorem value?_object (fuel : Nat) (key : Option String) (more : List Token) :
    value? (fuel + 1) (.mark '\x7b' :: .scalar (string key) :: more) =
      (members? fuel (.scalar (string key) :: more)).map fun (ms, after) => (object ms, after) := by
  rw [value?]
  simp

/-- The tokens of elements begin with those of the first one. -/
theorem exists_elementTokens (v : Json) (vs : List Json) :
    ∃ more, [.mark ','].intercalate (elementTokens (v :: vs)) = v.tokens ++ more := by
  cases vs with
  | nil => exact ⟨[], by simp [elementTokens]⟩
  | cons _ _ =>
    rw [elementTokens, elementTokens, List.intercalate_cons_cons, List.append_assoc]
    exact ⟨_, rfl⟩

/-- The tokens of members begin with the key of the first one. -/
theorem exists_memberTokens (key : Option String) (v : Json)
    (ms : List (Option String × Json)) :
    ∃ more, [.mark ','].intercalate (memberTokens ((key, v) :: ms)) =
      .scalar (string key) :: more := by
  cases ms with
  | nil => exact ⟨_, by rw [memberTokens, memberTokens, List.intercalate_singleton]⟩
  | cons _ _ =>
    rw [memberTokens, memberTokens, List.intercalate_cons_cons, List.append_assoc]
    exact ⟨_, rfl⟩

mutual

/-- The tokens of a document are put together to the document. -/
theorem value?_tokens : ∀ (v : Json) (fuel : Nat) (rest : List Token), v.tokens.length ≤ fuel →
    value? fuel (v.tokens ++ rest) = some (v, rest)
  | null, fuel, rest, _ => value?_scalar fuel null rest
  | bool b, fuel, rest, _ => value?_scalar fuel (bool b) rest
  | number lexeme, fuel, rest, _ => value?_scalar fuel (number lexeme) rest
  | string text, fuel, rest, _ => value?_scalar fuel (string text) rest
  | array [], fuel + 1, rest, _ => rfl
  | object [], fuel + 1, rest, _ => rfl
  | array (v :: vs), fuel + 1, rest, h => by
    -- Reading tells an empty container by the mark behind the opening one, so the first token of
    -- the first element has to be shown.
    have hread := elements?_tokens v vs fuel rest (by simpa [tokens] using h)
    obtain ⟨more, hmore⟩ := exists_elementTokens v vs
    rw [hmore, List.append_assoc] at hread
    rw [tokens, hmore, List.cons_append, List.append_assoc, List.append_assoc,
      List.singleton_append, value?_array, hread]
    rfl
  | object ((key, v) :: ms), fuel + 1, rest, h => by
    have hread := members?_tokens key v ms fuel rest (by simpa [tokens] using h)
    obtain ⟨more, hmore⟩ := exists_memberTokens key v ms
    rw [hmore, List.cons_append] at hread
    rw [tokens, hmore, List.cons_append, List.append_assoc, List.cons_append,
      List.singleton_append, value?_object, hread]
    rfl

/-- The tokens of elements are put together to the elements. -/
theorem elements?_tokens : ∀ (v : Json) (vs : List Json) (fuel : Nat) (rest : List Token),
    ([.mark ','].intercalate (elementTokens (v :: vs))).length + 1 ≤ fuel →
    elements? fuel ([.mark ','].intercalate (elementTokens (v :: vs)) ++ .mark ']' :: rest) =
      some (v :: vs, rest)
  | v, [], fuel + 1, rest, h => by
    rw [elementTokens, elementTokens, List.intercalate_singleton] at h ⊢
    rw [elements?, value?_tokens v fuel _ (by omega)]
    rfl
  | v, next :: vs, fuel + 1, rest, h => by
    rw [elementTokens, elementTokens, List.intercalate_cons_cons, ← elementTokens] at h ⊢
    simp only [List.length_append, List.length_singleton] at h
    rw [List.append_assoc, List.append_assoc, elements?, value?_tokens v fuel _ (by omega)]
    simp [elements?_tokens next vs fuel rest (by omega)]

/-- The tokens of members are put together to the members. -/
theorem members?_tokens : ∀ (key : Option String) (v : Json) (ms : List (Option String × Json))
    (fuel : Nat) (rest : List Token),
    ([.mark ','].intercalate (memberTokens ((key, v) :: ms))).length + 1 ≤ fuel →
    members? fuel ([.mark ','].intercalate (memberTokens ((key, v) :: ms)) ++
        .mark '\x7d' :: rest) =
      some ((key, v) :: ms, rest)
  | key, v, [], fuel + 1, rest, h => by
    rw [memberTokens, memberTokens, List.intercalate_singleton] at h ⊢
    simp only [List.length_cons] at h
    rw [List.cons_append, List.cons_append, members?, value?_tokens v fuel _ (by omega)]
    rfl
  | key, v, (nextKey, next) :: ms, fuel + 1, rest, h => by
    rw [memberTokens, memberTokens, List.intercalate_cons_cons, ← memberTokens] at h ⊢
    simp only [List.length_append, List.length_cons] at h
    rw [List.append_assoc, List.append_assoc, List.cons_append, List.cons_append, members?,
      value?_tokens v fuel _ (by omega)]
    simp [members?_tokens nextKey next ms fuel rest (by omega)]

end

/-! ### Documents -/

/-- A written document is read back. -/
theorem parse?_pretty {v : Json} (h : v.IsReadable) : parse? v.pretty = some v := by
  have hlex : Token.ofText? v.pretty = some v.tokens := by
    have := spells_render v 0 h [] [] (by simp [Stops]) .nil
    simp only [List.append_nil] at this
    exact this _ (Nat.le_refl _)
  have hread := value?_tokens v v.tokens.length [] (Nat.le_refl _)
  rw [List.append_nil] at hread
  rw [parse?, hlex]
  simp [hread]

end Schemata.Json
