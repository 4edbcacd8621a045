/-!
# Finding a word in a text

## Main definitions

* `startsWith`, `occursIn`: whether a word stands at the start of a text, or anywhere in it
* `asciiUpper`, `asciiLower`: a text with its ASCII letters in one case

## Main results

* `occursIn_iff`: a word occurs where the text splits around it
* `takeWhile_append_stop`: the characters of a kind end where another one stands
-/

namespace Schemata.Text

/-- Whether the text begins with the word. -/
def startsWith (text word : String) : Bool := word.toList.isPrefixOf text.toList

/-- Whether the word stands somewhere in the characters. -/
def occursIn (word : List Char) : List Char → Bool
  | [] => word.isEmpty
  | c :: rest => word.isPrefixOf (c :: rest) || occursIn word rest

/-- The text with its ASCII letters in upper case and all else as it is. -/
def asciiUpper (text : String) : String := String.ofList (text.toList.map Char.toUpper)

/-- The text with its ASCII letters in lower case and all else as it is. -/
def asciiLower (text : String) : String := String.ofList (text.toList.map Char.toLower)

theorem startsWith_iff {text word : String} :
    startsWith text word ↔ word.toList <+: text.toList := by
  simp [startsWith]

/-- A word occurs in a text exactly if the text splits around it. -/
theorem occursIn_iff {word cs : List Char} :
    occursIn word cs ↔ ∃ before after, cs = before ++ word ++ after := by
  induction cs with
  | nil => simp [occursIn]
  | cons c rest ih =>
    simp only [occursIn, Bool.or_eq_true, List.isPrefixOf_iff_prefix, ih]
    constructor
    · rintro (⟨after, h⟩ | ⟨before, after, h⟩)
      · exact ⟨[], after, by simp [h]⟩
      · exact ⟨c :: before, after, by simp [h]⟩
    · rintro ⟨before, after, h⟩
      cases before with
      | nil => exact .inl ⟨after, by simpa using h.symm⟩
      | cons b before =>
        simp only [List.cons_append, List.cons.injEq] at h
        exact .inr ⟨before, after, h.2⟩

/-- The first characters of a kind end where another one stands. -/
theorem takeWhile_append_stop {p : Char → Bool} {cs after : List Char} (hcs : ∀ c ∈ cs, p c)
    (hafter : ∀ c ∈ after.head?, p c = false) :
    (cs ++ after).takeWhile p = cs ∧ (cs ++ after).dropWhile p = after := by
  have hnone : after.takeWhile p = [] ∧ after.dropWhile p = after := by
    cases after with
    | nil => simp
    | cons c rest => simp [hafter c (by simp)]
  rw [List.takeWhile_append_of_pos hcs, List.dropWhile_append_of_pos hcs, hnone.1, hnone.2]
  simp

end Schemata.Text
