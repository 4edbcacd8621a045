/-!
# Blank characters

The characters of the Unicode property `White_Space`, and the removal of them from the ends of
a text. The property is wider than the class of the core library, which knows four of the
ASCII blanks only.

## Main definitions

* `isBlank`: membership in `White_Space`
* `trimStart`, `trimEnd`, `trim`: a text without the blanks at its ends

## Main results

* `isBlank_of_isWhitespace`: every blank of the core library is a blank here
* `trimEnd_append_blanks`, `trimEnd_eq_self`: what is removed from the end, and when nothing is
-/

namespace Schemata.Text

/-- The characters of the Unicode property `White_Space`. -/
def isBlank (c : Char) : Bool :=
  (9 ≤ c.toNat && c.toNat ≤ 13) || c.toNat == 0x20 || c.toNat == 0x85 || c.toNat == 0xA0
    || c.toNat == 0x1680 || (0x2000 ≤ c.toNat && c.toNat ≤ 0x200A) || c.toNat == 0x2028
    || c.toNat == 0x2029 || c.toNat == 0x202F || c.toNat == 0x205F || c.toNat == 0x3000

/-- The text from its first character that is not blank. -/
def trimStart (cs : List Char) : List Char := cs.dropWhile isBlank

/-- The text up to its last character that is not blank. -/
def trimEnd : List Char → List Char
  | [] => []
  | c :: rest =>
    match trimEnd rest with
    | [] => if isBlank c then [] else [c]
    | kept => c :: kept

/-- The text without the blanks at its two ends. -/
def trim (cs : List Char) : List Char := trimEnd (trimStart cs)

theorem isBlank_of_isWhitespace {c : Char} (h : c.isWhitespace) : isBlank c := by
  simp only [Char.isWhitespace, Bool.or_eq_true, decide_eq_true_eq] at h
  rcases h with ((h | h) | h) | h <;> subst h <;> rfl

@[simp] theorem trimEnd_nil : trimEnd [] = [] := rfl

/-- Blanks at the end do not show after trimming. -/
theorem trimEnd_append_blanks (cs : List Char) {blanks : List Char}
    (h : ∀ c ∈ blanks, isBlank c) : trimEnd (cs ++ blanks) = trimEnd cs := by
  have all : trimEnd blanks = [] := by
    induction blanks with
    | nil => rfl
    | cons b rest ih =>
      have hrest := ih fun c hc => h c (by simp [hc])
      have hb : isBlank b := h b (by simp)
      simp [trimEnd, hrest, hb]
  induction cs with
  | nil => simpa using all
  | cons c rest ih => simp [trimEnd, ih]

/-- A text whose last character is not blank is left alone. -/
theorem trimEnd_eq_self {cs : List Char} {c : Char} (h : isBlank c = false) :
    trimEnd (cs ++ [c]) = cs ++ [c] := by
  induction cs with
  | nil => simp [trimEnd, h]
  | cons d rest ih =>
    have : rest ++ [c] ≠ [] := by simp
    rw [List.cons_append, trimEnd, ih]
    split
    · contradiction
    · rfl

end Schemata.Text
