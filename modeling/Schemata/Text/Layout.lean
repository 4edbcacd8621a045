import Schemata.Text.Blank

/-!
# Lines and indentation

Texts of several lines are nested by moving every line one tab to the right and taking the
blanks off both ends.

## Main definitions

* `indent`: a text with a tab at the start of every line
* `isMultiline`: whether a text has more than one line
* `trimmed`: a text without blanks at its ends

## Main results

* `indent_append_newline`: indentation goes line by line
-/

namespace Schemata.Text

/-- The characters of the later lines, each line moved one tab to the right. -/
def shiftLines (cs : List Char) : List Char :=
  cs.flatMap fun c => if c = '\n' then ['\n', '\t'] else [c]

/-- The text with one tab in front of every line. -/
def indent (text : String) : String := String.ofList ('\t' :: shiftLines text.toList)

/-- Whether the text goes on after a line end. -/
def isMultiline (text : String) : Bool := text.toList.contains '\n'

/-- The text without the blanks at its two ends. -/
def trimmed (text : String) : String := String.ofList (trim text.toList)

/-- The text without the blanks at its end. -/
def endTrimmed (text : String) : String := String.ofList (trimEnd text.toList)

@[simp] theorem shiftLines_nil : shiftLines [] = [] := rfl

@[simp] theorem shiftLines_append (cs ds : List Char) :
    shiftLines (cs ++ ds) = shiftLines cs ++ shiftLines ds := by
  simp [shiftLines]

/-- A text of one line is only preceded by the tab. -/
theorem shiftLines_of_not_mem {cs : List Char} (h : '\n' ∉ cs) : shiftLines cs = cs := by
  induction cs with
  | nil => rfl
  | cons c rest ih =>
    have hc : c ≠ '\n' := fun eq => h (by simp [eq])
    have hrest := ih fun m => h (by simp [m])
    simp only [shiftLines] at hrest
    simp [shiftLines, hc, hrest]

/-- Each line is moved on its own. -/
theorem indent_append_newline (first rest : String) :
    indent (first ++ "\n" ++ rest) = indent first ++ "\n" ++ indent rest := by
  apply String.toList_inj.1
  simp [indent, shiftLines]

end Schemata.Text
