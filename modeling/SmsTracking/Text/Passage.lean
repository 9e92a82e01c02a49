/-!
Passages of a text. Main statement: the search finds a passage just if the text has it as an infix
(`hasPassage_iff`).
-/

namespace SmsTracking.Text

/-- Whether the passage stands somewhere in the text. -/
def hasPassage (passage : List Char) : List Char → Bool
  | [] => passage.isEmpty
  | c :: cs => passage.isPrefixOf (c :: cs) || hasPassage passage cs

theorem hasPassage_iff (passage cs : List Char) :
    hasPassage passage cs = true ↔ passage <:+: cs := by
  induction cs with
  | nil => simp [hasPassage]
  | cons c cs ih => simp [hasPassage, ih, List.infix_cons_iff]

end SmsTracking.Text
