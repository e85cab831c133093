import TeamRouting.Text.LowerCase

/-!
# Comparing texts

Texts are compared without regard to case and to the blanks around them.

* `normalize` — the form in which texts are compared;
* `occursIn` — whether one text is a part of another.
-/

namespace TeamRouting.Text

/-- The form in which texts are compared: trimmed, then in lower case. -/
def normalizeChars (cs : List Char) : List Char := lowerChars (trimChars cs)

/-- The form in which texts are compared. -/
def normalize (s : String) : List Char := normalizeChars s.toList

/-- Whether the first text is a contiguous part of the second. -/
def occursIn (needle : List Char) : List Char → Bool
  | [] => needle.isEmpty
  | c :: cs => needle.isPrefixOf (c :: cs) || occursIn needle cs

end TeamRouting.Text
