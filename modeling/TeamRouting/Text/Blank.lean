/-!
# Blank characters

The characters that count as white space between the words of a text, and the two ways the
library uses them: a text is trimmed before it is read as a number, an option or a reference,
and a text of blanks alone is no answer at all.

* `isBlank` — the 25 characters with the Unicode property *White_Space*;
* `trim` — the text without the blanks at either end;
* `isBlankText` — whether nothing is left of a text once it is trimmed.
-/

namespace TeamRouting.Text

/-! ## The class -/

/-- Closed ranges of code points, as they are listed for a Unicode property. -/
abbrev Ranges := List (Nat × Nat)

/-- Whether a character lies in one of the ranges. -/
def Ranges.contains (ranges : Ranges) (c : Char) : Bool :=
  ranges.any fun range => range.1 ≤ c.toNat && c.toNat ≤ range.2

/-- The characters with the property *White_Space*. -/
def blankRanges : Ranges :=
  [(9, 13), (32, 32), (0x85, 0x85), (0xA0, 0xA0), (0x1680, 0x1680), (0x2000, 0x200A),
   (0x2028, 0x2029), (0x202F, 0x202F), (0x205F, 0x205F), (0x3000, 0x3000)]

/-- Whether a character is white space. -/
def isBlank (c : Char) : Bool := blankRanges.contains c

/-! ## Trimming -/

/-- The characters from the first one that is not blank. -/
def trimStart (cs : List Char) : List Char := cs.dropWhile isBlank

/-- The characters up to the last one that is not blank. -/
def trimEnd (cs : List Char) : List Char := (cs.reverse.dropWhile isBlank).reverse

/-- The characters between the first and the last one that are not blank. -/
def trimChars (cs : List Char) : List Char := trimEnd (trimStart cs)

/-- A text without the blanks at its two ends. -/
def trim (s : String) : String := String.ofList (trimChars s.toList)

/-- Whether a text holds nothing but blanks. -/
def isBlankText (s : String) : Bool := (trimChars s.toList).isEmpty

end TeamRouting.Text
