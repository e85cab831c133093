import TeamRouting.Text.CaseTable

/-!
# Lower case

The full lower-case form of a text, as the Unicode standard defines it without regard to a
language. Every character has one lower-case character, with two exceptions: the dotted capital I
becomes an `i` and a combining dot, and a capital sigma that ends a word becomes a final sigma.

* `lowerChars` — the lower-case form of a text;
* `endsWord` — whether a sigma stands at the end of a word;
* `equalsIgnoringCase` — equality of texts up to the case of ASCII letters.
-/

namespace TeamRouting.Text

/-! ## One character -/

/-- The lower-case form of a character that has one character for it. -/
def lowerChar (c : Char) : Char :=
  if c.toNat < 0x80 then c.toLower else (lowerRuns.findSome? (·.lowered? c)).getD c

/-! ## The final sigma -/

/-- Whether the first character that casing does not ignore is a cased one. -/
def leadsToCased (cs : List Char) : Bool :=
  match cs.dropWhile caseIgnorableRanges.contains with
  | [] => false
  | c :: _ => casedRanges.contains c

/-- Whether a letter between these neighbours ends a word: a cased letter stands before it and
none behind it. The text before it is given backwards. -/
def endsWord (before after : List Char) : Bool := leadsToCased before && !leadsToCased after

/-! ## Texts -/

/-- The lower-case form of one character at its place in a text. -/
def lowerAt (before : List Char) (c : Char) (after : List Char) : List Char :=
  if c = 'Σ' then
    [if endsWord before after then 'ς' else 'σ']
  else if c = 'İ' then
    ['i', '\u0307']
  else
    [lowerChar c]

/-- The lower-case form of what follows a text, which is given backwards. -/
def lowerAfter (before : List Char) : List Char → List Char
  | [] => []
  | c :: rest => lowerAt before c rest ++ lowerAfter (c :: before) rest

/-- The lower-case form of a text. -/
def lowerChars (cs : List Char) : List Char := lowerAfter [] cs

/-- The lower-case form of a text. -/
def lower (s : String) : String := String.ofList (lowerChars s.toList)

/-- Whether two texts differ at most in the case of ASCII letters. -/
def equalsIgnoringCase (s t : String) : Bool :=
  s.toList.map Char.toLower == t.toList.map Char.toLower

end TeamRouting.Text
