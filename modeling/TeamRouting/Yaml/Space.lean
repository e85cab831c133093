/-!
# White space in YAML

The lines of a document, and what becomes of white space inside a scalar. Spaces within a line are
kept. A single line end is folded into a space, and of several the first one is dropped; the
spaces around line ends do not count.

* `isReadable` — the characters that a document may hold;
* `uniformBreaks` — the text with one character at the end of each line;
* `standsAlone` — whether a text begins with the mark between documents;
* `Gap` — white space inside a scalar, and the text that it amounts to.
-/

namespace TeamRouting.Yaml

/-! ## Characters -/

/-- The characters that a document may hold: tab, line ends, and all that can be printed. -/
def isReadable (c : Char) : Bool :=
  let n := c.toNat
  n = 0x09 || n = 0x0A || n = 0x0D || (0x20 ≤ n && n ≤ 0x7E) || n = 0x85 ||
    (0xA0 ≤ n && n ≤ 0xFFFD) || 0x10000 ≤ n

/-- The mark of byte order, which may open a document. -/
def byteOrderMark : Char := '\ufeff'

/-- The text with one character at the end of each line. Only the separators of lines and of
paragraphs are kept apart from the ordinary line end. -/
def uniformBreaks : List Char → List Char
  | [] => []
  | '\r' :: '\n' :: cs => '\n' :: uniformBreaks cs
  | '\r' :: cs => '\n' :: uniformBreaks cs
  | '\u0085' :: cs => '\n' :: uniformBreaks cs
  | c :: cs => c :: uniformBreaks cs

/-- Whether a character ends a line. -/
def isBreak (c : Char) : Bool := c = '\n' || c = '\u2028' || c = '\u2029'

/-- Whether a character leaves room within a line. -/
def isSpace (c : Char) : Bool := c = ' ' || c = '\t'

/-- Whether a character is white space. -/
def isWhite (c : Char) : Bool := isSpace c || isBreak c

/-- Whether a text is over or goes on with white space. -/
def isApart : List Char → Bool
  | [] => true
  | c :: _ => isWhite c

/-- Whether a text begins with a character three times over, and then is over or goes on with
white space. -/
def standsAlone (c : Char) : List Char → Bool
  | x :: y :: z :: rest => x = c && y = c && z = c && isApart rest
  | _ => false

/-! ## Gaps -/

/-- White space inside a scalar, characters listed backwards. -/
inductive Gap where
  | none
  /-- spaces within a line -/
  | spaces (cs : List Char)
  /-- line ends; the first one is missing if it was taken back by a backslash -/
  | breaks (first : Option Char) (more : List Char)

namespace Gap

/-- One more character of white space. -/
def add (gap : Gap) (c : Char) : Gap :=
  match gap, isBreak c with
  | none, false => spaces [c]
  | spaces cs, false => spaces (c :: cs)
  | breaks first more, false => breaks first more
  | breaks first more, true => breaks first (c :: more)
  | _, true => breaks (some c) []

/-- Whether the gap holds the end of a line. -/
def hasBreak : Gap → Bool
  | breaks .. => true
  | _ => false

/-- The text that a gap amounts to, backwards. -/
def text : Gap → List Char
  | none => []
  | spaces cs => cs
  | breaks (some '\n') [] => [' ']
  | breaks (some '\n') more => more
  | breaks first more => more ++ first.toList

end Gap

end TeamRouting.Yaml
