import TeamRouting.Json.Number

/-!
# JSON tokens

A JSON text cut into its marks, words and quoted texts. The text is read one character at a time
by a machine that is between tokens, inside a word or inside quotes.

* `Token` — what a text consists of;
* `Scan.step` — the machine;
* `Token.ofChars?` — the tokens of a text, if it can be cut.
-/

namespace TeamRouting.Json

/-- A token. Quoted text with half a surrogate pair has no value. -/
inductive Token where
  | mark (c : Char)
  | word (value : Json)
  | quoted (value : Option String)

/-! ## Quoted text -/

/-- A piece of quoted text: a character, or half of a pair that stands for one. -/
inductive Piece where
  | whole (c : Char)
  | half (code : Nat)

/-- The piece with a code of sixteen bits. -/
def Piece.ofCode (code : Nat) : Piece :=
  if 0xD800 ≤ code && code < 0xE000 then .half code else .whole (Char.ofNat code)

/-- Joins the halves of pairs. Each first half must be followed by a second one. -/
def joinPieces : List Piece → Option (List Char)
  | [] => some []
  | .whole c :: rest => (joinPieces rest).map (c :: ·)
  | .half high :: .half low :: rest =>
    if high < 0xDC00 && 0xDC00 ≤ low then
      (joinPieces rest).map
        (Char.ofNat (0x10000 + 0x400 * (high - 0xD800) + (low - 0xDC00)) :: ·)
    else
      none
  | .half _ :: _ => none

/-- The character that a letter behind a backslash stands for. -/
def escaped? : Char → Option Char
  | '"' => some '"'
  | '\\' => some '\\'
  | '/' => some '/'
  | 'b' => some '\x08'
  | 'f' => some '\x0c'
  | 'n' => some '\n'
  | 'r' => some '\r'
  | 't' => some '\t'
  | _ => none

/-! ## The machine -/

/-- Where the machine stands inside quotes. -/
inductive Inside where
  | plain
  /-- behind a backslash -/
  | escape
  /-- inside the four digits of a code -/
  | code (digits : Nat) (value : Nat)

/-- Where the machine stands. Letters and pieces are listed backwards. -/
inductive Place where
  | between
  | word (letters : List Char)
  | quotes (pieces : List Piece) (inside : Inside)

/-- The tokens found so far, backwards, and the place of the machine. -/
structure Scan where
  found : List Token
  place : Place

/-- The blanks between tokens. -/
def isSpace (c : Char) : Bool := c = ' ' || c = '\t' || c = '\n' || c = '\r'

/-- The marks that hold a text together. -/
def isMark (c : Char) : Bool :=
  c = '[' || c = ']' || c = '\x7b' || c = '\x7d' || c = ':' || c = ','

/-- The value of a word. -/
def wordValue? (letters : List Char) : Option Json :=
  match String.ofList letters with
  | "null" => some null
  | "true" => some (bool true)
  | "false" => some (bool false)
  | _ => (Numeral.ofChars? letters).map Numeral.value

/-- A character between tokens. -/
def Scan.open (found : List Token) (c : Char) : Scan :=
  if isSpace c then ⟨found, .between⟩
  else if isMark c then ⟨.mark c :: found, .between⟩
  else if c = '"' then ⟨found, .quotes [] .plain⟩
  else ⟨found, .word [c]⟩

/-- A character inside quotes. Control characters must be written as escapes. -/
def Scan.inQuotes (found : List Token) (pieces : List Piece) (c : Char) : Inside → Option Scan
  | .plain =>
    if c = '"' then
      some ⟨.quoted ((joinPieces pieces.reverse).map String.ofList) :: found, .between⟩
    else if c = '\\' then some ⟨found, .quotes pieces .escape⟩
    else if c.toNat < 0x20 then none
    else some ⟨found, .quotes (.whole c :: pieces) .plain⟩
  | .escape =>
    if c = 'u' then some ⟨found, .quotes pieces (.code 0 0)⟩
    else (escaped? c).map fun e => ⟨found, .quotes (.whole e :: pieces) .plain⟩
  | .code digits value =>
    (Text.hexDigit? c).map fun h =>
      let code := 16 * value + h
      if digits = 3 then ⟨found, .quotes (.ofCode code :: pieces) .plain⟩
      else ⟨found, .quotes pieces (.code (digits + 1) code)⟩

/-- One character. -/
def Scan.step (scan : Scan) (c : Char) : Option Scan :=
  match scan.place with
  | .between => some (Scan.open scan.found c)
  | .word letters =>
    if isSpace c || isMark c || c = '"' then
      (wordValue? letters.reverse).map fun v => Scan.open (.word v :: scan.found) c
    else
      some ⟨scan.found, .word (c :: letters)⟩
  | .quotes pieces inside => Scan.inQuotes scan.found pieces c inside

/-- The end of the text. -/
def Scan.finish? (scan : Scan) : Option (List Token) :=
  match scan.place with
  | .between => some scan.found.reverse
  | .word letters => (wordValue? letters.reverse).map fun v => (.word v :: scan.found).reverse
  | .quotes _ _ => none

/-- The tokens of a text. -/
def Token.ofChars? (cs : List Char) : Option (List Token) :=
  (cs.foldlM Scan.step ⟨[], .between⟩).bind Scan.finish?

end TeamRouting.Json
