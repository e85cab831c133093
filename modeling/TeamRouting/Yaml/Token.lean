import TeamRouting.Text.Numeral
import TeamRouting.Yaml.Space

/-!
# YAML tokens

A YAML text cut into scalars and the marks around them. The text is read one character at a time
by a machine that keeps the open indentations and looks out for keys: what turns out to be a key
only at the colon behind it gets its mark afterwards, in front of the place where it began.

The notation is limited to maps and lists in block and in flow style and to plain and quoted
scalars. Directives, anchors, tags, block scalars and keys with a question mark are refused.

* `Token` — what a text consists of;
* `Scan.step` — the machine;
* `Token.ofText?` — the tokens of a text, if it can be cut.
-/

namespace TeamRouting.Yaml

/-- A token. -/
inductive Token where
  /-- the mark at the start of a document -/
  | documentStart
  /-- the mark at the end of a document -/
  | documentEnd
  /-- a list begins at a deeper column -/
  | beginList
  /-- a map begins at a deeper column -/
  | beginMap
  /-- what began at a deeper column is over -/
  | finish
  /-- the dash in front of an item -/
  | dash
  /-- an entry of a map begins with its key -/
  | key
  /-- the colon in front of a value -/
  | value
  | openList
  | closeList
  | openMap
  | closeMap
  | comma
  | scalar (text : String) (plain : Bool)

/-! ## Escapes -/

/-- The character that a letter behind a backslash stands for. -/
def escaped? : Char → Option Char
  | '0' => some '\x00'
  | 'a' => some '\x07'
  | 'b' => some '\x08'
  | 't' => some '\t'
  | '\t' => some '\t'
  | 'n' => some '\n'
  | 'v' => some '\x0b'
  | 'f' => some '\x0c'
  | 'r' => some '\r'
  | 'e' => some '\x1b'
  | ' ' => some ' '
  | '"' => some '"'
  | '/' => some '/'
  | '\\' => some '\\'
  | 'N' => some '\u0085'
  | '_' => some '\u00a0'
  | 'L' => some '\u2028'
  | 'P' => some '\u2029'
  | _ => none

/-- How many digits of a code follow a letter behind a backslash. -/
def codeLength? : Char → Option Nat
  | 'x' => some 2
  | 'u' => some 4
  | 'U' => some 8
  | _ => none

/-- The character with a code. -/
def charOfCode? (code : Nat) : Option Char :=
  if code.isValidChar then some (Char.ofNat code) else none

/-! ## The machine -/

/-- A place where a key may have begun. It must be one if it stands where the entries of the
innermost map begin. -/
structure Candidate where
  /-- the number of tokens in front of it -/
  position : Nat
  line : Nat
  column : Nat
  index : Nat
  required : Bool

/-- Where the machine stands inside quotes. -/
inductive Inside where
  | text
  /-- behind a backslash, or behind the first of two single quotes -/
  | escape
  /-- inside the digits of a code -/
  | code (left : Nat) (value : Nat)

/-- Where the machine stands. Letters are listed backwards. -/
inductive Place where
  | between
  | comment
  /-- inside a mark between documents -/
  | mark (left : Nat)
  | plain (letters : List Char) (gap : Gap)
  | quoted (quote : Char) (letters : List Char) (gap : Gap) (inside : Inside)

/-- The state of the machine. -/
structure Scan where
  /-- the tokens found so far, backwards -/
  found : List Token := []
  /-- the columns of the open blocks, the innermost first -/
  indents : List Nat := []
  /-- the candidates around each open flow collection, the innermost first -/
  outer : List (Option Candidate) := []
  candidate : Option Candidate := none
  /-- whether a key may begin at the next token -/
  keyAllowed : Bool := true
  line : Nat := 0
  column : Nat := 0
  index : Nat := 0
  place : Place := .between

namespace Scan

/-- Whether the machine is inside a flow collection. -/
def inFlow (scan : Scan) : Bool := !scan.outer.isEmpty

/-- One more token. -/
def emit (scan : Scan) (t : Token) : Scan := { scan with found := t :: scan.found }

/-- The position behind one more character. -/
def advance (scan : Scan) (c : Char) : Scan :=
  if isBreak c then
    { scan with line := scan.line + 1, column := 0, index := scan.index + 1 }
  else
    { scan with column := scan.column + 1, index := scan.index + 1 }

/-! ### Indentation -/

/-- Whether a column is deeper than the innermost block. -/
def isDeeper (scan : Scan) (column : Nat) : Bool :=
  match scan.indents with
  | [] => true
  | indent :: _ => indent < column

/-- The first column that belongs to the content of the innermost block. -/
def contentColumn (scan : Scan) : Nat :=
  match scan.indents with
  | [] => 0
  | indent :: _ => indent + 1

/-- Finishes the blocks that a column is not part of. Inside a flow collection, indentation does
not matter. -/
def dedent (scan : Scan) (column : Nat) : Scan :=
  if scan.inFlow then
    scan
  else
    let ended := scan.indents.takeWhile (column < ·)
    { scan with
      found := List.replicate ended.length .finish ++ scan.found
      indents := scan.indents.drop ended.length }

/-- Finishes all blocks. -/
def dedentAll (scan : Scan) : Scan :=
  { scan with
    found := List.replicate scan.indents.length .finish ++ scan.found
    indents := [] }

/-! ### Keys -/

/-- Gives up the present candidate, which must not be required. -/
def dropCandidate? (scan : Scan) : Option Scan :=
  match scan.candidate with
  | some k => if k.required then none else some { scan with candidate := none }
  | none => some scan

/-- Notes the present place as a candidate, if a key may begin here. -/
def noteCandidate? (scan : Scan) : Option Scan :=
  if scan.keyAllowed then
    scan.dropCandidate?.map fun scan =>
      { scan with candidate := some {
          position := scan.found.length
          line := scan.line
          column := scan.column
          index := scan.index
          required := !scan.inFlow && scan.indents.head? = some scan.column } }
  else
    some scan

/-- A candidate stays one on its line, for a limited number of characters. -/
def isStale (scan : Scan) (k : Candidate) : Bool :=
  k.line < scan.line || k.index + 1024 < scan.index

/-- Whether some candidate that is required can be none any more. -/
def lacksKey (scan : Scan) : Bool :=
  (scan.candidate :: scan.outer).any (·.any fun k => k.required && scan.isStale k)

/-- Gives up the candidates that can be none any more. -/
def dropStale? (scan : Scan) : Option Scan :=
  if scan.lacksKey then
    none
  else
    some { scan with
      candidate := scan.candidate.filter (!scan.isStale ·)
      outer := scan.outer.map (·.filter (!scan.isStale ·)) }

/-- Makes the present candidate a key. A map begins with it if it stands deeper than the innermost
block. -/
def makeKey? (scan : Scan) : Option Scan :=
  scan.candidate.map fun k =>
    let later := scan.found.take (scan.found.length - k.position)
    let earlier := scan.found.drop (scan.found.length - k.position)
    if !scan.inFlow && scan.isDeeper k.column then
      { scan with
        found := later ++ .key :: .beginMap :: earlier
        indents := k.column :: scan.indents
        candidate := none
        keyAllowed := false }
    else
      { scan with
        found := later ++ .key :: earlier
        candidate := none
        keyAllowed := false }

/-! ### Marks -/

/-- A mark between documents, which finishes all blocks. -/
def betweenDocuments? (scan : Scan) (t : Token) : Option Scan :=
  if scan.inFlow then
    none
  else
    scan.dedentAll.dropCandidate?.map fun scan =>
      { scan.emit t with keyAllowed := false, place := .mark 2 }

/-- A bracket that opens a flow collection. -/
def openFlow? (scan : Scan) (t : Token) : Option Scan :=
  scan.noteCandidate?.map fun scan =>
    { scan.emit t with
      outer := scan.candidate :: scan.outer
      candidate := none
      keyAllowed := true }

/-- A bracket that closes a flow collection. -/
def closeFlow? (scan : Scan) (t : Token) : Option Scan :=
  match scan.outer with
  | [] => none
  | candidate :: outer =>
    some { scan.emit t with candidate, outer, keyAllowed := false }

/-- A comma in a flow collection. -/
def comma? (scan : Scan) : Option Scan :=
  if scan.inFlow then
    some { scan.emit .comma with candidate := none, keyAllowed := true }
  else
    none

/-- A dash in front of an item. A list begins with it if it stands deeper than the innermost
block. -/
def dash? (scan : Scan) : Option Scan :=
  if scan.inFlow || !scan.keyAllowed then
    none
  else
    let begun :=
      if scan.isDeeper scan.column then
        { scan.emit .beginList with indents := scan.column :: scan.indents }
      else
        scan
    begun.dropCandidate?.map fun scan => { scan.emit .dash with keyAllowed := true }

/-- A plain or quoted scalar begins. -/
def beginScalar? (scan : Scan) (place : Place) : Option Scan :=
  scan.noteCandidate?.map fun scan => { scan with keyAllowed := false, place }

/-- The characters that a plain scalar cannot begin with. -/
def indicators : List Char := "-?:,[]\x7b\x7d#&*!|>'\"%@\x60".toList

/-- Whether a plain scalar begins here. A dash, a question mark and a colon can begin one if a
character follows closely, the latter two only outside of flow collections. -/
def beginsPlain (scan : Scan) (c : Char) (rest : List Char) : Bool :=
  if c = '-' then !isApart rest
  else if c = '?' || c = ':' then !scan.inFlow && !isApart rest
  else !isWhite c && !indicators.contains c

/-- The first character of a token. -/
def beginToken? (scan : Scan) (c : Char) (rest : List Char) : Option Scan :=
  if scan.column = 0 && c = '%' then none
  else if scan.column = 0 && standsAlone '-' (c :: rest) then scan.betweenDocuments? .documentStart
  else if scan.column = 0 && standsAlone '.' (c :: rest) then scan.betweenDocuments? .documentEnd
  else if c = '[' then scan.openFlow? .openList
  else if c = '\x7b' then scan.openFlow? .openMap
  else if c = ']' then scan.closeFlow? .closeList
  else if c = '\x7d' then scan.closeFlow? .closeMap
  else if c = ',' then scan.comma?
  else if c = '-' && isApart rest then scan.dash?
  else if c = ':' && (scan.inFlow || isApart rest) then scan.makeKey?.map (·.emit .value)
  else if c = '\x27' || c = '"' then scan.beginScalar? (.quoted c [] .none .text)
  else if scan.beginsPlain c rest then scan.beginScalar? (.plain [c] .none)
  else none

/-- A character between tokens. Tabs are white space where no key may begin. -/
def between? (scan : Scan) (c : Char) (rest : List Char) : Option Scan :=
  let scan := { scan with place := .between }
  if isBreak c then some { scan with keyAllowed := scan.keyAllowed || !scan.inFlow }
  else if c = ' ' || (c = '\t' && (scan.inFlow || !scan.keyAllowed)) then some scan
  else if c = '#' then some { scan with place := .comment }
  else scan.dropStale?.bind fun scan => (scan.dedent scan.column).beginToken? c rest

/-! ### Scalars -/

/-- A plain scalar is over. If it was followed by a line end, a key may come next. -/
def endPlain (scan : Scan) (letters : List Char) (gap : Gap) : Scan :=
  { scan.emit (.scalar (String.ofList letters.reverse) true) with
    keyAllowed := scan.keyAllowed || gap.hasBreak
    place := .between }

/-- Whether a plain scalar cannot go on behind white space with the given character. -/
def endsBehindGap (scan : Scan) (c : Char) (rest : List Char) : Bool :=
  (!scan.inFlow && scan.column < scan.contentColumn) ||
    (scan.column = 0 && (standsAlone '-' (c :: rest) || standsAlone '.' (c :: rest))) ||
    c = '#'

/-- The marks of flow collections. -/
def flowMarks : List Char := ",[]\x7b\x7d".toList

/-- Whether a colon in a flow collection is followed closely by a mark, which is refused. -/
def isUnclear (scan : Scan) (c : Char) (rest : List Char) : Bool :=
  scan.inFlow && c = ':' && rest.head?.any fun next => next = '?' || flowMarks.contains next

/-- Whether a character ends a plain scalar wherever it comes. -/
def endsPlain (scan : Scan) (c : Char) (rest : List Char) : Bool :=
  (c = ':' && isApart rest) || (scan.inFlow && flowMarks.contains c)

/-- A character in a plain scalar. -/
def inPlain? (scan : Scan) (letters : List Char) (gap : Gap) (c : Char) (rest : List Char) :
    Option Scan :=
  if isWhite c then
    if c = '\t' && gap.hasBreak && scan.column < scan.contentColumn then none
    else some { scan with place := .plain letters (gap.add c) }
  else
    let behindGap := match gap with
      | .none => false
      | _ => true
    if behindGap && scan.endsBehindGap c rest then
      (scan.endPlain letters gap).between? c rest
    else if scan.isUnclear c rest then none
    else if scan.endsPlain c rest then (scan.endPlain letters gap).between? c rest
    else some { scan with place := .plain (c :: gap.text ++ letters) .none }

/-- A character of the text in quotes. -/
def inQuotes? (scan : Scan) (quote : Char) (letters : List Char) (gap : Gap) (c : Char)
    (rest : List Char) : Option Scan :=
  if isWhite c then
    some { scan with place := .quoted quote letters (gap.add c) .text }
  else if scan.column = 0 && (standsAlone '-' (c :: rest) || standsAlone '.' (c :: rest)) then
    none
  else
    let letters := gap.text ++ letters
    if c = quote then
      if c = '\x27' && rest.head? = some '\x27' then
        some { scan with place := .quoted quote letters .none .escape }
      else
        some { scan.emit (.scalar (String.ofList letters.reverse) false) with place := .between }
    else if c = '\\' && quote = '"' then
      some { scan with place := .quoted quote letters .none .escape }
    else
      some { scan with place := .quoted quote (c :: letters) .none .text }

/-- A character behind a backslash, or the second of two single quotes. -/
def inEscape? (scan : Scan) (quote : Char) (letters : List Char) (c : Char) : Option Scan :=
  if quote = '\x27' then
    some { scan with place := .quoted quote (c :: letters) .none .text }
  else if isBreak c then
    some { scan with place := .quoted quote letters (.breaks none []) .text }
  else
    match codeLength? c with
    | some left => some { scan with place := .quoted quote letters .none (.code left 0) }
    | none =>
      (escaped? c).map fun e => { scan with place := .quoted quote (e :: letters) .none .text }

/-- A digit of a code. -/
def inCode? (scan : Scan) (quote : Char) (letters : List Char) (left value : Nat) (c : Char) :
    Option Scan :=
  (Text.hexDigit? c).bind fun h =>
    let code := 16 * value + h
    if left = 1 then
      (charOfCode? code).map fun e =>
        { scan with place := .quoted quote (e :: letters) .none .text }
    else
      some { scan with place := .quoted quote letters .none (.code (left - 1) code) }

/-! ### Texts -/

/-- One character, in view of those that follow. -/
def step (scan : Scan) (c : Char) (rest : List Char) : Option Scan :=
  match scan.place with
  | .between => scan.between? c rest
  | .comment => if isBreak c then scan.between? c rest else some scan
  | .mark left =>
    some { scan with place := if left = 1 then .between else .mark (left - 1) }
  | .plain letters gap => scan.inPlain? letters gap c rest
  | .quoted quote letters gap .text => scan.inQuotes? quote letters gap c rest
  | .quoted quote letters _ .escape => scan.inEscape? quote letters c
  | .quoted quote letters _ (.code left value) => scan.inCode? quote letters left value c

/-- All characters, one after the other. -/
def run (scan : Scan) : List Char → Option Scan
  | [] => some scan
  | c :: rest =>
    match scan.step c rest with
    | some next => run (next.advance c) rest
    | none => none

/-- The end of the text. -/
def tokens? (scan : Scan) : Option (List Token) := do
  let scan ← match scan.place with
    | .plain letters gap => some (scan.endPlain letters gap)
    | .quoted .. => none
    | _ => some scan
  if scan.inFlow then
    none
  else
    let scan ← scan.dropStale?
    let scan ← scan.dedentAll.dropCandidate?
    return scan.found.reverse

end Scan

/-- The tokens of a text. -/
def Token.ofText? (s : String) : Option (List Token) :=
  let cs := match s.toList with
    | [] => []
    | c :: cs => if c = byteOrderMark then cs else c :: cs
  if cs.all isReadable then (Scan.run {} (uniformBreaks cs)).bind Scan.tokens? else none

end TeamRouting.Yaml
