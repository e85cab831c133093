import TeamRouting.Decimal.Layout
import TeamRouting.Json.Basic

/-!
# Writing JSON

A JSON value as text, either without a superfluous character or indented for reading.

* `Json.numberLayout` — how floats are written;
* `Json.compact` — the shortest form;
* `Json.pretty` — one item or field a line.
-/

namespace TeamRouting.Json

/-! ## Numbers and quoted text -/

/-- Floats carry the fewest digits that identify them and a point; an exponent, always with its
sign, is written below `10 ^ -5` and from `10 ^ 16` on. -/
def numberLayout : Decimal.Layout where
  tie := .even
  pointZero := true
  window := some (-5, 16)

/-- A float; numbers without digits have no JSON text and are written `null`. -/
def floatText (x : Float) : String := if x.isFinite then numberLayout.render x else "null"

/-- A hexadecimal digit in lower case. -/
def hexChar (n : Nat) : Char := Nat.digitChar n

/-- A character inside quotes. Only quotes, backslashes and control characters are escaped. -/
def escape (c : Char) : List Char :=
  match c with
  | '"' => ['\\', '"']
  | '\\' => ['\\', '\\']
  | '\x08' => ['\\', 'b']
  | '\x0c' => ['\\', 'f']
  | '\n' => ['\\', 'n']
  | '\r' => ['\\', 'r']
  | '\t' => ['\\', 't']
  | c =>
    if c.toNat < 0x20 then
      ['\\', 'u', '0', '0', hexChar (c.toNat / 16), hexChar (c.toNat % 16)]
    else
      [c]

/-- A text in quotes. -/
def quote (s : String) : String := "\"" ++ String.ofList (s.toList.flatMap escape) ++ "\""

/-! ## The compact form -/

mutual

/-- The value without blanks. -/
def compact : Json → String
  | null => "null"
  | bool b => if b then "true" else "false"
  | int n => toString n
  | float x => floatText x
  | text s => quote s
  | list items => "[" ++ compactItems items ++ "]"
  | object fields => "\x7b" ++ compactFields fields ++ "\x7d"
  | illegible => "null"
termination_by structural json => json

/-- Items with commas between them. -/
def compactItems : List Json → String
  | [] => ""
  | [item] => compact item
  | item :: rest => compact item ++ "," ++ compactItems rest
termination_by structural items => items

/-- Fields with commas between them. -/
def compactFields : List (String × Json) → String
  | [] => ""
  | [(key, value)] => quote key ++ ":" ++ compact value
  | (key, value) :: rest => quote key ++ ":" ++ compact value ++ "," ++ compactFields rest
termination_by structural fields => fields

end

/-! ## The indented form -/

/-- A new line at a depth. -/
def newline (depth : Nat) : String := "\n" ++ String.ofList (List.replicate (2 * depth) ' ')

mutual

/-- The value with each item and field on a line of its own, two columns deeper than its
container. -/
def prettyAt (depth : Nat) : Json → String
  | list [] => "[]"
  | list items => "[" ++ prettyItems (depth + 1) items ++ newline depth ++ "]"
  | object [] => "\x7b\x7d"
  | object fields => "\x7b" ++ prettyFields (depth + 1) fields ++ newline depth ++ "\x7d"
  | json => compact json
termination_by structural json => json

/-- Items at a depth. -/
def prettyItems (depth : Nat) : List Json → String
  | [] => ""
  | [item] => newline depth ++ prettyAt depth item
  | item :: rest => newline depth ++ prettyAt depth item ++ "," ++ prettyItems depth rest
termination_by structural items => items

/-- Fields at a depth. -/
def prettyFields (depth : Nat) : List (String × Json) → String
  | [] => ""
  | [(key, value)] => newline depth ++ quote key ++ ": " ++ prettyAt depth value
  | (key, value) :: rest =>
    newline depth ++ quote key ++ ": " ++ prettyAt depth value ++ "," ++ prettyFields depth rest
termination_by structural fields => fields

end

/-- The value indented for reading. -/
def pretty (json : Json) : String := prettyAt 0 json

end TeamRouting.Json
