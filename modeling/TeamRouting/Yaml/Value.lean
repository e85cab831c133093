import TeamRouting.Decimal.Reading
import TeamRouting.Document
import TeamRouting.Yaml.Node

/-!
# YAML values

What the scalars of a document stand for. Where a text is wanted, every scalar is one, just as it
is written. Otherwise a quoted scalar is a text, and a plain one is what the core schema makes of
it: nothing, a truth value, a number, or a text if it is none of these.

* `flag?`, `whole?`, `number?` — the plain scalars of each kind;
* `plainValue?` — the value of a plain scalar;
* the instance of `Document` for nodes.
-/

namespace TeamRouting.Yaml

open Text (digits? digitsOfBase?)

/-! ## Plain scalars -/

/-- Whether a text stands for nothing. -/
def isNothing (s : String) : Bool :=
  s = "" || s = "~" || s = "null" || s = "Null" || s = "NULL"

/-- A truth value. -/
def flag? (s : String) : Option Bool :=
  if s = "true" || s = "True" || s = "TRUE" then some true
  else if s = "false" || s = "False" || s = "FALSE" then some false
  else none

/-- The characters behind a plus sign, if there is one. -/
def dropPlus : List Char → List Char
  | '+' :: cs => cs
  | cs => cs

/-- The characters behind a sign, if there is one. -/
def dropSign : List Char → List Char
  | '+' :: cs => cs
  | '-' :: cs => cs
  | cs => cs

/-- Whether digits follow a leading zero, which makes a text of them. -/
def hasLeadingZero (cs : List Char) : Bool :=
  match dropSign cs with
  | '0' :: rest => !rest.isEmpty && rest.all Char.isDigit
  | _ => false

/-- Digits, decimal or of the base that is named in front of them. -/
def magnitude? : List Char → Option Nat
  | '0' :: 'x' :: cs => digitsOfBase? 16 cs
  | '0' :: 'o' :: cs => digitsOfBase? 8 cs
  | '0' :: 'b' :: cs => digitsOfBase? 2 cs
  | cs => if hasLeadingZero cs then none else digits? cs

/-- A whole number without a minus sign. -/
def unsigned? (cs : List Char) : Option Nat := magnitude? (dropPlus cs)

/-- A whole number. -/
def whole? : List Char → Option Int
  | '-' :: cs => (magnitude? cs).map fun n => -(n : Int)
  | cs => (unsigned? cs).map fun n => (n : Int)

/-- The names of the numbers that are not finite. -/
def namedNumber? (s : String) : Option Float :=
  if s = ".inf" || s = ".Inf" || s = ".INF" then some Decimal.infinity
  else if s = "+.inf" || s = "+.Inf" || s = "+.INF" then some Decimal.infinity
  else if s = "-.inf" || s = "-.Inf" || s = "-.INF" then some (-Decimal.infinity)
  else if s = ".nan" || s = ".NaN" || s = ".NAN" then some Decimal.notANumber
  else none

/-- A decimal number that is finite, with at most one sign. -/
def decimal? (cs : List Char) : Option Float :=
  if hasLeadingZero cs then none else (Decimal.read? cs).filter Float.isFinite

/-- A number that is not whole. -/
def number? (s : String) : Option Float := (namedNumber? s).or (decimal? s.toList)

/-- Whether a whole number is one of 64 bits, with or without a sign. -/
def isNarrow (n : Int) : Bool := -(Nat.pow 2 63 : Int) ≤ n && n < (Nat.pow 2 64 : Int)

/-- Whether a whole number is one of 128 bits, with or without a sign. -/
def isWide (n : Int) : Bool := -(Nat.pow 2 127 : Int) ≤ n && n < (Nat.pow 2 128 : Int)

/-- The value of a plain scalar that is not a whole number. -/
def looseValue (s : String) : Json := ((number? s).map Json.float).getD (.text s)

/-- The value of a plain scalar. Whole numbers of more than 64 bits are refused up to 128 bits,
and are no whole numbers beyond that. -/
def plainValue? (s : String) : Option Json :=
  if isNothing s then some .null
  else
    match flag? s, whole? s.toList with
    | some b, _ => some (.bool b)
    | none, some n =>
      if isNarrow n then some (.int n) else if isWide n then none else some (looseValue s)
    | none, none => some (looseValue s)

/-! ## Nodes -/

namespace Node

/-- The fields of a map whose keys are all scalars. -/
def fields? (entries : List (Node × Node)) : Option (List (String × Node)) :=
  entries.mapM fun entry =>
    match entry.1 with
    | scalar s _ => some (s, entry.2)
    | _ => none

/-- The fields with the given names, of which none may be repeated. -/
def select? (names : List String) (fields : List (String × Node)) : Option (List (Option Node)) :=
  names.mapM fun name =>
    match fields.filter (·.1 = name) with
    | [] => some none
    | [field] => some (some field.2)
    | _ => none

mutual

/-- The value of a node. A map with a key that is not a text has no value, but can be skipped. -/
def value? : Node → Option Json
  | scalar s true => plainValue? s
  | scalar s false => some (.text s)
  | list items => (values? items).map Json.list
  | map entries => (entryValues? entries).map fun fields => (fields.map Json.object).getD .illegible
  | illegible => none
termination_by structural node => node

/-- The values of several nodes. -/
def values? : List Node → Option (List Json)
  | [] => some []
  | item :: rest =>
    match value? item, values? rest with
    | some json, some jsons => some (json :: jsons)
    | _, _ => none
termination_by structural items => items

/-- The values of several entries; the inner result is `none` if some key is not a text. -/
def entryValues? : List (Node × Node) → Option (Option (List (String × Json)))
  | [] => some (some [])
  | (key, value) :: rest =>
    match value? key, value? value, entryValues? rest with
    | some (.text name), some json, some fields => some (fields.map ((name, json) :: ·))
    | some _, some _, some _ => some none
    | _, _, _ => none
termination_by structural entries => entries

end

/-- In a document, an empty plain scalar stands for a list or a map without contents as well. -/
instance : Document Node where
  text?
    | scalar s _ => some s
    | _ => none
  name?
    | scalar s _ => some s
    | _ => none
  natural?
    | scalar s true => (unsigned? s.toList).filter (· < Nat.pow 2 64)
    | _ => none
  flag?
    | scalar s true => flag? s
    | _ => none
  list?
    | list items => some items
    | scalar "" true => some []
    | _ => none
  record? names
    | map entries => (fields? entries).bind (select? names)
    | scalar "" true => some (names.map fun _ => none)
    | _ => none
  entries?
    | map entries => do (← fields? entries).mapM fun field => (value? field.2).map (field.1, ·)
    | scalar "" true => some []
    | _ => none
  plain? := value?

end Node

end TeamRouting.Yaml
