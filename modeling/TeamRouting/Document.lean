import TeamRouting.Json.Basic

/-!
# Documents

What the data of the library is read from. Documents come in several notations, and each has its
own idea of what may stand for a name, a list or a record. A notation says once how it presents
these things; everything else is read alike from all of them.

* `Document` — what a notation must tell;
* `Document.read?`, `Document.optional?` — fields of a record;
* the instance for `Json`.
-/

namespace TeamRouting

/-- What a notation tells about its documents. Each answer is `none` if the document holds
something else. -/
class Document (δ : Type) where
  /-- a text -/
  text? : δ → Option String
  /-- one of a fixed set of names -/
  name? : δ → Option String
  /-- a whole number below `2 ^ 64` -/
  natural? : δ → Option Nat
  /-- a truth value -/
  flag? : δ → Option Bool
  /-- a list -/
  list? : δ → Option (List δ)
  /-- a record with the given field names, in the order of the names; absent fields are `none` -/
  record? : List String → δ → Option (List (Option δ))
  /-- a map with free keys, the values in plain form -/
  entries? : δ → Option (List (String × Json))
  /-- any value, in plain form -/
  plain? : δ → Option Json

namespace Document

variable {δ α : Type} [Document δ]

/-- A list whose items are all read by one reader. -/
def listOf? (read : δ → Option α) (d : δ) : Option (List α) := (list? d).bind (·.mapM read)

/-- A field with a value to use in its absence. What is there must be readable. -/
def fieldOr (fallback : α) (read : δ → Option α) : Option δ → Option α
  | none => some fallback
  | some d => read d

end Document

/-! ## JSON -/

namespace Json

/-- A name from a fixed set, which may also be given as the key of a single field without a
value. -/
def label? : Json → Option String
  | .text s => some s
  | .object [(s, .null)] => some s
  | _ => none

/-- A record is an object in which no known field is repeated, or a list of its fields in order,
of which the last may be left off. -/
def record? (names : List String) : Json → Option (List (Option Json))
  | .object fields =>
    if names.all fun name => occurrences fields name ≤ 1 then
      some (names.map (field? fields))
    else
      none
  | .list items =>
    if items.length ≤ names.length then
      some (items.map some ++ List.replicate (names.length - items.length) none)
    else
      none
  | _ => none

instance : Document Json where
  text?
    | .text s => some s
    | _ => none
  name? := label?
  natural?
    | .int n => if 0 ≤ n && n < (Nat.pow 2 64 : Int) then some n.toNat else none
    | _ => none
  flag?
    | .bool b => some b
    | _ => none
  list?
    | .list items => some items
    | _ => none
  record? := record?
  entries?
    | .object fields => some fields
    | _ => none
  plain? json := if json.isLegible then some json else none

end Json

end TeamRouting
