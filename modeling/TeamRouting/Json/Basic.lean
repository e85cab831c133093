/-!
# JSON values

A JSON document as a value. Objects keep their fields in order and keep repeated keys, because it
is the reader of a field who decides what a repetition means. Whole numbers and fractions are told
apart by the way they were written.

* `Json` — the values;
* `Json.field?`, `Json.occurrences` — looking up fields;
* `Json.isLegible` — whether every part of a value can be read.
-/

namespace TeamRouting

/-- A JSON value. -/
inductive Json where
  | null
  | bool (value : Bool)
  /-- a number written without point and exponent -/
  | int (value : Int)
  | float (value : Float)
  | text (value : String)
  | list (items : List Json)
  | object (fields : List (String × Json))
  /-- Stands for a well-formed part that has no value: a number beyond the floats, a text with
  half a surrogate pair, or a container nested too deep. Such a part can be skipped, not read. -/
  | illegible
deriving Inhabited, BEq, Repr

namespace Json

/-! ## Fields -/

/-- The value of the first field of a name. -/
def field? (fields : List (String × Json)) (name : String) : Option Json :=
  (fields.find? fun field => field.1 = name).map Prod.snd

/-- How often a name occurs among the fields. -/
def occurrences (fields : List (String × Json)) (name : String) : Nat :=
  (fields.filter fun field => field.1 = name).length

/-! ## Legibility -/

mutual

/-- Whether every part of the value can be read. -/
def isLegible : Json → Bool
  | illegible => false
  | list items => areLegible items
  | object fields => fieldsAreLegible fields
  | _ => true
termination_by structural json => json

/-- Whether every value of the list can be read. -/
def areLegible : List Json → Bool
  | [] => true
  | item :: rest => isLegible item && areLegible rest
termination_by structural items => items

/-- Whether the values of all fields can be read. -/
def fieldsAreLegible : List (String × Json) → Bool
  | [] => true
  | (_, value) :: rest => isLegible value && fieldsAreLegible rest
termination_by structural fields => fields

end

end Json

end TeamRouting
