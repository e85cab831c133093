import TeamRouting.Document
import TeamRouting.Query.Basic

/-!
# Query trees in JSON

The written form of a tree. A group is an object with a `combinator` and its `rules`, a rule is an
object with an `attributeId`, an `operator` and perhaps a `value`. On reading, an object is taken
for a group if it can be one and for a rule otherwise; a rule may also be a list of its three
parts.

* `Query.toJson` — writes a tree;
* `Query.ofJson?` — reads a tree with authored operands.
-/

namespace TeamRouting

/-! ## Writing -/

/-- Writes a rule. -/
def Rule.toJson {ω : Type} (operand : ω → Json) (r : Rule ω) : Json :=
  .object <|
    [("attributeId", .text r.attributeId), ("operator", .text r.operator.name)] ++
      (r.operand.map fun o => ("value", operand o)).toList

namespace Query

variable {ω : Type}

mutual

/-- Writes a tree, given how its operands are written. -/
def toJson (operand : ω → Json) : Query ω → Json
  | group c children =>
    .object [("combinator", .text c.name), ("rules", .list (toJsonAll operand children))]
  | rule r => r.toJson operand
termination_by structural query => query

/-- Writes several trees. -/
def toJsonAll (operand : ω → Json) : List (Query ω) → List Json
  | [] => []
  | query :: rest => toJson operand query :: toJsonAll operand rest
termination_by structural queries => queries

end

end Query

/-! ## Reading -/

/-- Reads the value of a rule, where `null` stands for none. -/
def readOperand? : Option Json → Option (Option Operand)
  | none => some none
  | some .null => some none
  | some json => (Operand.ofJson? json).map some

/-- Reads a rule from its parts. -/
def Rule.ofParts? (attributeId operator : Json) (value : Option Json) : Option (Rule Operand) := do
  let attributeId ← Document.text? attributeId
  let operator ← (Document.name? operator).bind Operator.ofName?
  let operand ← readOperand? value
  return ⟨attributeId, operator, operand⟩

/-- Reads a rule from the fields of an object, of which other fields are ignored. -/
def Rule.ofFields? (fields : List (String × Json)) : Option (Rule Operand) := do
  match ← Json.record? ["attributeId", "operator", "value"] (.object fields) with
  | [some attributeId, some operator, value] => Rule.ofParts? attributeId operator value
  | _ => none

/-- The combinator among the fields of an object, if the object can be a group. -/
def groupCombinator? (fields : List (String × Json)) : Option Combinator := do
  match ← Json.record? ["combinator", "rules"] (.object fields) with
  | [some combinator, _] => (Document.name? combinator).bind Combinator.ofName?
  | _ => none

namespace Query

mutual

/-- Reads a tree. -/
def ofJson? : Json → Option (Query Operand)
  | .object fields =>
    match groupCombinator? fields, childrenOf? fields with
    | some c, some children => some (group c children)
    | _, _ => (Rule.ofFields? fields).map rule
  | .list [attributeId, operator, value] =>
    (Rule.ofParts? attributeId operator (some value)).map rule
  | _ => none
termination_by structural json => json

/-- Reads the children of a group from the first field `rules`; without it there are none. -/
def childrenOf? : List (String × Json) → Option (List (Query Operand))
  | [] => some []
  | (name, .list items) :: rest => if name = "rules" then ofJsonAll? items else childrenOf? rest
  | (name, _) :: rest => if name = "rules" then none else childrenOf? rest
termination_by structural fields => fields

/-- Reads several trees, all or none. -/
def ofJsonAll? : List Json → Option (List (Query Operand))
  | [] => some []
  | json :: rest =>
    match ofJson? json, ofJsonAll? rest with
    | some query, some queries => some (query :: queries)
    | _, _ => none
termination_by structural jsons => jsons

end

/-- Reads a tree from a document of any notation. -/
def ofDocument? {δ : Type} [Document δ] (d : δ) : Option (Query Operand) :=
  (Document.plain? d).bind ofJson?

end Query

end TeamRouting
