import TeamRouting.Catalog.Basic
import TeamRouting.Document

/-!
# Catalogs in documents

Reading a catalog from a document of any notation, and writing it as JSON.

* `Catalog.ofDocument?` — reads a catalog, with its attributes and members;
* `Catalog.toJson` — writes it, all fields included.
-/

namespace TeamRouting

variable {δ : Type} [Document δ]

open Document

/-! ## Reading -/

/-- Reads a choice. -/
def Choice.ofDocument? (d : δ) : Option Choice := do
  match ← record? ["id", "value"] d with
  | [some id, some label] => return ⟨← text? id, ← text? label⟩
  | _ => none

/-- Reads the type of an attribute. -/
def AttributeType.ofDocument? (d : δ) : Option AttributeType :=
  (name? d).bind AttributeType.ofName?

/-- Reads an attribute. Without choices it has none. -/
def Attribute.ofDocument? (d : δ) : Option Attribute := do
  match ← record? ["id", "name", "type", "options"] d with
  | [some id, some name, some type, choices] =>
    return {
      id := ← text? id
      name := ← text? name
      type := ← AttributeType.ofDocument? type
      choices := ← fieldOr [] (listOf? Choice.ofDocument?) choices
    }
  | _ => none

/-- Reads the values of an attribute. -/
def readValues? : Json → Option (List String)
  | .list items => items.mapM text?
  | _ => none

/-- Reads the values of a member: a map of attribute ids to lists of texts. -/
def MemberValues.ofDocument? (d : δ) : Option MemberValues := do
  let entries ← entries? d
  let values ← entries.mapM fun entry => (readValues? entry.2).map (entry.1, ·)
  return .ofList values

/-- Reads a member. Without values it has none. -/
def Member.ofDocument? (d : δ) : Option Member := do
  match ← record? ["id", "attributes"] d with
  | [some id, values] => return ⟨← text? id, ← fieldOr ∅ MemberValues.ofDocument? values⟩
  | _ => none

/-- Reads a catalog. Its attributes and members may be left out. -/
def Catalog.ofDocument? (d : δ) : Option Catalog := do
  match ← record? ["teamId", "orgId", "attributes", "members"] d with
  | [some teamId, some orgId, attributes, members] =>
    return {
      teamId := ← text? teamId
      orgId := ← text? orgId
      attributes := ← fieldOr [] (listOf? Attribute.ofDocument?) attributes
      members := ← fieldOr [] (listOf? Member.ofDocument?) members
    }
  | _ => none

/-! ## Writing -/

/-- Writes a choice. -/
def Choice.toJson (c : Choice) : Json := .object [("id", .text c.id), ("value", .text c.label)]

/-- Writes an attribute. -/
def Attribute.toJson (a : Attribute) : Json :=
  .object [
    ("id", .text a.id),
    ("name", .text a.name),
    ("type", .text a.type.name),
    ("options", .list (a.choices.map Choice.toJson))]

/-- Writes the values of a member. -/
def MemberValues.toJson (values : MemberValues) : Json :=
  .object (values.entries.map fun entry => (entry.1, .list (entry.2.map Json.text)))

/-- Writes a member. -/
def Member.toJson (m : Member) : Json :=
  .object [("id", .text m.id), ("attributes", m.values.toJson)]

/-- Writes a catalog. -/
def Catalog.toJson (c : Catalog) : Json :=
  .object [
    ("teamId", .text c.teamId),
    ("orgId", .text c.orgId),
    ("attributes", .list (c.attributes.map Attribute.toJson)),
    ("members", .list (c.members.map Member.toJson))]

end TeamRouting
