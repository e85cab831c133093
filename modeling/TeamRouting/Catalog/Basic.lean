import TeamRouting.Dictionary
import TeamRouting.NameSet
import TeamRouting.Query.Basic
import TeamRouting.Text.LowerCase

/-!
# Catalogs

What an organization knows about one of its teams: the attributes that are defined, and the
members with their values.

* `AttributeType`, `Choice`, `Attribute` — definitions;
* `Attribute.findChoice?` — the choice that a text names;
* `MemberValues`, `Member` — the members;
* `Catalog` — all of it, for one team.
-/

namespace TeamRouting

/-! ## Attributes -/

/-- The type of an attribute's values. -/
inductive AttributeType where
  | text
  | number
  | singleSelect
  | multiSelect
deriving DecidableEq, Repr, Inhabited

namespace AttributeType

/-- The name of a type. -/
def name : AttributeType → String
  | text => "TEXT"
  | number => "NUMBER"
  | singleSelect => "SINGLE_SELECT"
  | multiSelect => "MULTI_SELECT"

/-- The type of a name. -/
def ofName? (name : String) : Option AttributeType :=
  [text, number, singleSelect, multiSelect].find? (·.name = name)

/-- Whether members may carry more than one value. -/
def isMultiValued (t : AttributeType) : Bool := t = multiSelect

/-- Whether values are drawn from a list of choices. -/
def hasChoices (t : AttributeType) : Bool := t = singleSelect || t = multiSelect

open Operator in
/-- The operators that apply to attributes of a type. -/
def operators : AttributeType → List Operator
  | text => [equals, notEquals, anyIn, noneIn, contains, isEmpty, isNotEmpty]
  | number =>
    [equals, notEquals, greaterThan, greaterThanOrEqual, lessThan, lessThanOrEqual, between,
     isEmpty, isNotEmpty]
  | singleSelect => [equals, notEquals, anyIn, noneIn, isEmpty, isNotEmpty]
  | multiSelect => [equals, notEquals, anyIn, noneIn, allIn, isEmpty, isNotEmpty]

end AttributeType

/-- One of the values that a select attribute offers. -/
structure Choice where
  id : String
  /-- the name that people see -/
  label : String
deriving DecidableEq, Inhabited

/-- The definition of an attribute. -/
structure Attribute where
  id : String
  name : String
  type : AttributeType
  choices : List Choice := []
deriving DecidableEq, Inhabited

namespace Attribute

/-- The ids of the choices. -/
def choiceIds (a : Attribute) : NameSet := .ofList (a.choices.map Choice.id)

/-- The choice that a text names: the first one with this id, else the first one with this label.
Blanks around the text and the label do not matter, nor does the case of ASCII letters in a
label. -/
def findChoice? (a : Attribute) (named : String) : Option Choice :=
  let needle := Text.trim named
  (a.choices.find? fun c => c.id = needle).or
    (a.choices.find? fun c => Text.equalsIgnoringCase (Text.trim c.label) needle)

end Attribute

/-! ## Members -/

/-- The values of one member by attribute id. -/
abbrev MemberValues := Dictionary String (List String)

/-- The values for an attribute; an attribute that is not mentioned has none. -/
def MemberValues.get (values : MemberValues) (attributeId : String) : List String :=
  (values.find? attributeId).getD []

/-- A member of a team. -/
structure Member where
  id : String
  values : MemberValues := ∅
deriving DecidableEq, Inhabited

/-! ## Catalogs -/

/-- The attributes and members of one team. -/
structure Catalog where
  teamId : String
  orgId : String
  attributes : List Attribute := []
  members : List Member := []
deriving DecidableEq, Inhabited

namespace Catalog

/-- The attribute of an id; if several have it, the first one counts. -/
def attribute? (c : Catalog) (id : String) : Option Attribute :=
  c.attributes.find? fun a => a.id = id

/-- The ids of all members. -/
def memberIds (c : Catalog) : NameSet := .ofList (c.members.map Member.id)

end Catalog

end TeamRouting
