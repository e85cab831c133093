import TeamRouting.Reference
import TeamRouting.Scalar

/-!
# Operands

What a rule compares an attribute with. A literal is one scalar or a list of them. An authored
operand is a literal or a reference; once the answers of a booking are known, a resolved operand
tells whether its value was authored, supplied, or is missing.

* `Literal`, `Literal.isBlank` — values, and those that count as no answer;
* `Operand.ofLiteral` — a lone text that is a template becomes a reference;
* `ResolvedOperand.authored` — takes a resolution back.
-/

namespace TeamRouting

/-! ## Literals -/

/-- One scalar or a list of them. -/
inductive Literal where
  | single (scalar : Scalar)
  | list (scalars : List Scalar)
deriving DecidableEq, Inhabited

namespace Literal

/-- The scalars of a literal; a single one is a list of one. -/
def scalars : Literal → List Scalar
  | single s => [s]
  | list ss => ss

/-- Replaces each scalar. -/
def map (f : Scalar → Scalar) : Literal → Literal
  | single s => single (f s)
  | list ss => list (ss.map f)

/-- Replaces each scalar by one that may not exist. -/
def mapM {ε : Type} (f : Scalar → Except ε Scalar) : Literal → Except ε Literal
  | single s => (f s).map single
  | list ss => (ss.mapM f).map list

/-- Blank texts alone, or no scalar at all, count as no answer. -/
def isBlank (value : Literal) : Bool := value.scalars.all Scalar.isBlank

/-- Reads a literal: a scalar or an array of scalars. -/
def ofJson? : Json → Option Literal
  | .list items => (items.mapM Scalar.ofJson?).map list
  | json => (Scalar.ofJson? json).map single

/-- Writes a literal. -/
def toJson : Literal → Json
  | single s => s.toJson
  | list ss => .list (ss.map Scalar.toJson)

end Literal

/-! ## Authored operands -/

/-- An operand as it is authored. -/
inductive Operand where
  | literal (value : Literal)
  | dynamic (reference : Reference)
deriving DecidableEq, Inhabited

namespace Operand

/-- A lone text that is a template is a reference; texts in a list are always literal. -/
def ofLiteral : Literal → Operand
  | .single (.text s) => ((Reference.ofText? s).map dynamic).getD (literal (.single (.text s)))
  | value => literal value

/-- The literal in whose place an operand is written. -/
def toLiteral : Operand → Literal
  | literal value => value
  | dynamic reference => .single (.text reference.text)

/-- Reads an operand. -/
def ofJson? (json : Json) : Option Operand := (Literal.ofJson? json).map ofLiteral

/-- Writes an operand. -/
def toJson (operand : Operand) : Json := operand.toLiteral.toJson

end Operand

/-! ## Resolved operands -/

/-- An operand once the answers of a booking are known. -/
inductive ResolvedOperand where
  /-- an authored literal -/
  | static (value : Literal)
  /-- the value supplied for a reference -/
  | bound (value : Literal) (reference : Reference)
  /-- a reference without a usable value; its rule never matches -/
  | indeterminate (reference : Reference)
deriving DecidableEq, Inhabited

namespace ResolvedOperand

/-- The value of an operand, if it has one. -/
def value? : ResolvedOperand → Option Literal
  | static value => some value
  | bound value _ => some value
  | indeterminate _ => none

/-- The authored operand that was resolved. -/
def authored : ResolvedOperand → Operand
  | static value => .literal value
  | bound _ reference => .dynamic reference
  | indeterminate reference => .dynamic reference

/-- Writes a resolved operand: a plain value where it was authored, else with its reference. -/
def toJson : ResolvedOperand → Json
  | static value => value.toJson
  | bound value reference => .object [("value", value.toJson), ("reference", .text reference.text)]
  | indeterminate reference => .object [("reference", .text reference.text)]

end ResolvedOperand

end TeamRouting
