import TeamRouting.Catalog.Basic

/-!
# Misconfigurations

The ways in which an authored tree can be wrong. They are found before any member is looked at,
and never depend on the answers of a booking.

* `OperandFlaw` — why a value cannot be the operand of a rule;
* `Misconfiguration` — the faults of a tree;
* `Misconfiguration.message` — what is said about them.
-/

namespace TeamRouting

/-! ## Operands -/

/-- Why a value cannot be the operand of a rule. -/
inductive OperandFlaw where
  | missing
  | notTwoBounds
  | notSingle
  | notNumeric
deriving DecidableEq, Repr, Inhabited

/-- What is said about a flaw. -/
def OperandFlaw.text : OperandFlaw → String
  | missing => "operand is missing"
  | notTwoBounds => "expected two numeric bounds"
  | notSingle => "expected a single value"
  | notNumeric => "expected a numeric value"

/-! ## Trees -/

/-- A fault of an authored tree. -/
inductive Misconfiguration where
  /-- a rule about an attribute that is not defined -/
  | unknownAttribute (attributeId : String)
  /-- an operator that does not apply to the attribute's type -/
  | operatorNotAllowed (attributeId : String) (operator : Operator) (type : AttributeType)
  /-- an operand that is missing or does not fit the operator -/
  | invalidOperand (attributeId : String) (operator : Operator) (flaw : OperandFlaw)
  /-- an authored value that names no choice of the attribute -/
  | unknownOption (attributeId : String) (named : String)
  /-- a reference to a source that does not exist -/
  | unknownSource (reference : Reference)
deriving DecidableEq, Inhabited

namespace Misconfiguration

/-! ## Wording -/

/-- The wording for an attribute that is not defined. -/
def unknownAttributeText (id : String) : String := s!"Unknown attribute '{id}'"

/-- The wording for an operator that does not apply. -/
def operatorNotAllowedText (id operator type : String) : String :=
  s!"Operator {operator} is not allowed for {type} attribute '{id}'"

/-- The wording for an operand that does not fit. -/
def invalidOperandText (id operator reason : String) : String :=
  s!"Invalid operand for {operator} on attribute '{id}': {reason}"

/-- The wording for a value that names no choice. -/
def unknownOptionText (id option : String) : String :=
  s!"Option '{option}' is not defined for attribute '{id}'"

/-- The wording for a source that does not exist. -/
def unknownSourceText (reference : Reference) : String :=
  "Invalid operand reference '" ++ reference.text ++ "': unknown source '" ++
    reference.source ++ "'"

/-- What is said about a fault. -/
def message : Misconfiguration → String
  | unknownAttribute id => unknownAttributeText id
  | operatorNotAllowed id operator type => operatorNotAllowedText id operator.name type.name
  | invalidOperand id operator flaw => invalidOperandText id operator.name flaw.text
  | unknownOption id named => unknownOptionText id named
  | unknownSource reference => unknownSourceText reference

end Misconfiguration

end TeamRouting
