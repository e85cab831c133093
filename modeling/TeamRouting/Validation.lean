import TeamRouting.Resolution

/-!
# Validation

Checks a resolved tree against a catalog. Every rule must be about a defined attribute, with an
operator that applies to its type and a value that fits both. An authored value that does not fit
is a misconfiguration. A value supplied by a booking is not: it becomes indeterminate, so that its
rule matches nobody, and a warning tells.

Values are also brought to the form in which they are compared: texts on number attributes become
numbers, and what names a choice of a select attribute becomes the id of the choice.

* `flaw?` — why a value does not fit a rule;
* `validateRule` — one rule;
* `Query.validate` — a tree.
-/

namespace TeamRouting

/-! ## Fitting values -/

/-- Why a value cannot be the operand of an operator on an attribute. -/
def flaw? (op : Operator) (a : Attribute) (value : Literal) : Option OperandFlaw :=
  let numeric := value.scalars.all fun s => s.asNumber.isSome
  if op = .between then
    if value.scalars.length = 2 && numeric then none else some .notTwoBounds
  else if !op.takesSet && value.scalars.length != 1 then
    some .notSingle
  else if (op.isNumeric || a.type = .number) && !numeric then
    some .notNumeric
  else
    none

/-! ## The form of values -/

/-- The id of the choice that an authored scalar names. -/
def nameChoice (a : Attribute) (scalar : Scalar) : Except Misconfiguration Scalar :=
  match a.findChoice? scalar.asText with
  | some choice => .ok (.text choice.id)
  | none => .error (.unknownOption a.id scalar.asText)

/-- The id of the choice that a supplied scalar names; one that names none stays as it is, and
fails to match. -/
def nameChoiceIfAny (a : Attribute) (scalar : Scalar) : Scalar :=
  ((a.findChoice? scalar.asText).map fun choice => Scalar.text choice.id).getD scalar

/-- An authored value in the form in which it is compared. -/
def authoredForm (a : Attribute) (value : Literal) : Except Misconfiguration Literal :=
  if a.type = .number then .ok (value.map Scalar.intoNumeric)
  else if a.type.hasChoices then value.mapM (nameChoice a)
  else .ok value

/-- A supplied value in the form in which it is compared. -/
def suppliedForm (a : Attribute) (value : Literal) : Literal :=
  if a.type = .number then value.map Scalar.intoNumeric
  else if a.type.hasChoices then value.map (nameChoiceIfAny a)
  else value

/-! ## Rules -/

/-- A supplied value that does not fit its rule. -/
structure Misfit where
  reference : Reference
  operator : Operator
  attributeId : String
  flaw : OperandFlaw
deriving DecidableEq, Inhabited

/-- What is said about a supplied value that does not fit. -/
def Misfit.warning (m : Misfit) : String :=
  "dynamic operand " ++ m.reference.text ++ " does not fit " ++ m.operator.name ++
    " on attribute '" ++ m.attributeId ++ "': " ++ m.flaw.text

/-- Checks an operand and brings it to its form. -/
def validateOperand (op : Operator) (a : Attribute) :
    ResolvedOperand → Except Misconfiguration (ResolvedOperand × List Misfit)
  | .static value =>
    match flaw? op a value with
    | some flaw => .error (.invalidOperand a.id op flaw)
    | none => (authoredForm a value).map fun form => (.static form, [])
  | .bound value reference =>
    match flaw? op a value with
    | some flaw => .ok (.indeterminate reference, [⟨reference, op, a.id, flaw⟩])
    | none => .ok (.bound (suppliedForm a value) reference, [])
  | .indeterminate reference => .ok (.indeterminate reference, [])

/-- Checks a rule about an attribute. -/
def validateRuleOn (a : Attribute) (r : Rule ResolvedOperand) :
    Except Misconfiguration (Rule ResolvedOperand × List Misfit) :=
  if !a.type.operators.contains r.operator then
    .error (.operatorNotAllowed a.id r.operator a.type)
  else if !r.operator.takesOperand then
    .ok (r, [])
  else
    match r.operand with
    | none => .error (.invalidOperand a.id r.operator .missing)
    | some operand =>
      match validateOperand r.operator a operand with
      | .ok (form, misfits) => .ok (⟨r.attributeId, r.operator, some form⟩, misfits)
      | .error e => .error e

/-- Checks a rule against a catalog. -/
def validateRule (catalog : Catalog) (r : Rule ResolvedOperand) :
    Except Misconfiguration (Rule ResolvedOperand × List Misfit) :=
  match catalog.attribute? r.attributeId with
  | none => .error (.unknownAttribute r.attributeId)
  | some a => validateRuleOn a r

/-! ## Trees -/

/-- A checked tree and the supplied values that did not fit, in document order. -/
structure Validation where
  tree : Query ResolvedOperand
  misfits : List Misfit

/-- What is said about the supplied values that did not fit. -/
def Validation.warnings (v : Validation) : List String := v.misfits.map Misfit.warning

/-- Checks a tree against a catalog. -/
def Query.validate (catalog : Catalog) (tree : Query ResolvedOperand) :
    Except Misconfiguration Validation :=
  match tree.traverse (validateRule catalog) with
  | .ok (tree, misfits) => .ok ⟨tree, misfits⟩
  | .error e => .error e

end TeamRouting
