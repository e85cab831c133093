import TeamRouting.Text.Search
import TeamRouting.Validation

/-!
# Evaluation

Decides whether a member satisfies a resolved tree. Groups are evaluated from left to right and
only as far as needed; a rule that is reached is counted, and a rule that compares sizes leaves a
warning when the member has no single number to compare.

* `Tally` — the count and the warnings of one or more evaluations;
* `Rule.verdict` — one rule against the values of a member;
* `Query.evaluate` — a tree;
* `Strategy` — the ways of deciding about members.
-/

namespace TeamRouting

/-! ## Tallies -/

/-- What is kept of evaluations besides their results. -/
structure Tally where
  /-- the rules that were evaluated, each time they were -/
  rulesEvaluated : Nat := 0
  /-- the warnings, each of them once -/
  warnings : NameSet := ∅
deriving DecidableEq, Inhabited

namespace Tally

/-- Adds a warning, unless it is there. -/
def warn (t : Tally) (message : String) : Tally := { t with warnings := t.warnings.insert message }

/-- Counts one more rule. -/
def count (t : Tally) : Tally := { t with rulesEvaluated := t.rulesEvaluated + 1 }

/-- The tallies of two evaluations together. -/
def merge (t u : Tally) : Tally :=
  ⟨t.rulesEvaluated + u.rulesEvaluated, t.warnings.union u.warnings⟩

end Tally

/-! ## Values -/

/-- How far apart two numbers may lie, and below, to count as equal: the gap above one. -/
def tolerance : Float := Float.ofBits 0x3CB0000000000000

/-- Whether two numbers count as equal. -/
def nearlyEqual (x y : Float) : Bool := (x - y).abs < tolerance

/-- Whether a member's value equals an operand: as numbers if the operand is one, else as texts. -/
def equalsScalar (value : String) : Scalar → Bool
  | .text s => Text.normalize value == Text.normalize s
  | scalar =>
    match scalar.asNumber, Decimal.readTrimmed? value with
    | some x, some y => nearlyEqual y x
    | _, _ => false

/-- Whether one of a member's values equals an operand. -/
def hasValue (values : List String) (scalar : Scalar) : Bool :=
  values.any fun value => equalsScalar value scalar

/-- Whether an operand's text is part of one of a member's values. -/
def hasPart (values : List String) (scalar : Scalar) : Bool :=
  values.any fun value =>
    Text.occursIn (Text.normalize scalar.asText) (Text.normalize value)

/-- The number of a member who has one value and no other. -/
def singleNumber? : List String → Option Float
  | [value] => Decimal.readTrimmed? value
  | _ => none

/-! ## Rules -/

/-- What comes of one rule: its result, and a warning if there is one. -/
structure Verdict where
  holds : Bool
  warning : Option String := none
deriving DecidableEq, Inhabited

/-- What is said when members cannot be compared by size. -/
def numberWarning (attributeId : String) (op : Operator) : String :=
  "members without a single numeric value for attribute '" ++ attributeId ++
    "' did not match " ++ op.name

/-- Tests the single number of a member; without one the rule fails with a warning. -/
def Rule.compareSize (r : Rule ResolvedOperand) (values : List String) (test : Float → Bool) :
    Verdict :=
  match singleNumber? values with
  | some x => ⟨test x, none⟩
  | none => ⟨false, some (numberWarning r.attributeId r.operator)⟩

/-- Compares with the single number of an operand. -/
def withNumber (operand : List Scalar) (test : Float → Float → Bool) (x : Float) : Bool :=
  match operand with
  | [scalar] => (scalar.asNumber.map (test x)).getD false
  | _ => false

/-- A rule that has an operand, against the values of a member for its attribute. -/
def Rule.verdictOn (r : Rule ResolvedOperand) (values : List String) (operand : List Scalar) :
    Verdict :=
  match r.operator, operand with
  | .equals, [scalar] => ⟨hasValue values scalar, none⟩
  | .equals, _ => ⟨false, none⟩
  | .notEquals, [scalar] => ⟨!hasValue values scalar, none⟩
  | .notEquals, _ => ⟨false, none⟩
  | .anyIn, scalars => ⟨scalars.any (hasValue values), none⟩
  | .noneIn, scalars => ⟨!scalars.any (hasValue values), none⟩
  | .allIn, scalars => ⟨!scalars.isEmpty && scalars.all (hasValue values), none⟩
  | .contains, [scalar] => ⟨hasPart values scalar, none⟩
  | .contains, _ => ⟨false, none⟩
  | .greaterThan, scalars => r.compareSize values (withNumber scalars fun x y => x > y)
  | .greaterThanOrEqual, scalars => r.compareSize values (withNumber scalars fun x y => x ≥ y)
  | .lessThan, scalars => r.compareSize values (withNumber scalars fun x y => x < y)
  | .lessThanOrEqual, scalars => r.compareSize values (withNumber scalars fun x y => x ≤ y)
  | .between, [low, high] =>
    match low.asNumber, high.asNumber with
    | some low, some high => r.compareSize values fun x => x ≥ low && x ≤ high
    | _, _ => ⟨false, none⟩
  | .between, _ => ⟨false, none⟩
  | .isEmpty, _ => ⟨values.isEmpty, none⟩
  | .isNotEmpty, _ => ⟨!values.isEmpty, none⟩

/-- A rule against the values of a member for its attribute. The tests for emptiness ignore the
operand; any other rule fails without one. -/
def Rule.verdict (r : Rule ResolvedOperand) (values : List String) : Verdict :=
  match r.operator, r.operand.bind ResolvedOperand.value? with
  | .isEmpty, _ => ⟨values.isEmpty, none⟩
  | .isNotEmpty, _ => ⟨!values.isEmpty, none⟩
  | _, none => ⟨false, none⟩
  | _, some value => r.verdictOn values value.scalars

/-- Adds a verdict to a tally. -/
def Tally.add (t : Tally) (v : Verdict) : Tally :=
  match v.warning with
  | some message => t.count.warn message
  | none => t.count

/-! ## Trees -/

namespace Query

mutual

/-- Whether a member satisfies a tree, and the tally with what the evaluation adds to it. -/
def evaluate (values : MemberValues) : Query ResolvedOperand → Tally → Bool × Tally
  | group .and children, t => evaluateAll values children t
  | group .or children, t => evaluateAny values children t
  | rule r, t =>
    let v := r.verdict (values.get r.attributeId)
    (v.holds, t.add v)
termination_by structural query => query

/-- Whether a member satisfies every tree of a list, up to the first that fails. -/
def evaluateAll (values : MemberValues) : List (Query ResolvedOperand) → Tally → Bool × Tally
  | [], t => (true, t)
  | query :: rest, t =>
    match evaluate values query t with
    | (true, t') => evaluateAll values rest t'
    | (false, t') => (false, t')
termination_by structural queries => queries

/-- Whether a member satisfies some tree of a list, up to the first that holds. -/
def evaluateAny (values : MemberValues) : List (Query ResolvedOperand) → Tally → Bool × Tally
  | [], t => (false, t)
  | query :: rest, t =>
    match evaluate values query t with
    | (true, t') => (true, t')
    | (false, t') => evaluateAny values rest t'
termination_by structural queries => queries

end

end Query

/-! ## Strategies -/

/-- The ways of deciding about members. -/
inductive Strategy where
  /-- by the rules of the tree -/
  | attributeLogic
  /-- everybody, whatever the tree says -/
  | matchAll
deriving DecidableEq, Repr, Inhabited

namespace Strategy

/-- The name of a strategy. -/
def name : Strategy → String
  | attributeLogic => "attribute_logic"
  | matchAll => "match_all"

/-- The strategy of a name. -/
def ofName? (name : String) : Option Strategy := [attributeLogic, matchAll].find? (·.name = name)

/-- Decides about one member. -/
def evaluate (strategy : Strategy) (tree : Query ResolvedOperand) (values : MemberValues)
    (t : Tally) : Bool × Tally :=
  match strategy with
  | attributeLogic => tree.evaluate values t
  | matchAll => (true, t)

end Strategy

end TeamRouting
