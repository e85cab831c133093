import TeamRouting.Operand

/-!
# Query trees

The logic that selects members: rules about single attributes, grouped by AND and OR to any
depth. A tree is generic in its operands, so that the authored tree and the resolved one share
their shape.

* `Combinator`, `Operator`, `Rule`, `Query` — the parts of a tree;
* `Query.rules`, `Query.ruleCount` — the rules in document order, and their number;
* `Query.mapRules`, `Query.traverse` — rebuilding a tree rule by rule.
-/

namespace TeamRouting

/-! ## Combinators and operators -/

/-- How a group combines its children. -/
inductive Combinator where
  | and
  | or
deriving DecidableEq, Repr, Inhabited

/-- The name of a combinator. -/
def Combinator.name : Combinator → String
  | and => "AND"
  | or => "OR"

/-- The combinator of a name. -/
def Combinator.ofName? (name : String) : Option Combinator :=
  [Combinator.and, .or].find? (·.name = name)

/-- How a rule compares an attribute with its operand. -/
inductive Operator where
  | equals
  | notEquals
  | anyIn
  | noneIn
  | allIn
  | isEmpty
  | isNotEmpty
  | contains
  | greaterThan
  | greaterThanOrEqual
  | lessThan
  | lessThanOrEqual
  | between
deriving DecidableEq, Repr, Inhabited

namespace Operator

/-- The name of an operator. -/
def name : Operator → String
  | equals => "EQUALS"
  | notEquals => "NOT_EQUALS"
  | anyIn => "ANY_IN"
  | noneIn => "NONE_IN"
  | allIn => "ALL_IN"
  | isEmpty => "IS_EMPTY"
  | isNotEmpty => "IS_NOT_EMPTY"
  | contains => "CONTAINS"
  | greaterThan => "GREATER_THAN"
  | greaterThanOrEqual => "GREATER_THAN_OR_EQUAL"
  | lessThan => "LESS_THAN"
  | lessThanOrEqual => "LESS_THAN_OR_EQUAL"
  | between => "BETWEEN"

/-- Every operator. -/
def all : List Operator :=
  [equals, notEquals, anyIn, noneIn, allIn, isEmpty, isNotEmpty, contains, greaterThan,
   greaterThanOrEqual, lessThan, lessThanOrEqual, between]

/-- The operator of a name. -/
def ofName? (name : String) : Option Operator := all.find? (·.name = name)

/-- The two tests for emptiness ignore the operand; all others need one. -/
def takesOperand : Operator → Bool
  | isEmpty | isNotEmpty => false
  | _ => true

/-- The operators that compare by size, and so apply to a single number alone. -/
def isNumeric : Operator → Bool
  | greaterThan | greaterThanOrEqual | lessThan | lessThanOrEqual | between => true
  | _ => false

/-- The operators whose operand is a set of values. -/
def takesSet : Operator → Bool
  | anyIn | noneIn | allIn | between => true
  | _ => false

end Operator

/-! ## Rules and trees -/

/-- A rule about one attribute. -/
structure Rule (ω : Type) where
  attributeId : String
  operator : Operator
  operand : Option ω := none
deriving DecidableEq, Inhabited

/-- A tree of rules. -/
inductive Query (ω : Type) where
  | group (combinator : Combinator) (children : List (Query ω))
  | rule (rule : Rule ω)
deriving Inhabited

namespace Query

variable {ω ω' ε : Type}

mutual

/-- Decides whether two trees are equal. -/
def decideEq [DecidableEq ω] : (p q : Query ω) → Decidable (p = q)
  | group c ps, group d qs =>
    if hc : c = d then
      match decideAllEq ps qs with
      | isTrue h => isTrue (by rw [hc, h])
      | isFalse h => isFalse fun e => by injection e with _ e; exact h e
    else
      isFalse fun e => by injection e with e _; exact hc e
  | rule r, rule s =>
    if h : r = s then isTrue (by rw [h]) else isFalse fun e => by injection e with e; exact h e
  | group _ _, rule _ => isFalse fun e => by injection e
  | rule _, group _ _ => isFalse fun e => by injection e
termination_by structural p => p

/-- Decides whether two lists of trees are equal. -/
def decideAllEq [DecidableEq ω] : (ps qs : List (Query ω)) → Decidable (ps = qs)
  | [], [] => isTrue rfl
  | p :: ps, q :: qs =>
    match decideEq p q with
    | isTrue h =>
      match decideAllEq ps qs with
      | isTrue h' => isTrue (by rw [h, h'])
      | isFalse h' => isFalse fun e => by injection e with _ e; exact h' e
    | isFalse h => isFalse fun e => by injection e with e _; exact h e
  | [], _ :: _ => isFalse fun e => by injection e
  | _ :: _, [] => isFalse fun e => by injection e
termination_by structural ps => ps

end

instance [DecidableEq ω] : DecidableEq (Query ω) := decideEq

/-! ## The rules of a tree -/

mutual

/-- The rules of a tree in document order. -/
def rules : Query ω → List (Rule ω)
  | group _ children => rulesOfAll children
  | rule r => [r]
termination_by structural query => query

/-- The rules of several trees, one tree after the other. -/
def rulesOfAll : List (Query ω) → List (Rule ω)
  | [] => []
  | query :: rest => rules query ++ rulesOfAll rest
termination_by structural queries => queries

end

mutual

/-- The number of rules anywhere in a tree. -/
def ruleCount : Query ω → Nat
  | group _ children => ruleCountOfAll children
  | rule _ => 1
termination_by structural query => query

/-- The number of rules in several trees. -/
def ruleCountOfAll : List (Query ω) → Nat
  | [] => 0
  | query :: rest => ruleCount query + ruleCountOfAll rest
termination_by structural queries => queries

end

/-- Whether a tree has no rule anywhere, however its groups are nested. -/
def isEmptyQuery (query : Query ω) : Bool := query.ruleCount == 0

/-! ## Rebuilding a tree -/

mutual

/-- Replaces every rule; the shape stays. -/
def mapRules (f : Rule ω → Rule ω') : Query ω → Query ω'
  | group c children => group c (mapRulesOfAll f children)
  | rule r => rule (f r)
termination_by structural query => query

/-- Replaces every rule of several trees. -/
def mapRulesOfAll (f : Rule ω → Rule ω') : List (Query ω) → List (Query ω')
  | [] => []
  | query :: rest => mapRules f query :: mapRulesOfAll f rest
termination_by structural queries => queries

end

/-- Replaces the operands of all rules. -/
def mapOperands (f : ω → ω') (query : Query ω) : Query ω' :=
  query.mapRules fun r => ⟨r.attributeId, r.operator, r.operand.map f⟩

mutual

/-- Replaces every rule in document order, up to the first one for which that fails. Each step may
also note something for the caller; the notes come out in the same order. -/
def traverse {ν : Type} (f : Rule ω → Except ε (Rule ω' × List ν)) :
    Query ω → Except ε (Query ω' × List ν)
  | group c children => do
    let (children', notes) ← traverseAll f children
    return (group c children', notes)
  | rule r => do
    let (r', notes) ← f r
    return (rule r', notes)
termination_by structural query => query

/-- The same for several trees, one after the other. -/
def traverseAll {ν : Type} (f : Rule ω → Except ε (Rule ω' × List ν)) :
    List (Query ω) → Except ε (List (Query ω') × List ν)
  | [] => return ([], [])
  | query :: rest => do
    let (query', notes) ← traverse f query
    let (rest', more) ← traverseAll f rest
    return (query' :: rest', notes ++ more)
termination_by structural queries => queries

end

end Query

end TeamRouting
