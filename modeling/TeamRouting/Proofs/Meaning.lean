import TeamRouting.Proofs.Numerals

/-!
# The meaning of a tree

What an authored tree says about a member, stated without the passes that prepare it: a tree is
true of a member by its groups and rules alone, and a rule is true by the member's values, the
authored operand and the answers of the booking.

* `Query.Holds` — AND holds if every child does, OR if some child does, a rule as it is given;
* `Scalar.Matches`, `Attribute.standsFor` — when a value of a member matches a scalar, and what a
  scalar stands for on an attribute;
* `Operator.Fits`, `Operand.Supplies` — the shape of values, and the value that an operand
  supplies;
* `Operator.Compares`, `Rule.Means` — the operators, and what a rule says about a member.

The rest of the module connects these notions with the evaluation of a prepared tree:
`Query.evaluate_iff_holds` for trees and `Rule.verdictOn_holds_iff` for rules.
-/

namespace TeamRouting

/-! ## Trees -/

namespace Query

variable {ω ω' : Type}

mutual

/-- Whether a tree holds where it is known which rules do.  A group of no children holds if it is
an AND, and fails if it is an OR. -/
def Holds (φ : Rule ω → Prop) : Query ω → Prop
  | group .and qs => HoldsAll φ qs
  | group .or qs => HoldsAny φ qs
  | rule r => φ r
termination_by structural q => q

/-- Whether every tree of a list holds. -/
def HoldsAll (φ : Rule ω → Prop) : List (Query ω) → Prop
  | [] => True
  | q :: qs => Holds φ q ∧ HoldsAll φ qs
termination_by structural qs => qs

/-- Whether some tree of a list holds. -/
def HoldsAny (φ : Rule ω → Prop) : List (Query ω) → Prop
  | [] => False
  | q :: qs => Holds φ q ∨ HoldsAny φ qs
termination_by structural qs => qs

end

theorem holdsAll_iff {φ : Rule ω → Prop} {qs : List (Query ω)} :
    HoldsAll φ qs ↔ ∀ q ∈ qs, q.Holds φ := by
  induction qs with
  | nil => simp [HoldsAll]
  | cons q qs ih => rw [HoldsAll, ih, List.forall_mem_cons]

theorem holdsAny_iff {φ : Rule ω → Prop} {qs : List (Query ω)} :
    HoldsAny φ qs ↔ ∃ q ∈ qs, q.Holds φ := by
  induction qs with
  | nil => simp [HoldsAny]
  | cons q qs ih => simp [HoldsAny, ih]

/-- An AND holds if every child does. -/
theorem holds_and {φ : Rule ω → Prop} {qs : List (Query ω)} :
    (group .and qs).Holds φ ↔ ∀ q ∈ qs, q.Holds φ := by
  rw [Holds, holdsAll_iff]

/-- An OR holds if some child does. -/
theorem holds_or {φ : Rule ω → Prop} {qs : List (Query ω)} :
    (group .or qs).Holds φ ↔ ∃ q ∈ qs, q.Holds φ := by
  rw [Holds, holdsAny_iff]

mutual

/-- A tree whose rules were replaced holds as the tree before, if each replacement does. -/
theorem holds_mapRules {φ : Rule ω → Prop} {ψ : Rule ω' → Prop} {g : Rule ω → Rule ω'} :
    ∀ q, (∀ r ∈ q.rules, ψ (g r) ↔ φ r) → ((mapRules g q).Holds ψ ↔ q.Holds φ)
  | .group .and qs, h => by rw [mapRules, Holds, Holds, holdsAll_mapRulesOfAll qs h]
  | .group .or qs, h => by rw [mapRules, Holds, Holds, holdsAny_mapRulesOfAll qs h]
  | .rule r, h => h r (List.mem_singleton_self r)

theorem holdsAll_mapRulesOfAll {φ : Rule ω → Prop} {ψ : Rule ω' → Prop} {g : Rule ω → Rule ω'} :
    ∀ qs, (∀ r ∈ rulesOfAll qs, ψ (g r) ↔ φ r) → (HoldsAll ψ (mapRulesOfAll g qs) ↔ HoldsAll φ qs)
  | [], _ => Iff.rfl
  | q :: qs, h => by
      have hq := holds_mapRules q fun r hr => h r (List.mem_append_left _ hr)
      have hqs := holdsAll_mapRulesOfAll qs fun r hr => h r (List.mem_append_right _ hr)
      rw [mapRulesOfAll, HoldsAll, HoldsAll, hq, hqs]

theorem holdsAny_mapRulesOfAll {φ : Rule ω → Prop} {ψ : Rule ω' → Prop} {g : Rule ω → Rule ω'} :
    ∀ qs, (∀ r ∈ rulesOfAll qs, ψ (g r) ↔ φ r) → (HoldsAny ψ (mapRulesOfAll g qs) ↔ HoldsAny φ qs)
  | [], _ => Iff.rfl
  | q :: qs, h => by
      have hq := holds_mapRules q fun r hr => h r (List.mem_append_left _ hr)
      have hqs := holdsAny_mapRulesOfAll qs fun r hr => h r (List.mem_append_right _ hr)
      rw [mapRulesOfAll, HoldsAny, HoldsAny, hq, hqs]

end

end Query

/-! ## Scalars -/

/-- Whether a member's value matches a scalar: a text up to blanks and case, a number if the value
reads as one that counts as equal. -/
def Scalar.Matches : Scalar → String → Prop
  | .text s, value => Text.normalize value = Text.normalize s
  | .number x, value => ∃ y, Decimal.readTrimmed? value = some y ∧ nearlyEqual y x = true
  | .integer n, value =>
    ∃ y, Decimal.readTrimmed? value = some y ∧ nearlyEqual y (Decimal.ofInt n.toInt) = true

/-- A text that reads as a finite number stands for that number, any other scalar for itself. -/
def Scalar.asFinite : Scalar → Scalar
  | .text s => (((Decimal.readTrimmed? s).filter Float.isFinite).map number).getD (text s)
  | s => s

/-- What a scalar stands for on an attribute: the id of the choice that it names, or the number
that it reads as. -/
def Attribute.standsFor (a : Attribute) (s : Scalar) : Scalar :=
  match a.type with
  | .text => s
  | .number => s.asFinite
  | .singleSelect | .multiSelect =>
    match a.findChoice? s.asText with
    | some choice => .text choice.id
    | none => s

/-! ## Operands -/

/-- The shape that the scalars of an operand must have: two numbers for a range, one scalar unless
the operator takes a set, numbers where numbers are compared. -/
structure Operator.Fits (op : Operator) (a : Attribute) (scalars : List Scalar) : Prop where
  bounds : op = .between → scalars.length = 2
  single : op.takesSet = false → scalars.length = 1
  numeric : op.isNumeric = true ∨ a.type = .number → ∀ s ∈ scalars, ∃ x, s.asNumber = some x

/-- The value that an operand supplies to a rule about an attribute.  A reference supplies the
value that it is bound to, unless there is none or the value does not have the right shape. -/
inductive Operand.Supplies (bindings : Bindings) (op : Operator) (a : Attribute) :
    Operand → Literal → Prop
  | literal (value : Literal) : Supplies bindings op a (.literal value) value
  | bound {r : Reference} {value : Literal} (found : bindings.get? r = some value)
      (fits : op.Fits a value.scalars) : Supplies bindings op a (.dynamic r) value

/-! ## Rules -/

/-- Whether a member has one value and no other, and it reads as this number. -/
def IsNumber (values : List String) (x : Float) : Prop :=
  ∃ value, values = [value] ∧ Decimal.readTrimmed? value = some x

/-- What an operator says about the values of a member and the scalars of an operand. -/
def Operator.Compares (values : List String) (scalars : List Scalar) : Operator → Prop
  | .equals => ∃ s, scalars = [s] ∧ ∃ v ∈ values, s.Matches v
  | .notEquals => ∃ s, scalars = [s] ∧ ¬ ∃ v ∈ values, s.Matches v
  | .anyIn => ∃ s ∈ scalars, ∃ v ∈ values, s.Matches v
  | .noneIn => ¬ ∃ s ∈ scalars, ∃ v ∈ values, s.Matches v
  | .allIn => scalars ≠ [] ∧ ∀ s ∈ scalars, ∃ v ∈ values, s.Matches v
  | .isEmpty => values = []
  | .isNotEmpty => values ≠ []
  | .contains =>
    ∃ s, scalars = [s] ∧ ∃ v ∈ values, Text.normalize s.asText <:+: Text.normalize v
  | .greaterThan => ∃ x, IsNumber values x ∧ ∃ s, scalars = [s] ∧ ∃ y, s.asNumber = some y ∧ x > y
  | .greaterThanOrEqual =>
    ∃ x, IsNumber values x ∧ ∃ s, scalars = [s] ∧ ∃ y, s.asNumber = some y ∧ x ≥ y
  | .lessThan => ∃ x, IsNumber values x ∧ ∃ s, scalars = [s] ∧ ∃ y, s.asNumber = some y ∧ x < y
  | .lessThanOrEqual =>
    ∃ x, IsNumber values x ∧ ∃ s, scalars = [s] ∧ ∃ y, s.asNumber = some y ∧ x ≤ y
  | .between =>
    ∃ x, IsNumber values x ∧ ∃ s t, scalars = [s, t] ∧
      (∃ low, s.asNumber = some low ∧ low ≤ x) ∧ ∃ high, t.asNumber = some high ∧ x ≤ high

/-- **What a rule says about a member.**  The tests for emptiness look at the values alone; any
other rule holds only if its operand supplies a value, and the operator says so about what the
scalars of that value stand for. -/
def Rule.Means (catalog : Catalog) (bindings : Bindings) (values : MemberValues)
    (r : Rule Operand) : Prop :=
  match r.operator with
  | .isEmpty => values.get r.attributeId = []
  | .isNotEmpty => values.get r.attributeId ≠ []
  | op => ∃ a operand value,
      catalog.attribute? r.attributeId = some a ∧ r.operand = some operand ∧
        operand.Supplies bindings op a value ∧
        op.Compares (values.get r.attributeId) (value.scalars.map a.standsFor)

theorem Rule.means_iff {catalog : Catalog} {bindings : Bindings} {values : MemberValues}
    {r : Rule Operand} (hop : r.operator.takesOperand = true) :
    r.Means catalog bindings values ↔ ∃ a operand value,
      catalog.attribute? r.attributeId = some a ∧ r.operand = some operand ∧
        operand.Supplies bindings r.operator a value ∧
        r.operator.Compares (values.get r.attributeId) (value.scalars.map a.standsFor) := by
  obtain ⟨attributeId, op, operand⟩ := r
  cases op <;> first | rfl | cases hop

/-! ## Evaluation of trees -/

namespace Query

mutual

/-- **Evaluation decides the tree.**  Going only as far as needed, and whatever was tallied before,
it answers whether the tree holds of the rules' verdicts. -/
theorem evaluate_iff_holds (values : MemberValues) : ∀ (q : Query ResolvedOperand) (t : Tally),
    (evaluate values q t).1 = true ↔
      q.Holds fun r => (r.verdict (values.get r.attributeId)).holds = true
  | .group .and qs, t => evaluateAll_iff_holdsAll values qs t
  | .group .or qs, t => evaluateAny_iff_holdsAny values qs t
  | .rule _, _ => Iff.rfl

theorem evaluateAll_iff_holdsAll (values : MemberValues) :
    ∀ (qs : List (Query ResolvedOperand)) (t : Tally), (evaluateAll values qs t).1 = true ↔
      HoldsAll (fun r => (r.verdict (values.get r.attributeId)).holds = true) qs
  | [], t => by simp [evaluateAll, HoldsAll]
  | q :: qs, t => by
      have hq := evaluate_iff_holds values q t
      have hqs := evaluateAll_iff_holdsAll values qs
      rw [evaluateAll, HoldsAll, ← hq]
      rcases evaluate values q t with ⟨_ | _, t'⟩
      · simp
      · simp [hqs]

theorem evaluateAny_iff_holdsAny (values : MemberValues) :
    ∀ (qs : List (Query ResolvedOperand)) (t : Tally), (evaluateAny values qs t).1 = true ↔
      HoldsAny (fun r => (r.verdict (values.get r.attributeId)).holds = true) qs
  | [], t => by simp [evaluateAny, HoldsAny]
  | q :: qs, t => by
      have hq := evaluate_iff_holds values q t
      have hqs := evaluateAny_iff_holdsAny values qs
      rw [evaluateAny, HoldsAny, ← hq]
      rcases evaluate values q t with ⟨_ | _, t'⟩
      · simp [hqs]
      · simp

end

end Query

/-! ## Evaluation of rules -/

theorem Text.occursIn_iff {needle cs : List Char} :
    Text.occursIn needle cs = true ↔ needle <:+: cs := by
  induction cs with
  | nil => simp [Text.occursIn]
  | cons c cs ih =>
      rw [Text.occursIn, Bool.or_eq_true, ih, List.isPrefixOf_iff_prefix, List.infix_cons_iff]

theorem equalsScalar_iff {value : String} {s : Scalar} :
    equalsScalar value s = true ↔ s.Matches value := by
  cases s with
  | text s => rw [equalsScalar, beq_iff_eq, Scalar.Matches]
  | integer n =>
      simp only [equalsScalar, Scalar.Matches, Scalar.asNumber]
      cases Decimal.readTrimmed? value <;> simp
  | number x =>
      simp only [equalsScalar, Scalar.Matches, Scalar.asNumber]
      cases Decimal.readTrimmed? value <;> simp

theorem hasValue_iff {values : List String} {s : Scalar} :
    hasValue values s = true ↔ ∃ v ∈ values, s.Matches v := by
  rw [hasValue, List.any_eq_true]
  simp only [equalsScalar_iff]

theorem hasPart_iff {values : List String} {s : Scalar} :
    hasPart values s = true ↔
      ∃ v ∈ values, Text.normalize s.asText <:+: Text.normalize v := by
  rw [hasPart, List.any_eq_true]
  simp only [Text.occursIn_iff]

theorem singleNumber?_eq_some_iff {values : List String} {x : Float} :
    singleNumber? values = some x ↔ IsNumber values x := by
  unfold singleNumber? IsNumber
  split
  · simp
  · next h =>
    constructor
    · intro hnone
      cases hnone
    · rintro ⟨value, hvalue, -⟩
      exact absurd hvalue (h value)

theorem Rule.compareSize_iff {r : Rule ResolvedOperand} {values : List String}
    {test : Float → Bool} :
    (r.compareSize values test).holds = true ↔ ∃ x, IsNumber values x ∧ test x = true := by
  simp only [← singleNumber?_eq_some_iff]
  unfold Rule.compareSize
  cases singleNumber? values <;> simp

theorem withNumber_iff {scalars : List Scalar} {test : Float → Float → Bool} {x : Float} :
    withNumber scalars test x = true ↔
      ∃ s, scalars = [s] ∧ ∃ y, s.asNumber = some y ∧ test x y = true := by
  unfold withNumber
  split
  · next s =>
    cases h : s.asNumber <;> simp [h]
  · next h =>
    constructor
    · intro hfalse
      cases hfalse
    · rintro ⟨s, hs, -⟩
      exact absurd hs (h s)

/-- **One rule, evaluated.**  The verdict on an operand is what the operator says about it. -/
theorem Rule.verdictOn_holds_iff {r : Rule ResolvedOperand} {values : List String}
    {scalars : List Scalar} :
    (r.verdictOn values scalars).holds = true ↔ r.operator.Compares values scalars := by
  obtain ⟨attributeId, op, operand⟩ := r
  -- where the operator wants one or two scalars, any other number of them fails on both sides
  cases op with
  | equals =>
      rcases scalars with _ | ⟨s, _ | ⟨s', rest⟩⟩ <;>
        simp [Rule.verdictOn, Operator.Compares, hasValue_iff]
  | notEquals =>
      rcases scalars with _ | ⟨s, _ | ⟨s', rest⟩⟩ <;>
        simp [Rule.verdictOn, Operator.Compares, ← hasValue_iff]
  | anyIn => simp [Rule.verdictOn, Operator.Compares, hasValue_iff]
  | noneIn => simp [Rule.verdictOn, Operator.Compares, ← hasValue_iff]
  | allIn => simp [Rule.verdictOn, Operator.Compares, hasValue_iff]
  | isEmpty => simp [Rule.verdictOn, Operator.Compares]
  | isNotEmpty => simp [Rule.verdictOn, Operator.Compares]
  | contains =>
      rcases scalars with _ | ⟨s, _ | ⟨s', rest⟩⟩ <;>
        simp [Rule.verdictOn, Operator.Compares, hasPart_iff]
  | greaterThan => simp [Rule.verdictOn, Operator.Compares, Rule.compareSize_iff, withNumber_iff]
  | greaterThanOrEqual =>
      simp [Rule.verdictOn, Operator.Compares, Rule.compareSize_iff, withNumber_iff]
  | lessThan => simp [Rule.verdictOn, Operator.Compares, Rule.compareSize_iff, withNumber_iff]
  | lessThanOrEqual =>
      simp [Rule.verdictOn, Operator.Compares, Rule.compareSize_iff, withNumber_iff]
  | between =>
      rcases scalars with _ | ⟨s, _ | ⟨t, _ | ⟨t', rest⟩⟩⟩
      · simp [Rule.verdictOn, Operator.Compares]
      · simp [Rule.verdictOn, Operator.Compares]
      · simp only [Rule.verdictOn, Operator.Compares]
        cases hs : s.asNumber <;> cases ht : t.asNumber <;>
          simp [Rule.compareSize_iff, hs, ht]
      · simp [Rule.verdictOn, Operator.Compares]

theorem Rule.verdict_of_isEmpty {r : Rule ResolvedOperand} {values : List String}
    (hop : r.operator = .isEmpty) : (r.verdict values).holds = true ↔ values = [] := by
  rw [Rule.verdict, hop]
  exact List.isEmpty_iff

theorem Rule.verdict_of_isNotEmpty {r : Rule ResolvedOperand} {values : List String}
    (hop : r.operator = .isNotEmpty) : (r.verdict values).holds = true ↔ values ≠ [] := by
  rw [Rule.verdict, hop]
  simp

/-- A rule whose operator takes an operand fails without a value, and says nothing. -/
theorem Rule.verdict_of_no_value {r : Rule ResolvedOperand} {values : List String}
    (hop : r.operator.takesOperand = true)
    (hvalue : r.operand.bind ResolvedOperand.value? = none) : r.verdict values = ⟨false, none⟩ := by
  obtain ⟨attributeId, op, operand⟩ := r
  unfold Rule.verdict
  rw [hvalue]
  cases op <;> first | rfl | cases hop

/-- With a value, a rule is decided by that value. -/
theorem Rule.verdict_of_value {r : Rule ResolvedOperand} {values : List String} {value : Literal}
    (hvalue : r.operand.bind ResolvedOperand.value? = some value) :
    r.verdict values = r.verdictOn values value.scalars := by
  obtain ⟨attributeId, op, operand⟩ := r
  unfold Rule.verdict
  rw [hvalue]
  cases op <;> rfl

/-- A prepared rule whose operator takes an operand holds if the operand has a value that the
operator says so about. -/
theorem Rule.verdict_holds_iff {r : Rule ResolvedOperand} {values : List String}
    (hop : r.operator.takesOperand = true) :
    (r.verdict values).holds = true ↔
      ∃ value, r.operand.bind ResolvedOperand.value? = some value ∧
        r.operator.Compares values value.scalars := by
  cases hvalue : r.operand.bind ResolvedOperand.value? with
  | none =>
      rw [Rule.verdict_of_no_value hop hvalue]
      simp
  | some value =>
      rw [Rule.verdict_of_value hvalue, Rule.verdictOn_holds_iff]
      simp

/-! ## A tree of one rule -/

theorem MemberValues.get_insert_self {values : MemberValues} {id : String} {vs : List String} :
    MemberValues.get (values.insert id vs) id = vs := by
  rw [get, Dictionary.find?_insert_self]
  rfl

/-- A rule that has a value holds for a member just if its operator says so. -/
theorem Query.evaluate_rule_iff_compares {id : String} {op : Operator} {o : ResolvedOperand}
    {value : Literal} (takes : op.takesOperand = true) (ho : o.value? = some value)
    (values : MemberValues) (t : Tally) :
    ((rule ⟨id, op, some o⟩).evaluate values t).1 = true ↔
      op.Compares (values.get id) value.scalars := by
  show (Rule.verdict ⟨id, op, some o⟩ (values.get id)).holds = true ↔ _
  rw [Rule.verdict_holds_iff takes, Option.bind_some, ho]
  simp

end TeamRouting
