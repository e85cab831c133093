import TeamRouting.Proofs.Protocol
import TeamRouting.Proofs.Reach

/-!
# The kinds of warnings

A run may warn of references without an answer, of answers that do not fit, and of members without
a number to compare; and it warns that it was called off.  Nothing else is ever said, and a warning
of one of the first kinds is never taken for the last.

* `Engine.mem_prepare_warnings` — what preparing a tree warns of;
* `Rule.verdict_warning_iff`, `Strategy.mem_surveyEach_warnings` — what evaluating a rule, and a
  tree for each of the members, warns of;
* `Reference.unboundWarning_ne_canceledWarning` and its siblings — the wordings differ.
-/

namespace TeamRouting

/-! ## Preparation -/

theorem Engine.mem_prepare_warnings {engine : Engine} {catalog : Catalog} {bindings : Bindings}
    {query : Query Operand} {plan : Plan} (h : engine.prepare catalog bindings query = .ok plan)
    {message : String} (hm : message ∈ plan.warnings) :
    (∃ r : Reference, message = r.unboundWarning) ∨ ∃ m : Misfit, message = m.warning := by
  obtain ⟨resolution, validation, -, -, rfl⟩ := prepare_eq_ok_iff.1 h
  rcases List.mem_append.1 hm with hresolution | hvalidation
  · obtain ⟨r, -, hr⟩ := List.mem_map.1 hresolution
    exact Or.inl ⟨r, hr.symm⟩
  · obtain ⟨m, -, hm⟩ := List.mem_map.1 hvalidation
    exact Or.inr ⟨m, hm.symm⟩

/-! ## Evaluation -/

theorem takesOperand_of_isNumeric {op : Operator} (h : op.isNumeric = true) :
    op.takesOperand = true := by
  revert h
  cases op <;> decide

namespace Rule

variable {r : Rule ResolvedOperand} {values : List String} {message : String}

theorem compareSize_warning_iff {test : Float → Bool} :
    (r.compareSize values test).warning = some message ↔
      message = numberWarning r.attributeId r.operator ∧ ∀ x, ¬ IsNumber values x := by
  have hnumber : (∀ x, ¬ IsNumber values x) ↔ singleNumber? values = none := by
    simp only [← singleNumber?_eq_some_iff, Option.eq_none_iff_forall_ne_some, ne_eq]
  rw [hnumber]
  unfold compareSize
  cases singleNumber? values with
  | none => simp [eq_comm]
  | some x => simp

/-- The scalars are the two ends of a range. -/
def AreBounds (scalars : List Scalar) : Prop :=
  ∃ s t low high, scalars = [s, t] ∧ s.asNumber = some low ∧ t.asNumber = some high

/-- **A rule warns if it compares by size** and there is nothing to compare.  A range looks at its
bounds before it compares. -/
theorem verdictOn_warning_iff {scalars : List Scalar} :
    (r.verdictOn values scalars).warning = some message ↔
      r.operator.isNumeric = true ∧ (r.operator = .between → AreBounds scalars) ∧
        message = numberWarning r.attributeId r.operator ∧ ∀ x, ¬ IsNumber values x := by
  obtain ⟨attributeId, op, operand⟩ := r
  cases op with
  | greaterThan | greaterThanOrEqual | lessThan | lessThanOrEqual =>
      simp [verdictOn, compareSize_warning_iff, Operator.isNumeric]
  | between =>
      rcases scalars with _ | ⟨s, _ | ⟨t, _ | ⟨t', rest⟩⟩⟩
      · simp [verdictOn, AreBounds]
      · simp [verdictOn, AreBounds]
      · simp only [verdictOn]
        cases hs : s.asNumber <;> cases ht : t.asNumber <;>
          simp [compareSize_warning_iff, Operator.isNumeric, AreBounds, hs, ht]
      · simp [verdictOn, AreBounds]
  | equals | notEquals | contains =>
      rcases scalars with _ | ⟨s, _ | ⟨t, rest⟩⟩ <;> simp [verdictOn, Operator.isNumeric]
  | _ => simp [verdictOn, Operator.isNumeric]

/-- The tests for emptiness have nothing to warn of. -/
theorem verdict_warning_of_idle (idle : r.operator.takesOperand = false) :
    (r.verdict values).warning = none := by
  obtain ⟨attributeId, op, operand⟩ := r
  unfold verdict
  cases op <;> first | rfl | cases idle

/-- Only a rule with a value to compare with can warn. -/
theorem verdict_warning_iff :
    (r.verdict values).warning = some message ↔
      r.operator.isNumeric = true ∧ (∃ value, r.operand.bind ResolvedOperand.value? = some value ∧
        (r.operator = .between → AreBounds value.scalars)) ∧
        message = numberWarning r.attributeId r.operator ∧ ∀ x, ¬ IsNumber values x := by
  cases takes : r.operator.takesOperand with
  | false =>
      have hnumeric : r.operator.isNumeric ≠ true := by
        intro numeric
        rw [takesOperand_of_isNumeric numeric] at takes
        cases takes
      simp [verdict_warning_of_idle takes, hnumeric]
  | true =>
      cases hvalue : r.operand.bind ResolvedOperand.value? with
      | none => simp [verdict_of_no_value takes hvalue]
      | some value =>
          rw [verdict_of_value hvalue, verdictOn_warning_iff]
          simp

end Rule

/-- An evaluation warns of nothing but members without a number to compare. -/
theorem Query.WarnsOf.eq_numberWarning {q : Query ResolvedOperand} {values : MemberValues}
    {message : String} (h : q.WarnsOf values message) :
    ∃ attributeId op, message = numberWarning attributeId op := by
  obtain ⟨r, -, hr⟩ := h
  exact ⟨_, _, (Rule.verdict_warning_iff.1 hr).2.2.1⟩

namespace Strategy

variable {strategy : Strategy} {tree : Query ResolvedOperand} {message : String}

theorem mem_surveyOne_warnings {m : Member} :
    message ∈ (strategy.surveyOne tree m).tally.warnings ↔
      strategy = .attributeLogic ∧ tree.WarnsOf m.values message := by
  cases strategy with
  | attributeLogic =>
      have hempty : message ∉ ({} : Tally).warnings := NameSet.not_mem_empty
      have hevaluate : message ∈ (tree.evaluate m.values {}).2.warnings ↔ _ :=
        tree.mem_evaluate_warnings m.values {}
      rw [or_iff_right hempty] at hevaluate
      rw [eq_self, true_and, ← hevaluate]
      rfl
  | matchAll => exact ⟨fun h => absurd h NameSet.not_mem_empty, fun h => by cases h.1⟩

/-- **A survey warns of what evaluating the tree for each of the members warns of.** -/
theorem mem_surveyEach_warnings {ms : List Member} :
    message ∈ (strategy.surveyEach tree ms).tally.warnings ↔
      strategy = .attributeLogic ∧ ∃ m ∈ ms, tree.WarnsOf m.values message := by
  induction ms with
  | nil => exact ⟨fun h => absurd h NameSet.not_mem_empty, fun ⟨_, _, hm, _⟩ => by cases hm⟩
  | cons m rest ih =>
      rw [surveyEach_cons, ← Survey.absorb_eq_add, Survey.absorb, Tally.merge, NameSet.mem_union,
        ih, mem_surveyOne_warnings]
      simp [and_or_left]

end Strategy

/-! ## Wordings -/

theorem head?_toList_append {s t : String} {c : Char} (h : s.toList.head? = some c) :
    (s ++ t).toList.head? = some c := by
  rw [String.toList_append, List.head?_append, h]
  rfl

/-- Texts with different first characters differ. -/
theorem text_ne_of_head? {s t : String} {c d : Char} (hs : s.toList.head? = some c)
    (ht : t.toList.head? = some d) (hcd : c ≠ d) : s ≠ t := by
  rintro rfl
  exact hcd (Option.some.inj (hs.symm.trans ht))

theorem canceledWarning_head? : canceledWarning.toList.head? = some 'e' := by decide

theorem Reference.unboundWarning_ne_canceledWarning (r : Reference) :
    r.unboundWarning ≠ canceledWarning := by
  have hhead : r.unboundWarning.toList.head? = some 'd' :=
    head?_toList_append (head?_toList_append (by decide))
  exact text_ne_of_head? hhead canceledWarning_head? (by decide)

theorem Misfit.warning_ne_canceledWarning (m : Misfit) : m.warning ≠ canceledWarning := by
  have hhead : m.warning.toList.head? = some 'd' := by
    unfold warning
    repeat apply head?_toList_append
    decide
  exact text_ne_of_head? hhead canceledWarning_head? (by decide)

theorem numberWarning_ne_canceledWarning (attributeId : String) (op : Operator) :
    numberWarning attributeId op ≠ canceledWarning := by
  have hhead : (numberWarning attributeId op).toList.head? = some 'm' := by
    unfold numberWarning
    repeat apply head?_toList_append
    decide
  exact text_ne_of_head? hhead canceledWarning_head? (by decide)

/-- A plan never warns that a run was called off. -/
theorem Engine.canceledWarning_not_mem_prepare {engine : Engine} {catalog : Catalog}
    {bindings : Bindings} {query : Query Operand} {plan : Plan}
    (h : engine.prepare catalog bindings query = .ok plan) : canceledWarning ∉ plan.warnings := by
  intro hm
  rcases mem_prepare_warnings h hm with ⟨r, hr⟩ | ⟨m, hm⟩
  · exact r.unboundWarning_ne_canceledWarning hr.symm
  · exact m.warning_ne_canceledWarning hm.symm

/-- Nor does an evaluation. -/
theorem Strategy.canceledWarning_not_mem_surveyEach (strategy : Strategy)
    (tree : Query ResolvedOperand) (ms : List Member) :
    canceledWarning ∉ (strategy.surveyEach tree ms).tally.warnings := by
  intro hm
  obtain ⟨-, m, -, warns⟩ := mem_surveyEach_warnings.1 hm
  obtain ⟨attributeId, op, h⟩ := warns.eq_numberWarning
  exact numberWarning_ne_canceledWarning attributeId op h.symm

end TeamRouting
