import TeamRouting.Proofs.Acceptance

/-!
# What validation spares the evaluation

The evaluation of a rule gives up, and answers that the rule fails, wherever a rule should not have
come so far: when the operand is missing, when it has the wrong number of scalars, and when a scalar
should be a number and is not.  Validation sees to it that none of this ever happens, although it
rewrites the values after it has checked them.

* `ResolvedOperand.Settled`, `Rule.Settled` — what a rule is like after validation;
* `Rule.settled_of_validateRule` — and it is;
* `Probe`, `Gap`, `Rule.examine` — evaluation once more, in terms of the questions that it asks
  about a member, with the places at which it gives up set apart;
* `Rule.verdict_agreesWith` — this is the evaluation of a rule: wherever it gives up, the rule
  fails;
* `Rule.exists_examine_of_settled` — after validation it never gives up;
* `Rule.examine_fails_iff` — and no rule fails before it asked, but for two kinds of operands;
* `Query.validate_settles` — all of it for the rules of a tree.
-/

namespace TeamRouting

/-! ## Settled operands -/

/-- What an operand is like after validation.  A value has the shape that the operator wants on the
attribute, wherever it comes from, and an authored one on a select attribute consists of ids of
choices. -/
inductive ResolvedOperand.Settled (op : Operator) (a : Attribute) : ResolvedOperand → Prop
  | static {value : Literal} (fits : op.Fits a value.scalars)
      (ids : a.type.hasChoices = true →
        ∀ s ∈ value.scalars, ∃ id ∈ a.choiceIds, s = .text id) : Settled op a (.static value)
  | bound {value : Literal} (fits : op.Fits a value.scalars) (ref : Reference) :
      Settled op a (.bound value ref)
  | indeterminate (ref : Reference) : Settled op a (.indeterminate ref)

/-- What a rule is like after validation: its attribute is defined, its operator applies to the
type, and if the operator takes an operand, there is one and it is settled. -/
def Rule.Settled (catalog : Catalog) (r : Rule ResolvedOperand) : Prop :=
  ∃ a, catalog.Defines r.attributeId a ∧ r.operator ∈ a.type.operators ∧
    (r.operator.takesOperand = true → ∃ o, r.operand = some o ∧ o.Settled r.operator a)

section Validation

variable {catalog : Catalog} {op : Operator} {a : Attribute} {value : Literal}

theorem length_suppliedForm : (suppliedForm a value).scalars.length = value.scalars.length := by
  unfold suppliedForm
  split
  · rw [Literal.scalars_map, List.length_map]
  · split
    · rw [Literal.scalars_map, List.length_map]
    · rfl

/-- **The form of a value that fits still fits.**  There are as many scalars as before, and where
they have to be numbers they are only written in another way. -/
theorem Operator.Fits.suppliedForm (fits : op.Fits a value.scalars)
    (allowed : a.type.operators.contains op = true) :
    op.Fits a (suppliedForm a value).scalars where
  bounds range := by rw [length_suppliedForm, fits.bounds range]
  single one := by rw [length_suppliedForm, fits.single one]
  numeric numbers := by
    have number : a.type = .number := numbers.elim (number_of_isNumeric · allowed) id
    rw [TeamRouting.suppliedForm, if_pos number, Literal.scalars_map]
    intro t ht
    obtain ⟨s, hs, rfl⟩ := List.mem_map.1 ht
    exact Scalar.exists_asNumber_intoNumeric (fits.numeric numbers s hs)

/-- A choice that a text names is one of the attribute. -/
theorem Attribute.mem_choiceIds_of_findChoice? {named : String} {c : Choice}
    (h : a.findChoice? named = some c) : c.id ∈ a.choiceIds := by
  have hc : c ∈ a.choices := by
    rcases Option.or_eq_some_iff.1 h with hid | ⟨-, hlabel⟩
    · exact List.mem_of_find?_eq_some hid
    · exact List.mem_of_find?_eq_some hlabel
  rw [choiceIds, NameSet.mem_ofList]
  exact List.mem_map_of_mem hc

/-- **An authored value on a select attribute takes the form of ids.** -/
theorem ids_of_authoredForm {form : Literal} (h : authoredForm a value = .ok form)
    (select : a.type.hasChoices = true) :
    ∀ t ∈ form.scalars, ∃ id ∈ a.choiceIds, t = .text id := by
  have offered : ∀ s ∈ value.scalars, a.Offers s := by
    have hnone : fault? (authoredForm a value) = none := by rw [h, fault?_ok]
    exact fault?_authoredForm_eq_none_iff.1 hnone select
  have noNumber : a.type ≠ .number := AttributeType.ne_number_of_hasChoices select
  rw [form_eq_suppliedForm h, suppliedForm, if_neg noNumber, if_pos select, Literal.scalars_map]
  intro t ht
  obtain ⟨s, hs, rfl⟩ := List.mem_map.1 ht
  obtain ⟨c, hc⟩ := Option.isSome_iff_exists.1 (Attribute.offers_iff_isSome.1 (offered s hs))
  exact ⟨c.id, Attribute.mem_choiceIds_of_findChoice? hc, by rw [nameChoiceIfAny, hc]; rfl⟩

/-- **Validation settles operands.** -/
theorem settled_of_validateOperand {o form : ResolvedOperand} {misfits : List Misfit}
    (allowed : a.type.operators.contains op = true)
    (h : validateOperand op a o = .ok (form, misfits)) : form.Settled op a := by
  cases validatesTo_of_ok h with
  | static fits hform =>
      have settled := (flaw?_eq_none_iff.1 fits).suppliedForm allowed
      rw [← form_eq_suppliedForm hform] at settled
      exact .static settled (ids_of_authoredForm hform)
  | bound ref fits => exact .bound ((flaw?_eq_none_iff.1 fits).suppliedForm allowed) ref
  | misfit ref hflaw => exact .indeterminate ref
  | indeterminate ref => exact .indeterminate ref

/-- **Validation settles rules.** -/
theorem Rule.settled_of_validateRule {r validated : Rule ResolvedOperand} {misfits : List Misfit}
    (h : validateRule catalog r = .ok (validated, misfits)) : validated.Settled catalog := by
  obtain ⟨hid, hop, a, ha, allowed, hcases⟩ := validateRule_cases h
  refine ⟨a, ?_, ?_, ?_⟩
  · rw [hid]
    exact Catalog.attribute?_eq_some_iff.1 ha
  · rw [hop]
    exact List.contains_iff_mem.1 allowed
  · rw [hop]
    intro takes
    obtain idle | ⟨-, o, form, -, hform, hv⟩ := hcases
    · rw [idle] at takes
      cases takes
    · exact ⟨form, hform, settled_of_validateOperand allowed hv⟩

/-- Validation of a rule replaces its operand at most. -/
theorem Rule.outline_of_validateRule {r validated : Rule ResolvedOperand} {misfits : List Misfit}
    (h : validateRule catalog r = .ok (validated, misfits)) :
    (⟨validated.attributeId, validated.operator, validated.operand.map fun _ => ()⟩ : Rule Unit) =
      ⟨r.attributeId, r.operator, r.operand.map fun _ => ()⟩ := by
  obtain ⟨hid, hop, a, ha, allowed, idle | ⟨-, o, form, ho, hform, -⟩⟩ := validateRule_cases h
  · rw [validateRule_of_defines (Catalog.attribute?_eq_some_iff.1 ha),
      validateRuleOn_of_idle (List.contains_iff_mem.1 allowed) idle] at h
    cases h
    rfl
  · rw [hid, hop, ho, hform]
    rfl

end Validation

/-! ## Evaluation, question by question -/

/-- The answers to whatever evaluation may ask about the values of a member. -/
structure Probe where
  /-- there is no value -/
  isEmpty : Bool
  /-- some value matches a scalar -/
  hasValue : Scalar → Bool
  /-- some value has the text of a scalar in it -/
  hasPart : Scalar → Bool
  /-- the one number -/
  number? : Option Float

/-- The answers of a member. -/
def Probe.ofValues (values : List String) : Probe where
  isEmpty := values.isEmpty
  hasValue := TeamRouting.hasValue values
  hasPart := TeamRouting.hasPart values
  number? := singleNumber? values

/-- The reasons for which evaluation gives up on a rule. -/
inductive Gap where
  /-- there is no operand -/
  | missing
  /-- the operand has the wrong number of scalars -/
  | count
  /-- a scalar should be a number and is not -/
  | number
deriving DecidableEq, Repr

namespace Rule

/-- The scalar of an operand that must have one. -/
def oneOf : List Scalar → Except Gap Scalar
  | [s] => .ok s
  | _ => .error .count

/-- The scalars of an operand that must have two. -/
def twoOf : List Scalar → Except Gap (Scalar × Scalar)
  | [s, t] => .ok (s, t)
  | _ => .error .count

/-- The number that a scalar must be. -/
def numberOf (s : Scalar) : Except Gap Float :=
  match s.asNumber with
  | some x => .ok x
  | none => .error .number

/-- Tests the number of a member; without one the rule fails with a warning. -/
def examineSize (r : Rule ResolvedOperand) (p : Probe) (test : Float → Bool) : Verdict :=
  match p.number? with
  | some x => ⟨test x, none⟩
  | none => ⟨false, some (numberWarning r.attributeId r.operator)⟩

/-- A rule with these scalars, decided by what a member answers. -/
def examineOn (r : Rule ResolvedOperand) (p : Probe) (scalars : List Scalar) : Except Gap Verdict :=
  match r.operator with
  | .equals => do
    let s ← oneOf scalars
    return ⟨p.hasValue s, none⟩
  | .notEquals => do
    let s ← oneOf scalars
    return ⟨!p.hasValue s, none⟩
  | .anyIn => return ⟨scalars.any p.hasValue, none⟩
  | .noneIn => return ⟨!scalars.any p.hasValue, none⟩
  | .allIn => return ⟨!scalars.isEmpty && scalars.all p.hasValue, none⟩
  | .contains => do
    let s ← oneOf scalars
    return ⟨p.hasPart s, none⟩
  | .greaterThan => do
    let y ← oneOf scalars >>= numberOf
    return r.examineSize p fun x => x > y
  | .greaterThanOrEqual => do
    let y ← oneOf scalars >>= numberOf
    return r.examineSize p fun x => x ≥ y
  | .lessThan => do
    let y ← oneOf scalars >>= numberOf
    return r.examineSize p fun x => x < y
  | .lessThanOrEqual => do
    let y ← oneOf scalars >>= numberOf
    return r.examineSize p fun x => x ≤ y
  | .between => do
    let (s, t) ← twoOf scalars
    let low ← numberOf s
    let high ← numberOf t
    return r.examineSize p fun x => x ≥ low && x ≤ high
  | .isEmpty => return ⟨p.isEmpty, none⟩
  | .isNotEmpty => return ⟨!p.isEmpty, none⟩

/-- **A rule, decided by what a member answers**, or the gap that evaluation would fall into.  A
reference without a value is not a gap: its rule is meant to fail. -/
def examine (r : Rule ResolvedOperand) (p : Probe) : Except Gap Verdict :=
  match r.operator, r.operand with
  | .isEmpty, _ => .ok ⟨p.isEmpty, none⟩
  | .isNotEmpty, _ => .ok ⟨!p.isEmpty, none⟩
  | _, none => .error .missing
  | _, some (.indeterminate _) => .ok ⟨false, none⟩
  | _, some (.static value) => r.examineOn p value.scalars
  | _, some (.bound value _) => r.examineOn p value.scalars

end Rule

/-- A verdict agrees with an examination: it is what came of it, or the examination gave up and the
rule fails. -/
def Verdict.AgreesWith (v : Verdict) : Except Gap Verdict → Prop
  | .ok w => v = w
  | .error _ => v.holds = false

namespace Rule

variable {r : Rule ResolvedOperand} {values : List String}

theorem compareSize_eq_examineSize (test : Float → Bool) :
    r.compareSize values test = r.examineSize (.ofValues values) test := rfl

theorem compareSize_holds_of_false {test : Float → Bool} (h : ∀ x, test x = false) :
    (r.compareSize values test).holds = false := by
  unfold compareSize
  cases singleNumber? values with
  | none => rfl
  | some x => exact h x

/-- A comparison with the number of an operand. -/
theorem compareSize_agreesWith (scalars : List Scalar) (test : Float → Float → Bool) :
    (r.compareSize values (withNumber scalars test)).AgreesWith (do
      let y ← oneOf scalars >>= numberOf
      return r.examineSize (.ofValues values) fun x => test x y) := by
  rcases scalars with _ | ⟨s, _ | ⟨t, rest⟩⟩
  · exact compareSize_holds_of_false fun _ => rfl
  · cases hs : s.asNumber with
    | none =>
        have hnumber : numberOf s = .error .number := by rw [numberOf, hs]
        show Verdict.AgreesWith _ (numberOf s >>= _)
        rw [hnumber]
        exact compareSize_holds_of_false fun x => by rw [withNumber, hs]; rfl
    | some y =>
        have hnumber : numberOf s = .ok y := by rw [numberOf, hs]
        have htest : withNumber [s] test = fun x => test x y := by
          funext x
          rw [withNumber, hs]
          rfl
        show Verdict.AgreesWith _ (numberOf s >>= _)
        rw [hnumber, htest]
        exact compareSize_eq_examineSize _
  · exact compareSize_holds_of_false fun _ => rfl

theorem verdictOn_agreesWith (scalars : List Scalar) :
    (r.verdictOn values scalars).AgreesWith (r.examineOn (.ofValues values) scalars) := by
  obtain ⟨attributeId, op, operand⟩ := r
  cases op with
  | equals | notEquals | contains =>
      rcases scalars with _ | ⟨s, _ | ⟨t, rest⟩⟩ <;> rfl
  | anyIn | noneIn | allIn | isEmpty | isNotEmpty => rfl
  | greaterThan | greaterThanOrEqual | lessThan | lessThanOrEqual =>
      exact compareSize_agreesWith scalars _
  | between =>
      rcases scalars with _ | ⟨s, _ | ⟨t, _ | ⟨u, rest⟩⟩⟩
      · rfl
      · rfl
      · simp only [verdictOn, examineOn, twoOf, numberOf, bind, Except.bind]
        cases s.asNumber with
        | none => rfl
        | some low => cases t.asNumber <;> rfl
      · rfl

/-- The examination of a rule with a value is that of the scalars. -/
theorem examine_of_value {o : ResolvedOperand} {value : Literal} {p : Probe}
    (ho : r.operand = some o) (h : o.value? = some value) :
    r.examine p = r.examineOn p value.scalars := by
  obtain ⟨attributeId, op, operand⟩ := r
  cases ho
  cases o with
  | static value' | bound value' ref =>
      cases h
      cases op <;> rfl
  | indeterminate ref => cases h

/-- A rule whose reference has no value fails, whatever a member answers. -/
theorem examine_of_indeterminate {ref : Reference} {p : Probe}
    (takes : r.operator.takesOperand = true) (ho : r.operand = some (.indeterminate ref)) :
    r.examine p = .ok ⟨false, none⟩ := by
  obtain ⟨attributeId, op, operand⟩ := r
  cases ho
  cases op <;> first | rfl | cases takes

/-- **Evaluation is the examination of the member's values.**  Where it gives up, the rule fails. -/
theorem verdict_agreesWith : (r.verdict values).AgreesWith (r.examine (.ofValues values)) := by
  cases ho : r.operand with
  | none =>
      obtain ⟨attributeId, op, operand⟩ := r
      cases ho
      cases op <;> rfl
  | some o =>
      cases hvalue : o.value? with
      | none =>
          obtain ⟨attributeId, op, operand⟩ := r
          cases ho
          cases o with
          | static value | bound value ref => cases hvalue
          | indeterminate ref => cases op <;> rfl
      | some value =>
          rw [examine_of_value ho hvalue, verdict_of_value (by rw [ho]; exact hvalue)]
          exact verdictOn_agreesWith value.scalars

/-! ## No gaps after validation -/

section Settled

variable {catalog : Catalog} {a : Attribute} {op : Operator} {scalars : List Scalar} {p : Probe}

theorem exists_numberOf {s : Scalar} (h : ∃ x, s.asNumber = some x) : ∃ x, numberOf s = .ok x := by
  obtain ⟨x, hx⟩ := h
  exact ⟨x, by rw [numberOf, hx]⟩

/-- A comparison by size that fits has a number to compare with. -/
theorem exists_number_of_fits (fits : op.Fits a scalars) (numeric : op.isNumeric = true)
    (one : op.takesSet = false) : ∃ x, (oneOf scalars >>= numberOf) = .ok x := by
  obtain ⟨s, rfl⟩ := List.length_eq_one_iff.1 (fits.single one)
  exact exists_numberOf (fits.numeric (Or.inl numeric) s (List.mem_singleton_self s))

/-- **With scalars that fit, evaluation never gives up.** -/
theorem exists_examineOn_of_fits (fits : r.operator.Fits a scalars) :
    ∃ v, r.examineOn p scalars = .ok v := by
  obtain ⟨attributeId, op, operand⟩ := r
  cases op with
  | equals | notEquals | contains =>
      obtain ⟨s, rfl⟩ := List.length_eq_one_iff.1 (fits.single rfl)
      exact ⟨_, rfl⟩
  | anyIn | noneIn | allIn | isEmpty | isNotEmpty => exact ⟨_, rfl⟩
  | greaterThan | greaterThanOrEqual | lessThan | lessThanOrEqual =>
      obtain ⟨y, hy⟩ := exists_number_of_fits fits rfl rfl
      simp only [examineOn, hy]
      exact ⟨_, rfl⟩
  | between =>
      obtain ⟨s, t, rfl⟩ := List.length_eq_two.1 (fits.bounds rfl)
      obtain ⟨low, hlow⟩ := exists_numberOf (fits.numeric (Or.inl rfl) s (by simp))
      obtain ⟨high, hhigh⟩ := exists_numberOf (fits.numeric (Or.inl rfl) t (by simp))
      simp only [examineOn, twoOf, hlow, hhigh, bind, Except.bind]
      exact ⟨_, rfl⟩

/-- What the operand of a settled rule is. -/
theorem operand_of_settled (settled : r.Settled catalog) (takes : r.operator.takesOperand = true) :
    (∃ ref, r.operand = some (.indeterminate ref)) ∨
      ∃ a o value, r.operand = some o ∧ o.value? = some value ∧
        r.operator.Fits a value.scalars := by
  obtain ⟨a, -, -, hoperand⟩ := settled
  obtain ⟨o, ho, settled⟩ := hoperand takes
  cases settled with
  | static fits _ => exact Or.inr ⟨a, _, _, ho, rfl, fits⟩
  | bound fits ref => exact Or.inr ⟨a, _, _, ho, rfl, fits⟩
  | indeterminate ref => exact Or.inl ⟨ref, ho⟩

/-- **After validation, evaluation never gives up**, whatever a member answers. -/
theorem exists_examine_of_settled (settled : r.Settled catalog) (p : Probe) :
    ∃ v, r.examine p = .ok v := by
  cases takes : r.operator.takesOperand with
  | false =>
      obtain ⟨attributeId, op, operand⟩ := r
      cases op <;> first | exact ⟨_, rfl⟩ | cases takes
  | true =>
      obtain ⟨ref, ho⟩ | ⟨a, o, value, ho, hvalue, fits⟩ := operand_of_settled settled takes
      · exact ⟨_, examine_of_indeterminate takes ho⟩
      · rw [examine_of_value ho hvalue]
        exact exists_examineOn_of_fits fits

theorem examine_of_settled (settled : r.Settled catalog) :
    r.examine (.ofValues values) = .ok (r.verdict values) := by
  obtain ⟨v, hv⟩ := exists_examine_of_settled settled (.ofValues values)
  have hverdict : (r.verdict values).AgreesWith (r.examine (.ofValues values)) :=
    verdict_agreesWith
  rw [hv] at hverdict
  rw [hv, hverdict]

/-! ## Rules that do not ask -/

/-- **With scalars that fit, a rule asks about the member before it fails**, but for one that wants
some or all of no values. -/
theorem examineOn_fails_iff (fits : r.operator.Fits a scalars)
    (takes : r.operator.takesOperand = true) :
    (∀ p, r.examineOn p scalars = .ok ⟨false, none⟩) ↔
      (r.operator = .anyIn ∨ r.operator = .allIn) ∧ scalars = [] := by
  obtain ⟨attributeId, op, operand⟩ := r
  constructor
  · intro h
    have hyes := h ⟨true, fun _ => true, fun _ => true, none⟩
    have hno := h ⟨false, fun _ => false, fun _ => false, none⟩
    cases op with
    | equals | contains =>
        obtain ⟨s, rfl⟩ := List.length_eq_one_iff.1 (fits.single rfl)
        cases hyes
    | notEquals =>
        obtain ⟨s, rfl⟩ := List.length_eq_one_iff.1 (fits.single rfl)
        cases hno
    | noneIn => simp [examineOn, pure, Except.pure] at hno
    | anyIn =>
        refine ⟨Or.inl rfl, ?_⟩
        cases scalars with
        | nil => rfl
        | cons s rest => simp [examineOn, pure, Except.pure] at hyes
    | allIn =>
        refine ⟨Or.inr rfl, ?_⟩
        cases scalars with
        | nil => rfl
        | cons s rest => simp [examineOn, pure, Except.pure] at hyes
    | greaterThan | greaterThanOrEqual | lessThan | lessThanOrEqual =>
        obtain ⟨y, hy⟩ := exists_number_of_fits fits rfl rfl
        simp only [examineOn, hy] at hno
        cases hno
    | between =>
        obtain ⟨s, t, rfl⟩ := List.length_eq_two.1 (fits.bounds rfl)
        obtain ⟨low, hlow⟩ := exists_numberOf (fits.numeric (Or.inl rfl) s (by simp))
        obtain ⟨high, hhigh⟩ := exists_numberOf (fits.numeric (Or.inl rfl) t (by simp))
        simp only [examineOn, twoOf, hlow, hhigh, bind, Except.bind] at hno
        cases hno
    | isEmpty | isNotEmpty => cases takes
  · rintro ⟨hop, rfl⟩ p
    dsimp only at hop
    obtain rfl | rfl := hop <;> rfl

/-- **The rules that fail without a question.**  A settled rule with an operand fails for whatever a
member answers if its reference has no value, or if it wants some or all of no values, and for no
other reason. -/
theorem examine_fails_iff (settled : r.Settled catalog)
    (takes : r.operator.takesOperand = true) :
    (∀ p, r.examine p = .ok ⟨false, none⟩) ↔ (∃ ref, r.operand = some (.indeterminate ref)) ∨
      (r.operator = .anyIn ∨ r.operator = .allIn) ∧
        ∃ o value, r.operand = some o ∧ o.value? = some value ∧ value.scalars = [] := by
  obtain ⟨ref, ho⟩ | ⟨a, o, value, ho, hvalue, fits⟩ := operand_of_settled settled takes
  · exact iff_of_true (fun p => examine_of_indeterminate takes ho) (Or.inl ⟨ref, ho⟩)
  · have hexamine : ∀ p, r.examine p = r.examineOn p value.scalars :=
      fun p => examine_of_value ho hvalue
    simp only [hexamine, examineOn_fails_iff fits takes]
    constructor
    · rintro ⟨hop, hnil⟩
      exact Or.inr ⟨hop, o, value, ho, hvalue, hnil⟩
    · rintro (⟨ref, href⟩ | ⟨hop, o', value', ho', hvalue', hnil⟩)
      · cases ho.symm.trans href
        cases hvalue
      · cases ho.symm.trans ho'
        cases hvalue.symm.trans hvalue'
        exact ⟨hop, hnil⟩

end Settled

end Rule

/-! ## Trees -/

namespace Query

variable {catalog : Catalog} {tree : Query ResolvedOperand} {validation : Validation}

/-- Validation keeps the shape of a tree, with the attributes and the operators in it. -/
theorem outline_of_validate (h : tree.validate catalog = .ok validation) :
    validation.tree.mapOperands (fun _ => ()) = tree.mapOperands (fun _ => ()) := by
  obtain ⟨g, notes, hstep, hp⟩ := exists_of_traverse_ok (validate_eq_ok_iff.1 h)
  have htree : validation.tree = tree.mapRules g := congrArg Prod.fst hp
  rw [htree, mapOperands, mapOperands, mapRules_mapRules]
  exact mapRules_congr tree fun r hr => Rule.outline_of_validateRule (hstep r hr)

theorem settled_of_validate (h : tree.validate catalog = .ok validation) :
    ∀ r ∈ validation.tree.rules, r.Settled catalog := by
  obtain ⟨g, notes, hstep, hp⟩ := exists_of_traverse_ok (validate_eq_ok_iff.1 h)
  have htree : validation.tree = tree.mapRules g := congrArg Prod.fst hp
  rw [htree, rules_mapRules]
  intro validated hvalidated
  obtain ⟨r, hr, rfl⟩ := List.mem_map.1 hvalidated
  exact Rule.settled_of_validateRule (hstep r hr)

/-- **Validation spares the evaluation every gap.**  A tree that is accepted keeps its shape, its
attributes and its operators, and all its rules are settled.  So evaluation never gives up on one of
them, whatever a member answers, and its verdict is what the examination of the member's values
comes to.  A rule with an operand can fail without a question to the member only if its reference
has no value or it wants some or all of no values. -/
theorem validate_settles (h : tree.validate catalog = .ok validation) :
    validation.tree.mapOperands (fun _ => ()) = tree.mapOperands (fun _ => ()) ∧
      ∀ r ∈ validation.tree.rules, r.Settled catalog ∧
        (∀ p, ∃ v, r.examine p = .ok v) ∧
        (∀ values, r.examine (.ofValues values) = .ok (r.verdict values)) ∧
        (r.operator.takesOperand = true → ((∀ p, r.examine p = .ok ⟨false, none⟩) ↔
          (∃ ref, r.operand = some (.indeterminate ref)) ∨
            (r.operator = .anyIn ∨ r.operator = .allIn) ∧
              ∃ o value, r.operand = some o ∧ o.value? = some value ∧ value.scalars = [])) := by
  refine ⟨outline_of_validate h, fun r hr => ?_⟩
  have settled : r.Settled catalog := settled_of_validate h r hr
  exact ⟨settled, r.exists_examine_of_settled settled, fun values => r.examine_of_settled settled,
    r.examine_fails_iff settled⟩

/-- A label becomes an id, a text becomes a number, and a supplied text that is no number leaves its
reference without a value. -/
theorem validate_settles_label :
    ∃ (catalog : Catalog) (tree : Query ResolvedOperand) (validation : Validation),
      catalog = ⟨"team", "org", [⟨"dept", "Department", .multiSelect, [⟨"d1", "Sales"⟩]⟩,
        ⟨"level", "Level", .number, []⟩], []⟩ ∧
      tree = .group .and [
        .rule ⟨"dept", .allIn, some (.static (.list [.text " SALES"]))⟩,
        .group .or [.rule ⟨"level", .between, some (.static (.list [.text "1", .integer 3]))⟩,
          .rule ⟨"level", .lessThan, some (.bound (.single (.text "top")) ⟨"field", "level"⟩)⟩],
        .rule ⟨"dept", .anyIn, some (.static (.list []))⟩,
        .rule ⟨"level", .isEmpty, none⟩] ∧
      tree.validate catalog = .ok validation ∧
      (validation.tree.rules.map fun r => r.operand) =
        [some (.static (.list [.text "d1"])),
          some (.static (.list [.integer 1, .integer 3])),
          some (.indeterminate ⟨"field", "level"⟩), some (.static (.list [])), none] ∧
      validation.tree.mapOperands (fun _ => ()) = tree.mapOperands (fun _ => ()) ∧
      ∀ r ∈ validation.tree.rules, r.Settled catalog ∧ ∀ p, ∃ v, r.examine p = .ok v := by
  have hsettles : ∀ {catalog : Catalog} {tree : Query ResolvedOperand} {validation : Validation},
      tree.validate catalog = .ok validation →
      validation.tree.mapOperands (fun _ => ()) = tree.mapOperands (fun _ => ()) ∧
        ∀ r ∈ validation.tree.rules, r.Settled catalog ∧ ∀ p, ∃ v, r.examine p = .ok v := by
    intro catalog tree validation h
    obtain ⟨outline, hrules⟩ := validate_settles h
    exact ⟨outline, fun r hr => ⟨(hrules r hr).1, (hrules r hr).2.1⟩⟩
  refine ⟨_, _, ⟨_, _⟩, rfl, rfl, rfl, rfl, ?_⟩
  exact hsettles rfl

end Query

end TeamRouting
