import TeamRouting.Proofs.BindingIndependence
import TeamRouting.Proofs.MeaningPreservation

/-!
# What validation accepts

When a resolved tree is well-formed, said without the pass that checks it: every rule is about a
defined attribute, with an operator of its type and an operand that fits both.  And which fault is
reported when it is not: that of the first rule at fault, for the first check that it fails.

* `Catalog.Defines`, `Attribute.Offers` — the definition of an id, and the choices that scalars
  name;
* `Rule.Acceptable` — the rules without fault;
* `Operator.Rejects`, `Rule.Offends` — the first check that a rule fails, and its fault;
* `Rule.offends_iff`, `Rule.acceptable_iff` — validation of one rule decides between the two;
* `Query.validate_first_offence` — validation of a tree.
-/

namespace TeamRouting

/-! ## Definitions of attributes -/

/-- What an id is defined as: of several attributes with one id the first one counts. -/
def Catalog.Defines (catalog : Catalog) (id : String) (a : Attribute) : Prop :=
  ∃ before after, catalog.attributes = before ++ a :: after ∧ a.id = id ∧ ∀ b ∈ before, b.id ≠ id

theorem Catalog.attribute?_eq_some_iff {catalog : Catalog} {id : String} {a : Attribute} :
    catalog.attribute? id = some a ↔ catalog.Defines id a := by
  rw [attribute?, List.find?_eq_some_iff_append]
  simp only [Defines, decide_eq_true_eq, Bool.not_eq_true', decide_eq_false_iff_not, ne_eq]
  constructor
  · rintro ⟨hid, before, after, hsplit, hbefore⟩
    exact ⟨before, after, hsplit, hid, hbefore⟩
  · rintro ⟨before, after, hsplit, hid, hbefore⟩
    exact ⟨hid, before, after, hsplit, hbefore⟩

theorem Catalog.attribute?_eq_none_iff {catalog : Catalog} {id : String} :
    catalog.attribute? id = none ↔ ∀ a, ¬ catalog.Defines id a := by
  simp only [← attribute?_eq_some_iff]
  exact Option.eq_none_iff_forall_ne_some

theorem Catalog.Defines.id_eq {catalog : Catalog} {id : String} {a : Attribute}
    (h : catalog.Defines id a) : a.id = id := by
  obtain ⟨before, after, -, hid, -⟩ := h
  exact hid

/-- An id is defined in one way at most. -/
theorem Catalog.Defines.unique {catalog : Catalog} {id : String} {a b : Attribute}
    (ha : catalog.Defines id a) (hb : catalog.Defines id b) : a = b := by
  rw [← Catalog.attribute?_eq_some_iff] at ha hb
  exact Option.some.inj (ha.symm.trans hb)

/-! ## Choices -/

/-- A scalar names a choice of the attribute: its text is the id of one or, up to the case of ASCII
letters, its label.  Blanks around the text and the label do not matter. -/
def Attribute.Offers (a : Attribute) (s : Scalar) : Prop :=
  ∃ c ∈ a.choices, c.id = Text.trim s.asText ∨
    Text.equalsIgnoringCase (Text.trim c.label) (Text.trim s.asText) = true

theorem Attribute.offers_iff_isSome {a : Attribute} {s : Scalar} :
    a.Offers s ↔ (a.findChoice? s.asText).isSome = true := by
  rw [findChoice?, Option.isSome_or, Bool.or_eq_true, List.find?_isSome, List.find?_isSome]
  simp only [Offers, decide_eq_true_eq]
  constructor
  · rintro ⟨c, hc, hid | hlabel⟩
    · exact Or.inl ⟨c, hc, hid⟩
    · exact Or.inr ⟨c, hc, hlabel⟩
  · rintro (⟨c, hc, hid⟩ | ⟨c, hc, hlabel⟩)
    · exact ⟨c, hc, Or.inl hid⟩
    · exact ⟨c, hc, Or.inr hlabel⟩

theorem fault?_nameChoice_eq_none_iff {a : Attribute} {s : Scalar} :
    fault? (nameChoice a s) = none ↔ a.Offers s := by
  rw [Attribute.offers_iff_isSome, nameChoice]
  cases a.findChoice? s.asText <;> simp

theorem fault?_nameChoice_eq_some_iff {a : Attribute} {s : Scalar} {e : Misconfiguration} :
    fault? (nameChoice a s) = some e ↔ ¬ a.Offers s ∧ e = .unknownOption a.id s.asText := by
  rw [Attribute.offers_iff_isSome, nameChoice]
  cases a.findChoice? s.asText <;> simp [eq_comm]

/-! ## Rules without fault -/

/-- What a rule about an attribute may be: its operator applies to the type, its operand is there
if the operator takes one, and an authored value has the right shape and, on a select attribute,
names choices only. -/
structure Rule.AcceptableOn (a : Attribute) (r : Rule ResolvedOperand) : Prop where
  operator : r.operator ∈ a.type.operators
  present : r.operator.takesOperand = true → ∃ o, r.operand = some o
  shape : r.operator.takesOperand = true → ∀ value, r.operand = some (.static value) →
    r.operator.Fits a value.scalars
  choices : r.operator.takesOperand = true → ∀ value, r.operand = some (.static value) →
    a.type.hasChoices = true → ∀ s ∈ value.scalars, a.Offers s

/-- A rule without fault: its attribute is defined, and it may be what it is. -/
def Rule.Acceptable (catalog : Catalog) (r : Rule ResolvedOperand) : Prop :=
  ∃ a, catalog.Defines r.attributeId a ∧ r.AcceptableOn a

/-! ## Faults -/

/-- Why scalars do not have the shape that an operator wants on an attribute.  A range is judged as
a whole; anything else first by the number of its scalars and then by what they are. -/
inductive Operator.Rejects (op : Operator) (a : Attribute) (scalars : List Scalar) :
    OperandFlaw → Prop
  | bounds (range : op = .between)
      (h : scalars.length ≠ 2 ∨ ∃ s ∈ scalars, s.asNumber = none) :
      Rejects op a scalars .notTwoBounds
  | single (noRange : op ≠ .between) (one : op.takesSet = false) (h : scalars.length ≠ 1) :
      Rejects op a scalars .notSingle
  | numeric (noRange : op ≠ .between) (counted : op.takesSet = false → scalars.length = 1)
      (numbers : op.isNumeric = true ∨ a.type = .number) (h : ∃ s ∈ scalars, s.asNumber = none) :
      Rejects op a scalars .notNumeric

/-- The first check that a rule fails, with the fault that is reported for it. -/
inductive Rule.Offends (catalog : Catalog) (r : Rule ResolvedOperand) : Misconfiguration → Prop
  | attribute (undefined : ∀ a, ¬ catalog.Defines r.attributeId a) :
      Offends catalog r (.unknownAttribute r.attributeId)
  | operator {a : Attribute} (defined : catalog.Defines r.attributeId a)
      (barred : r.operator ∉ a.type.operators) :
      Offends catalog r (.operatorNotAllowed r.attributeId r.operator a.type)
  | missing {a : Attribute} (defined : catalog.Defines r.attributeId a)
      (allowed : r.operator ∈ a.type.operators) (takes : r.operator.takesOperand = true)
      (absent : r.operand = none) :
      Offends catalog r (.invalidOperand r.attributeId r.operator .missing)
  | shape {a : Attribute} {value : Literal} {flaw : OperandFlaw}
      (defined : catalog.Defines r.attributeId a) (allowed : r.operator ∈ a.type.operators)
      (takes : r.operator.takesOperand = true) (authored : r.operand = some (.static value))
      (rejected : r.operator.Rejects a value.scalars flaw) :
      Offends catalog r (.invalidOperand r.attributeId r.operator flaw)
  | choice {a : Attribute} {value : Literal} {before after : List Scalar} {s : Scalar}
      (defined : catalog.Defines r.attributeId a) (allowed : r.operator ∈ a.type.operators)
      (takes : r.operator.takesOperand = true) (authored : r.operand = some (.static value))
      (fits : r.operator.Fits a value.scalars) (select : a.type.hasChoices = true)
      (scalars : value.scalars = before ++ s :: after) (offered : ∀ t ∈ before, a.Offers t)
      (unknown : ¬ a.Offers s) : Offends catalog r (.unknownOption r.attributeId s.asText)

/-! ## Checking values -/

section Values

variable {op : Operator} {a : Attribute} {value : Literal}

theorem not_all_isNumber_iff {scalars : List Scalar} :
    (scalars.all fun s => s.asNumber.isSome) = false ↔ ∃ s ∈ scalars, s.asNumber = none := by
  rw [List.all_eq_false]
  simp only [Bool.not_eq_true, Option.isSome_eq_false_iff, Option.isNone_iff_eq_none]

/-- **A flaw is the first check that a value fails.** -/
theorem flaw?_eq_some_iff {flaw : OperandFlaw} :
    flaw? op a value = some flaw ↔ op.Rejects a value.scalars flaw := by
  unfold flaw?
  dsimp only
  constructor
  · intro h
    split at h
    · next range =>
      split at h
      · cases h
      · next hbounds =>
        cases h
        refine .bounds range ?_
        rw [← not_all_isNumber_iff]
        simpa [imp_iff_not_or] using hbounds
    · next noRange =>
      split at h
      · next hsingle =>
        cases h
        simp only [Bool.and_eq_true, Bool.not_eq_true', bne_iff_ne] at hsingle
        exact .single noRange hsingle.1 hsingle.2
      · next hcount =>
        split at h
        · next hnumeric =>
          cases h
          simp only [Bool.and_eq_true, Bool.not_eq_true', bne_iff_ne, not_and_not_right] at hcount
          simp only [Bool.and_eq_true, Bool.or_eq_true, decide_eq_true_eq, Bool.not_eq_true']
            at hnumeric
          exact .numeric noRange hcount hnumeric.1 (not_all_isNumber_iff.1 hnumeric.2)
        · cases h
  · rintro (⟨range, h⟩ | ⟨noRange, one, h⟩ | ⟨noRange, counted, numbers, h⟩)
    · rw [← not_all_isNumber_iff] at h
      rw [if_pos range, if_neg]
      simpa [imp_iff_not_or] using h
    · rw [if_neg noRange, if_pos]
      simp [one, h]
    · rw [← not_all_isNumber_iff] at h
      rw [if_neg noRange, if_neg, if_pos]
      · simp [numbers, h]
      · simpa using counted

theorem fault?_mapM {α β ε : Type} (f : α → Except ε β) (xs : List α) :
    fault? (xs.mapM f) = xs.findSome? fun x => fault? (f x) := by
  induction xs with
  | nil => rfl
  | cons x xs ih =>
      rw [List.mapM_cons, List.findSome?_cons]
      cases f x with
      | error e => rfl
      | ok y =>
          rw [fault?_ok, ← ih]
          cases xs.mapM f <;> rfl

theorem fault?_literalMapM {ε : Type} (f : Scalar → Except ε Scalar) (value : Literal) :
    fault? (value.mapM f) = value.scalars.findSome? fun s => fault? (f s) := by
  cases value with
  | single s =>
      rw [Literal.mapM, fault?_map, Literal.scalars, List.findSome?_cons, List.findSome?_nil]
      cases fault? (f s) <;> rfl
  | list ss => rw [Literal.mapM, fault?_map, fault?_mapM, Literal.scalars]

/-- Only on a select attribute can an authored value fail to take its form. -/
theorem fault?_authoredForm : fault? (authoredForm a value) =
    if a.type.hasChoices then value.scalars.findSome? (fun s => fault? (nameChoice a s))
    else none := by
  unfold authoredForm
  by_cases hnumber : a.type = .number
  · rw [if_pos hnumber, hnumber]
    rfl
  · rw [if_neg hnumber]
    split
    · exact fault?_literalMapM _ _
    · rfl

theorem fault?_authoredForm_eq_none_iff : fault? (authoredForm a value) = none ↔
    (a.type.hasChoices = true → ∀ s ∈ value.scalars, a.Offers s) := by
  rw [fault?_authoredForm]
  split
  · next select =>
    rw [List.findSome?_eq_none_iff]
    simp only [fault?_nameChoice_eq_none_iff, select, true_implies]
  · next select => simp [select]

/-- **The scalar that is named in the fault is the first one that names no choice.** -/
theorem fault?_authoredForm_eq_some_iff {e : Misconfiguration} :
    fault? (authoredForm a value) = some e ↔ a.type.hasChoices = true ∧
      ∃ before s after, value.scalars = before ++ s :: after ∧ (∀ t ∈ before, a.Offers t) ∧
        ¬ a.Offers s ∧ e = .unknownOption a.id s.asText := by
  rw [fault?_authoredForm]
  split
  · next select =>
    rw [List.findSome?_eq_some_iff]
    simp only [fault?_nameChoice_eq_none_iff, fault?_nameChoice_eq_some_iff, select, true_and]
    constructor
    · rintro ⟨before, s, after, hsplit, hs, hbefore⟩
      exact ⟨before, s, after, hsplit, hbefore, hs⟩
    · rintro ⟨before, s, after, hsplit, hbefore, hs⟩
      exact ⟨before, s, after, hsplit, hs, hbefore⟩
  · next select => simp [select]

end Values

/-! ## Checking rules -/

section Rules

variable {op : Operator} {a : Attribute} {catalog : Catalog} {r : Rule ResolvedOperand}

/-- An authored operand is at fault for its shape or else for a choice. -/
theorem fault?_validateOperand_static {value : Literal} :
    fault? (validateOperand op a (.static value)) =
      ((flaw? op a value).map fun flaw => .invalidOperand a.id op flaw).or
        (fault? (authoredForm a value)) := by
  rw [validateOperand]
  cases flaw? op a value with
  | some flaw => rfl
  | none => exact fault?_map _ _

/-- **What a booking supplied or left out is never at fault.** -/
theorem fault?_validateOperand_of_not_static {o : ResolvedOperand}
    (supplied : ∀ value, o ≠ .static value) : fault? (validateOperand op a o) = none := by
  cases o with
  | static value => exact absurd rfl (supplied value)
  | bound value ref =>
      rw [validateOperand]
      cases flaw? op a value <;> rfl
  | indeterminate ref => rfl

/-- An operand is without fault if, in case it was authored, it fits and names choices only. -/
theorem fault?_validateOperand_eq_none_iff {o : ResolvedOperand} :
    fault? (validateOperand op a o) = none ↔ ∀ value, o = .static value →
      op.Fits a value.scalars ∧
        (a.type.hasChoices = true → ∀ s ∈ value.scalars, a.Offers s) := by
  by_cases supplied : ∀ value, o ≠ .static value
  · rw [fault?_validateOperand_of_not_static supplied]
    exact iff_of_true rfl fun value h => absurd h (supplied value)
  · push Not at supplied
    obtain ⟨value, rfl⟩ := supplied
    rw [fault?_validateOperand_static, Option.or_eq_none_iff, Option.map_eq_none_iff,
      flaw?_eq_none_iff, fault?_authoredForm_eq_none_iff]
    constructor
    · rintro h value' ⟨⟩
      exact h
    · intro h
      exact h value rfl

theorem validateRule_of_defines (defined : catalog.Defines r.attributeId a) :
    validateRule catalog r = validateRuleOn a r := by
  rw [validateRule, Catalog.attribute?_eq_some_iff.2 defined]

theorem validateRuleOn_of_barred (barred : r.operator ∉ a.type.operators) :
    validateRuleOn a r = .error (.operatorNotAllowed a.id r.operator a.type) := by
  rw [validateRuleOn, if_pos]
  simpa using barred

theorem validateRuleOn_of_allowed (allowed : r.operator ∈ a.type.operators)
    (takes : r.operator.takesOperand = true) :
    fault? (validateRuleOn a r) = match r.operand with
      | none => some (.invalidOperand a.id r.operator .missing)
      | some o => fault? (validateOperand r.operator a o) := by
  rw [validateRuleOn, if_neg (by simpa using allowed), if_neg (by simp [takes])]
  cases r.operand with
  | none => rfl
  | some o => cases h : validateOperand r.operator a o <;> simp [h]

theorem validateRuleOn_of_idle (allowed : r.operator ∈ a.type.operators)
    (idle : r.operator.takesOperand = false) : validateRuleOn a r = .ok (r, []) := by
  rw [validateRuleOn, if_neg (by simpa using allowed), if_pos (by simp [idle])]

/-- A rule with an operand is validated by validating the operand. -/
theorem Query.validate_of_operand {id : String} {o : ResolvedOperand}
    (defined : catalog.Defines id a) (allowed : op ∈ a.type.operators)
    (takes : op.takesOperand = true) : (Query.rule ⟨id, op, some o⟩).validate catalog =
      (validateOperand op a o).map fun p => ⟨.rule ⟨id, op, some p.1⟩, p.2⟩ := by
  rw [validate, traverse, validateRule_of_defines defined, validateRuleOn,
    if_neg (by simpa using allowed), if_neg (by simp [takes])]
  dsimp only
  cases validateOperand op a o <;> rfl

/-- A rule about a text attribute is accepted as it is, as long as it has as many scalars as its
operator wants. -/
theorem Query.validate_static_text_eq_ok_iff {id : String} {value : Literal}
    {validation : Validation} (defined : catalog.Defines id a)
    (text : a.type = .text) (allowed : op ∈ a.type.operators) (takes : op.takesOperand = true) :
    (Query.rule ⟨id, op, some (.static value)⟩).validate catalog = .ok validation ↔
      (op.takesSet = false → value.scalars.length = 1) ∧
        validation = ⟨.rule ⟨id, op, some (.static value)⟩, []⟩ := by
  have noNumber : a.type ≠ .number := by
    rw [text]
    decide
  have noChoices : ¬ a.type.hasChoices = true := by
    rw [text]
    decide
  have hflaw : flaw? op a value = none ↔ (op.takesSet = false → value.scalars.length = 1) := by
    rw [flaw?_eq_none_iff,
      Operator.fits_iff_of_ne_number noNumber (List.contains_iff_mem.2 allowed)]
  rw [Query.validate_of_operand defined allowed takes, validateOperand, ← hflaw]
  cases flaw? op a value with
  | none =>
      simp only [authoredForm, if_neg noNumber, if_neg noChoices]
      constructor
      · rintro ⟨⟩
        exact ⟨trivial, rfl⟩
      · rintro ⟨-, rfl⟩
        rfl
  | some flaw =>
      constructor
      · rintro ⟨⟩
      · rintro ⟨⟨⟩, -⟩

/-- What validation finds wrong with an operand is an offence of its rule. -/
theorem Rule.offends_of_operand {e : Misconfiguration} (defined : catalog.Defines r.attributeId a)
    (allowed : r.operator ∈ a.type.operators) (takes : r.operator.takesOperand = true)
    (h : (match r.operand with
      | none => some (.invalidOperand r.attributeId r.operator .missing)
      | some o => fault? (validateOperand r.operator a o)) = some e) :
    r.Offends catalog e := by
  cases ho : r.operand with
  | none =>
      rw [ho] at h
      cases h
      exact .missing defined allowed takes ho
  | some o =>
      rw [ho] at h
      dsimp only at h
      by_cases supplied : ∀ value, o ≠ .static value
      · rw [fault?_validateOperand_of_not_static supplied] at h
        cases h
      · push Not at supplied
        obtain ⟨value, rfl⟩ := supplied
        rw [fault?_validateOperand_static] at h
        cases hflaw : flaw? r.operator a value with
        | some flaw =>
            rw [hflaw, Option.map_some, Option.some_or, defined.id_eq] at h
            cases h
            exact .shape defined allowed takes ho (flaw?_eq_some_iff.1 hflaw)
        | none =>
            rw [hflaw, Option.map_none, Option.none_or, fault?_authoredForm_eq_some_iff,
              defined.id_eq] at h
            obtain ⟨select, before, s, after, scalars, offered, unknown, rfl⟩ := h
            exact .choice defined allowed takes ho (flaw?_eq_none_iff.1 hflaw) select scalars
              offered unknown

/-- **A rule is at fault for the first check that it fails.** -/
theorem Rule.offends_iff {e : Misconfiguration} :
    r.Offends catalog e ↔ fault? (validateRule catalog r) = some e := by
  constructor
  · rintro (undefined | ⟨defined, barred⟩ | ⟨defined, allowed, takes, absent⟩ |
      ⟨defined, allowed, takes, authored, rejected⟩ |
      ⟨defined, allowed, takes, authored, fits, select, scalars, offered, unknown⟩)
    · rw [validateRule, Catalog.attribute?_eq_none_iff.2 undefined, fault?_error]
    · rw [validateRule_of_defines defined, validateRuleOn_of_barred barred, fault?_error,
        defined.id_eq]
    · rw [validateRule_of_defines defined, validateRuleOn_of_allowed allowed takes, absent,
        defined.id_eq]
    · rw [validateRule_of_defines defined, validateRuleOn_of_allowed allowed takes, authored]
      simp only [fault?_validateOperand_static, flaw?_eq_some_iff.2 rejected, Option.map_some,
        Option.some_or, defined.id_eq]
    · rw [validateRule_of_defines defined, validateRuleOn_of_allowed allowed takes, authored]
      simp only [fault?_validateOperand_static, flaw?_eq_none_iff.2 fits, Option.map_none,
        Option.none_or]
      rw [fault?_authoredForm_eq_some_iff, defined.id_eq]
      exact ⟨select, _, _, _, scalars, offered, unknown, rfl⟩
  · intro h
    cases ha : catalog.attribute? r.attributeId with
    | none =>
        rw [validateRule, ha, fault?_error] at h
        cases h
        exact .attribute (Catalog.attribute?_eq_none_iff.1 ha)
    | some a =>
        have defined := Catalog.attribute?_eq_some_iff.1 ha
        rw [validateRule_of_defines defined] at h
        by_cases allowed : r.operator ∈ a.type.operators
        · cases takes : r.operator.takesOperand with
          | false =>
              rw [validateRuleOn_of_idle allowed takes] at h
              cases h
          | true =>
              rw [validateRuleOn_of_allowed allowed takes, defined.id_eq] at h
              exact offends_of_operand defined allowed takes h
        · rw [validateRuleOn_of_barred allowed, fault?_error, defined.id_eq] at h
          cases h
          exact .operator defined allowed

/-- **A rule without fault is an acceptable one.** -/
theorem Rule.acceptable_iff : r.Acceptable catalog ↔ fault? (validateRule catalog r) = none := by
  constructor
  · rintro ⟨a, defined, acceptable⟩
    rw [validateRule_of_defines defined]
    cases takes : r.operator.takesOperand with
    | false => rw [validateRuleOn_of_idle acceptable.operator takes, fault?_ok]
    | true =>
        obtain ⟨o, ho⟩ := acceptable.present takes
        rw [validateRuleOn_of_allowed acceptable.operator takes, ho]
        refine fault?_validateOperand_eq_none_iff.2 fun value authored => ?_
        rw [authored] at ho
        exact ⟨acceptable.shape takes value ho, acceptable.choices takes value ho⟩
  · intro h
    cases ha : catalog.attribute? r.attributeId with
    | none =>
        rw [validateRule, ha] at h
        cases h
    | some a =>
        have defined := Catalog.attribute?_eq_some_iff.1 ha
        rw [validateRule_of_defines defined] at h
        refine ⟨a, defined, ?_⟩
        by_cases allowed : r.operator ∈ a.type.operators
        · have hoperand : r.operator.takesOperand = true → ∃ o, r.operand = some o ∧
              fault? (validateOperand r.operator a o) = none := by
            intro takes
            rw [validateRuleOn_of_allowed allowed takes] at h
            cases ho : r.operand with
            | none =>
                rw [ho] at h
                cases h
            | some o =>
                rw [ho] at h
                exact ⟨o, rfl, h⟩
          have hstatic : r.operator.takesOperand = true → ∀ value,
              r.operand = some (.static value) → r.operator.Fits a value.scalars ∧
                (a.type.hasChoices = true → ∀ s ∈ value.scalars, a.Offers s) := by
            intro takes value authored
            obtain ⟨o, ho, hnone⟩ := hoperand takes
            obtain rfl := Option.some.inj (ho.symm.trans authored)
            exact fault?_validateOperand_eq_none_iff.1 hnone value rfl
          exact ⟨allowed, fun takes => (hoperand takes).imp fun o ho => ho.1,
            fun takes value authored => (hstatic takes value authored).1,
            fun takes value authored => (hstatic takes value authored).2⟩
        · rw [validateRuleOn_of_barred allowed] at h
          cases h

end Rules

/-! ## What was authored -/

/-- The authored value of an operand, if it was authored. -/
def ResolvedOperand.literal? : ResolvedOperand → Option Literal
  | static value => some value
  | bound _ _ => none
  | indeterminate _ => none

/-- A rule with its authored value only: whether the operand is missing still shows, but not what
a booking supplied for it. -/
def Rule.authored (r : Rule ResolvedOperand) : Rule (Option Literal) :=
  ⟨r.attributeId, r.operator, r.operand.map ResolvedOperand.literal?⟩

theorem fault?_validateOperand_eq_of_literal? {op : Operator} {a : Attribute}
    {o o' : ResolvedOperand} (h : o.literal? = o'.literal?) :
    fault? (validateOperand op a o) = fault? (validateOperand op a o') := by
  have hnone : ∀ {o : ResolvedOperand}, o.literal? = none →
      fault? (validateOperand op a o) = none := by
    intro o ho
    refine fault?_validateOperand_of_not_static fun value hvalue => ?_
    rw [hvalue] at ho
    cases ho
  cases o with
  | static value =>
      cases o' with
      | static value' =>
          cases h
          rfl
      | bound value' ref => cases h
      | indeterminate ref => cases h
  | bound value ref => rw [hnone rfl, hnone h.symm]
  | indeterminate ref => rw [hnone rfl, hnone h.symm]

/-- What validation finds wrong with a rule depends on what was authored alone. -/
theorem fault?_validateRule_eq_of_authored {catalog : Catalog} {r s : Rule ResolvedOperand}
    (h : r.authored = s.authored) :
    fault? (validateRule catalog r) = fault? (validateRule catalog s) := by
  obtain ⟨attributeId, op, operand⟩ := r
  obtain ⟨attributeId', op', operand'⟩ := s
  simp only [Rule.authored, Rule.mk.injEq] at h
  obtain ⟨rfl, rfl, h⟩ := h
  unfold validateRule
  dsimp only
  cases catalog.attribute? attributeId with
  | none => rfl
  | some a =>
      cases operand with
      | none =>
          rw [Option.map_none, eq_comm, Option.map_eq_none_iff] at h
          rw [h]
      | some o =>
          rw [Option.map_some, eq_comm, Option.map_eq_some_iff] at h
          obtain ⟨o', rfl, ho⟩ := h
          exact fault?_validateRuleOn_congr (fault?_validateOperand_eq_of_literal? ho.symm)

theorem findSome?_eq_of_map_eq {α β γ : Type} {g : α → β} {f : α → Option γ}
    (hf : ∀ {x y}, g x = g y → f x = f y) {xs ys : List α} (h : xs.map g = ys.map g) :
    xs.findSome? f = ys.findSome? f := by
  induction xs generalizing ys with
  | nil =>
      rw [List.map_nil, eq_comm, List.map_eq_nil_iff] at h
      rw [h]
  | cons x xs ih =>
      rw [List.map_cons, eq_comm, List.map_eq_cons_iff] at h
      obtain ⟨y, ys', rfl, hy, hys⟩ := h
      rw [List.findSome?_cons, List.findSome?_cons, hf hy.symm, ih hys.symm]

/-! ## Trees -/

namespace Query

variable {catalog : Catalog} {tree : Query ResolvedOperand}

theorem validate_ok_iff_acceptable :
    (∃ validation, tree.validate catalog = .ok validation) ↔
      ∀ r ∈ tree.rules, r.Acceptable catalog := by
  rw [← fault?_eq_none_iff, fault?_validate, List.findSome?_eq_none_iff]
  simp only [Rule.acceptable_iff]

theorem validate_error_iff_offends {e : Misconfiguration} : tree.validate catalog = .error e ↔
    ∃ before r after, tree.rules = before ++ r :: after ∧
      (∀ s ∈ before, s.Acceptable catalog) ∧ r.Offends catalog e := by
  rw [← fault?_eq_some_iff, fault?_validate, List.findSome?_eq_some_iff]
  simp only [Rule.acceptable_iff, Rule.offends_iff]
  constructor
  · rintro ⟨before, r, after, hsplit, hr, hbefore⟩
    exact ⟨before, r, after, hsplit, hbefore, hr⟩
  · rintro ⟨before, r, after, hsplit, hbefore, hr⟩
    exact ⟨before, r, after, hsplit, hr, hbefore⟩

theorem fault?_validate_eq_of_authored {tree' : Query ResolvedOperand}
    (h : tree'.mapOperands ResolvedOperand.literal? = tree.mapOperands ResolvedOperand.literal?) :
    fault? (tree'.validate catalog) = fault? (tree.validate catalog) := by
  have hrules : tree'.rules.map Rule.authored = tree.rules.map Rule.authored := by
    rw [← rules_mapRules, ← rules_mapRules]
    exact congrArg rules h
  rw [fault?_validate, fault?_validate]
  exact findSome?_eq_of_map_eq fault?_validateRule_eq_of_authored hrules

/-- **Validation accepts exactly the well-formed trees and reports the first offence.**  A tree is
accepted if all its rules are acceptable.  Otherwise the fault is that of the first rule in document
order that is not, for the first check that it fails.  And whatever a booking supplied or left out
is never the cause: trees that differ in that alone have the same fault or none. -/
theorem validate_first_offence (catalog : Catalog) (tree : Query ResolvedOperand) :
    ((∃ validation, tree.validate catalog = .ok validation) ↔
        ∀ r ∈ tree.rules, r.Acceptable catalog) ∧
      (∀ e, tree.validate catalog = .error e ↔
        ∃ before r after, tree.rules = before ++ r :: after ∧
          (∀ s ∈ before, s.Acceptable catalog) ∧ ¬ r.Acceptable catalog ∧ r.Offends catalog e) ∧
      ∀ tree' : Query ResolvedOperand,
        tree'.mapOperands ResolvedOperand.literal? = tree.mapOperands ResolvedOperand.literal? →
        ∀ e, tree'.validate catalog = .error e ↔ tree.validate catalog = .error e := by
  refine ⟨validate_ok_iff_acceptable, fun e => ?_, fun tree' same e => ?_⟩
  · rw [validate_error_iff_offends]
    have hnot : ∀ {r : Rule ResolvedOperand}, r.Offends catalog e → ¬ r.Acceptable catalog := by
      intro r offends acceptable
      rw [Rule.offends_iff, Rule.acceptable_iff.1 acceptable] at offends
      cases offends
    constructor
    · rintro ⟨before, r, after, hsplit, hbefore, hr⟩
      exact ⟨before, r, after, hsplit, hbefore, hnot hr, hr⟩
    · rintro ⟨before, r, after, hsplit, hbefore, -, hr⟩
      exact ⟨before, r, after, hsplit, hbefore, hr⟩
  · rw [← fault?_eq_some_iff, ← fault?_eq_some_iff, fault?_validate_eq_of_authored same]

/-- The operator is judged before the missing operand, and the first rule before the second, which
is about no attribute at all. -/
example : (Query.group .or [.group .and [.rule ⟨"region", .greaterThan, none⟩],
      .rule ⟨"nowhere", .equals, some (.indeterminate ⟨"field", "x"⟩)⟩]).validate
    ⟨"team", "org", [⟨"region", "Region", .text, []⟩], []⟩
    = .error (.operatorNotAllowed "region" .greaterThan .text) := rfl

end Query

end TeamRouting
