import TeamRouting.Proofs.SettledRules

/-!
# What operands on number attributes become

Validation accepts an operand on a number attribute if all its scalars read as floats.  Then it
turns the texts among them into numbers, and reads them once more to do so: first as whole numbers
of 64 bits, then as floats that are finite.  So there is a gap between the two readings.  A text
that reads as `nan` or as an infinity is accepted, and stays a text.  Everything else is a number
afterwards, and is compared as one.

* `Scalar.IsNumeral`, `Scalar.IsNonFinite` — the numbers, and the texts in the gap;
* `Scalar.Becomes`, `Scalar.becomes_iff` — what each scalar turns into, and that it does;
* `Scalar.matches_intoNumeric_iff` — a scalar that is compared as the number that it was written as;
* `Query.validate_numbers` — all of it for the rules of a tree;
* `Query.validate_infinity_stays` — a text in the gap, which is compared as a text.
-/

namespace TeamRouting

/-! ## Scalars -/

namespace Scalar

/-- The scalars that are compared as numbers. -/
inductive IsNumeral : Scalar → Prop
  | integer (n : Int64) : IsNumeral (.integer n)
  | number (x : Float) : IsNumeral (.number x)

/-- The texts that read as floats but as no finite ones: `nan`, `inf`, `infinity` with or without a
sign, and numerals that are out of range. -/
def IsNonFinite (s : Scalar) : Prop :=
  ∃ t x, s = .text t ∧ Decimal.readTrimmed? t = some x ∧ x.isFinite = false

/-- What a scalar that reads as a float turns into on a number attribute.  A text becomes a whole
number if it is one of 64 bits, else the float that it reads as, unless that is not finite. -/
inductive Becomes : Scalar → Scalar → Prop
  | integer (n : Int64) : Becomes (.integer n) (.integer n)
  | number (x : Float) : Becomes (.number x) (.number x)
  | whole {s : String} {n : Int64} (reads : Text.int64? (Text.trimChars s.toList) = some n) :
      Becomes (.text s) (.integer n)
  | finite {s : String} {x : Float} (noInteger : Text.int64? (Text.trimChars s.toList) = none)
      (reads : Decimal.readTrimmed? s = some x) (isFinite : x.isFinite = true) :
      Becomes (.text s) (.number x)
  | nonFinite {s : String} {x : Float} (reads : Decimal.readTrimmed? s = some x)
      (isFinite : x.isFinite = false) : Becomes (.text s) (.text s)

variable {s t : Scalar} {x : Float} {value : String}

theorem Becomes.isNumeral_or (h : s.Becomes t) : t.IsNumeral ∨ t.IsNonFinite := by
  cases h with
  | integer n => exact Or.inl (.integer n)
  | number x => exact Or.inl (.number x)
  | whole _ => exact Or.inl (.integer _)
  | finite _ _ _ => exact Or.inl (.number _)
  | nonFinite reads isFinite => exact Or.inr ⟨_, _, rfl, reads, isFinite⟩

theorem numeric?_of_int64? {s : String} {n : Int64}
    (h : Text.int64? (Text.trimChars s.toList) = some n) : numeric? s = some (integer n) := by
  rw [numeric?, h]
  rfl

theorem numeric?_of_noInteger {s : String} (h : Text.int64? (Text.trimChars s.toList) = none) :
    numeric? s = ((Decimal.readTrimmed? s).filter Float.isFinite).map number := by
  rw [numeric?, h]
  rfl

theorem numeric?_of_nonFinite {s : String} (reads : Decimal.readTrimmed? s = some x)
    (isFinite : x.isFinite = false) : numeric? s = none := by
  refine numeric?_of_not_read fun y hy => ?_
  cases reads.symm.trans hy
  exact isFinite

/-- **What a scalar turns into.** -/
theorem becomes_iff (reads : s.asNumber = some x) : s.Becomes t ↔ t = s.intoNumeric := by
  constructor
  · intro h
    cases h with
    | integer n => rfl
    | number x => rfl
    | whole h => rw [intoNumeric, numeric?_of_int64? h, Option.getD_some]
    | finite noInteger h isFinite =>
        rw [intoNumeric, numeric?_of_noInteger noInteger, h, Option.filter_some_pos isFinite,
          Option.map_some, Option.getD_some]
    | nonFinite h isFinite => rw [intoNumeric, numeric?_of_nonFinite h isFinite, Option.getD_none]
  · rintro rfl
    cases s with
    | integer n => exact .integer n
    | number x => exact .number x
    | text s =>
        rw [intoNumeric]
        cases hinteger : Text.int64? (Text.trimChars s.toList) with
        | some n =>
            rw [numeric?_of_int64? hinteger]
            exact .whole hinteger
        | none =>
            cases hfinite : x.isFinite with
            | true =>
                rw [numeric?_of_noInteger hinteger, show Decimal.readTrimmed? s = some x from reads,
                  Option.filter_some_pos hfinite]
                exact .finite hinteger reads hfinite
            | false =>
                rw [numeric?_of_nonFinite reads hfinite]
                exact .nonFinite reads hfinite

/-- **Comparison as numbers.**  Outside the gap, a value matches what a scalar turns into just when
it reads as nearly the number that the scalar read as before. -/
theorem matches_intoNumeric_iff (reads : s.asNumber = some x) (finite : ¬ s.IsNonFinite) :
    s.intoNumeric.Matches value ↔
      ∃ y, Decimal.readTrimmed? value = some y ∧ nearlyEqual y x = true := by
  rw [← s.asFinite_alike.matches_iff]
  cases s with
  | integer n =>
      cases reads
      rfl
  | number x =>
      cases reads
      rfl
  | text s =>
      have hfinite : x.isFinite = true := by
        by_contra hx
        exact finite ⟨s, x, rfl, reads, Bool.eq_false_iff.2 hx⟩
      rw [asFinite, show Decimal.readTrimmed? s = some x from reads, Option.filter_some_pos hfinite]
      rfl

end Scalar

/-! ## Operands and rules -/

section Rules

variable {catalog : Catalog} {a : Attribute} {op : Operator} {value : Literal}

/-- A value that is left on a number attribute comes from one that fits, scalar by scalar. -/
theorem ValidatesTo.exists_numbers {o form : ResolvedOperand} {misfits : List Misfit}
    (h : ValidatesTo op a o form misfits) (number : a.type = .number)
    (hvalue : form.value? = some value) :
    ∃ original, o.value? = some original ∧ op.Fits a original.scalars ∧
      value.scalars = original.scalars.map Scalar.intoNumeric := by
  have hscalars : ∀ original : Literal,
      (suppliedForm a original).scalars = original.scalars.map Scalar.intoNumeric := by
    intro original
    rw [suppliedForm, if_pos number, Literal.scalars_map]
  cases h with
  | static fits hform =>
      cases hvalue
      refine ⟨_, rfl, flaw?_eq_none_iff.1 fits, ?_⟩
      rw [form_eq_suppliedForm hform, hscalars]
  | bound ref fits =>
      cases hvalue
      exact ⟨_, rfl, flaw?_eq_none_iff.1 fits, hscalars _⟩
  | misfit ref hflaw => cases hvalue
  | indeterminate ref => cases hvalue

/-- What validation has made of a rule on a number attribute. -/
theorem Rule.exists_numbers_of_validateRule {r validated : Rule ResolvedOperand}
    {misfits : List Misfit} (h : validateRule catalog r = .ok (validated, misfits))
    (defined : catalog.Defines r.attributeId a) (number : a.type = .number)
    (takes : r.operator.takesOperand = true)
    (hvalue : validated.operand.bind ResolvedOperand.value? = some value) :
    ∃ original, r.operand.bind ResolvedOperand.value? = some original ∧
      r.operator.Fits a original.scalars ∧
      value.scalars = original.scalars.map Scalar.intoNumeric := by
  obtain ⟨-, -, a', ha', -, hcases⟩ := validateRule_cases h
  obtain rfl : a' = a := (Catalog.attribute?_eq_some_iff.1 ha').unique defined
  obtain idle | ⟨-, o, form, ho, hform, hv⟩ := hcases
  · rw [takes] at idle
    cases idle
  · rw [hform, Option.bind_some] at hvalue
    rw [ho, Option.bind_some]
    exact (validatesTo_of_ok hv).exists_numbers number hvalue

/-- A rule that asks for a number, or for any other, compares numbers. -/
theorem Rule.verdict_equality_iff {r : Rule ResolvedOperand} {s : Scalar} {x : Float}
    (hop : r.operator = .equals ∨ r.operator = .notEquals)
    (hvalue : r.operand.bind ResolvedOperand.value? = some value)
    (hscalars : value.scalars = [s.intoNumeric]) (reads : s.asNumber = some x)
    (finite : ¬ s.IsNonFinite) (values : List String) :
    (r.verdict values).holds = true ↔ (r.operator = .equals ↔
      ∃ v ∈ values, ∃ y, Decimal.readTrimmed? v = some y ∧ nearlyEqual y x = true) := by
  have takes : r.operator.takesOperand = true := by
    rcases hop with hop | hop <;> rw [hop] <;> rfl
  have hholds : (r.verdict values).holds = true ↔
      r.operator.Compares values [s.intoNumeric] := by
    rw [Rule.verdict_holds_iff takes, hvalue]
    simp [hscalars]
  rw [hholds]
  simp only [← Scalar.matches_intoNumeric_iff reads finite]
  rcases hop with hop | hop <;> rw [hop] <;> simp [Operator.Compares]

end Rules

/-! ## Trees -/

namespace Query

variable {catalog : Catalog} {tree : Query ResolvedOperand} {validation : Validation}

/-- **Operands on number attributes are numbers, but for the texts in the gap.**  Let a tree be
accepted.  Wherever a rule on a number attribute is left with a value, that comes from the value
before, scalar by scalar, and each scalar is a number by now or a text that reads as no finite one.
A rule that asks for the value, or for any other, has a single scalar.  Unless that is such a text,
it compares the values of a member as numbers with the number that the scalar read as before. -/
theorem validate_numbers (accepted : tree.validate catalog = .ok validation) :
    ∃ g, validation.tree = tree.mapRules g ∧
      ∀ r ∈ tree.rules, ∀ a, catalog.Defines r.attributeId a → a.type = .number →
        r.operator.takesOperand = true →
        ∀ value, (g r).operand.bind ResolvedOperand.value? = some value →
          ∃ original, r.operand.bind ResolvedOperand.value? = some original ∧
            List.Forall₂ Scalar.Becomes original.scalars value.scalars ∧
            (∀ t ∈ value.scalars, t.IsNumeral ∨ t.IsNonFinite) ∧
            (r.operator = .equals ∨ r.operator = .notEquals →
              ∃ s x, original.scalars = [s] ∧ s.asNumber = some x ∧
                (¬ s.IsNonFinite → ∀ values, ((g r).verdict values).holds = true ↔
                  (r.operator = .equals ↔ ∃ v ∈ values, ∃ y, Decimal.readTrimmed? v = some y ∧
                    nearlyEqual y x = true))) := by
  obtain ⟨g, notes, hstep, hp⟩ := exists_of_traverse_ok (validate_eq_ok_iff.1 accepted)
  refine ⟨g, congrArg Prod.fst hp, fun r hr a defined number takes value hvalue => ?_⟩
  obtain ⟨original, horiginal, fits, hscalars⟩ :=
    Rule.exists_numbers_of_validateRule (hstep r hr) defined number takes hvalue
  have reads : ∀ s ∈ original.scalars, ∃ x, s.asNumber = some x := fits.numeric (Or.inr number)
  have becomes : ∀ s ∈ original.scalars, s.Becomes s.intoNumeric := by
    intro s hs
    obtain ⟨x, hx⟩ := reads s hs
    exact (Scalar.becomes_iff hx).2 rfl
  refine ⟨original, horiginal, ?_, ?_, ?_⟩
  · rw [hscalars, List.forall₂_map_right_iff, List.forall₂_same]
    exact becomes
  · rw [hscalars]
    intro t ht
    obtain ⟨s, hs, rfl⟩ := List.mem_map.1 ht
    exact (becomes s hs).isNumeral_or
  · intro hop
    have single : r.operator.takesSet = false := by
      rcases hop with hop | hop <;> rw [hop] <;> rfl
    obtain ⟨s, hs⟩ := List.length_eq_one_iff.1 (fits.single single)
    rw [hs] at hscalars reads
    obtain ⟨x, hx⟩ := reads s (List.mem_singleton_self s)
    refine ⟨s, x, hs, hx, fun finite values => ?_⟩
    have hsame : (g r).operator = r.operator := (validateRule_cases (hstep r hr)).2.1
    rw [← hsame] at hop ⊢
    exact Rule.verdict_equality_iff hop hvalue hscalars hx finite values

/-- A numeral with blanks around it, bound to a reference: members with a number other than five. -/
theorem validate_numbers_of_numeral :
    ∃ (r : Rule ResolvedOperand) (validation : Validation) (validated : Rule ResolvedOperand),
      r = ⟨"level", .notEquals, some (.bound (.single (.text " 5.0 ")) ⟨formSource, "level"⟩)⟩ ∧
      (Query.rule r).validate ⟨"team", "org", [⟨"level", "Level", .number, []⟩], []⟩
        = .ok validation ∧
      validation.tree = .rule validated ∧
      ∀ values, (validated.verdict values).holds = true ↔
        ¬ ∃ v ∈ values, ∃ y, Decimal.readTrimmed? v = some y ∧ nearlyEqual y 5 = true := by
  have reads : Decimal.readTrimmed? " 5.0 " = some 5 := by decide
  have accepted : (Query.rule
      ⟨"level", .notEquals, some (.bound (.single (.text " 5.0 ")) ⟨formSource, "level"⟩)⟩).validate
        ⟨"team", "org", [⟨"level", "Level", .number, []⟩], []⟩
      = .ok ⟨.rule ⟨"level", .notEquals, some (.bound (.single (.number 5)) ⟨formSource, "level"⟩)⟩,
          []⟩ := rfl
  refine ⟨_, _, _, rfl, accepted, rfl, ?_⟩
  obtain ⟨g, htree, hnumbers⟩ := validate_numbers accepted
  obtain ⟨original, horiginal, -, -, hequality⟩ := hnumbers _ (List.mem_singleton_self _)
    ⟨"level", "Level", .number, []⟩ (Catalog.attribute?_eq_some_iff.1 rfl) rfl rfl
    (.single (.number 5)) (by rw [← Query.rule.inj htree]; rfl)
  cases horiginal
  obtain ⟨s, x, hs, hx, hverdict⟩ := hequality (Or.inr rfl)
  cases hs
  cases reads.symm.trans hx
  have finite : ¬ (Scalar.text " 5.0 ").IsNonFinite := by
    rintro ⟨t, y, ⟨⟩, hy, isFinite⟩
    cases reads.symm.trans hy
    exact absurd isFinite (by decide)
  intro values
  rw [Query.rule.inj htree, hverdict finite values]
  simp

/-- **A text in the gap.**  An infinity is accepted on a number attribute and stays a text.  It is
compared as one: it matches an infinity in other letters, which as a number it would not. -/
theorem validate_infinity_stays :
    ∃ r : Rule ResolvedOperand,
      r = ⟨"level", .equals, some (.static (.single (.text "inf")))⟩ ∧
      (Query.rule r).validate ⟨"team", "org", [⟨"level", "Level", .number, []⟩], []⟩
        = .ok ⟨.rule r, []⟩ ∧
      ((Query.rule r).evaluate ((∅ : MemberValues).insert "level" ["INF"]) {}).1 = true ∧
      ¬ (Scalar.number Decimal.infinity).Matches "INF" := by
  refine ⟨_, rfl, rfl, by decide, ?_⟩
  rw [← equalsScalar_iff]
  decide

end Query

end TeamRouting
