import TeamRouting.Proofs.Meaning
import TeamRouting.Proofs.Preparation

/-!
# Preparation preserves meaning

Resolution puts the answers of a booking into a tree, validation brings all values to the form in
which they are compared, and evaluation goes through the outcome only as far as needed.  Together
they answer what the authored tree says.

* `flaw?_eq_none_iff` — a value is without flaw exactly if it fits;
* `Scalar.Alike`, `Operator.compares_map_congr` — numbers may be written in two ways, and no
  operator tells them apart;
* `form_eq_suppliedForm` — authored and supplied values take the same form;
* `Rule.verdict_iff_means` — one rule, prepared and evaluated, holds if it means so;
* `Strategy.evaluate_iff_means` — and so does a tree.
-/

namespace TeamRouting

/-! ## Shapes -/

/-- **A value is without flaw exactly if it fits.** -/
theorem flaw?_eq_none_iff {op : Operator} {a : Attribute} {value : Literal} :
    flaw? op a value = none ↔ op.Fits a value.scalars := by
  have hnumeric : (value.scalars.all fun s => s.asNumber.isSome) = true ↔
      ∀ s ∈ value.scalars, ∃ x, s.asNumber = some x := by
    rw [List.all_eq_true]
    simp only [Option.isSome_iff_exists]
  have hfits : op.Fits a value.scalars ↔ (op = .between → value.scalars.length = 2) ∧
      (op.takesSet = false → value.scalars.length = 1) ∧
      (op.isNumeric = true ∨ a.type = .number →
        (value.scalars.all fun s => s.asNumber.isSome) = true) := by
    rw [hnumeric]
    exact ⟨fun h => ⟨h.bounds, h.single, h.numeric⟩, fun h => ⟨h.1, h.2.1, h.2.2⟩⟩
  rw [hfits]
  unfold flaw?
  dsimp only
  generalize (value.scalars.all fun s => s.asNumber.isSome) = numeric
  generalize value.scalars.length = n
  by_cases hbetween : op = .between
  · subst hbetween
    simp [Operator.takesSet, Operator.isNumeric]
  · rw [if_neg hbetween]
    split
    · next h =>
      simp only [Bool.and_eq_true, Bool.not_eq_true', bne_iff_ne] at h
      simp [h]
    · next hsingle =>
      simp only [Bool.and_eq_true, Bool.not_eq_true', bne_iff_ne, not_and_not_right] at hsingle
      simpa [hbetween] using fun _ => hsingle

/-- Numbers alone are compared by size. -/
theorem number_of_isNumeric {op : Operator} {a : Attribute} (h : op.isNumeric = true)
    (allowed : a.type.operators.contains op = true) : a.type = .number := by
  revert allowed h
  cases a.type <;> cases op <;> decide

theorem AttributeType.ne_number_of_hasChoices {t : AttributeType} (h : t.hasChoices = true) :
    t ≠ .number := by
  rintro rfl
  cases h

/-- Where no numbers are wanted, only how many scalars there are matters. -/
theorem Operator.fits_iff_of_ne_number {op : Operator} {a : Attribute} {scalars : List Scalar}
    (noNumber : a.type ≠ .number) (allowed : a.type.operators.contains op = true) :
    op.Fits a scalars ↔ (op.takesSet = false → scalars.length = 1) := by
  have noSize : op.isNumeric ≠ true := fun numeric => noNumber (number_of_isNumeric numeric allowed)
  refine ⟨fun fits => fits.single, fun single => ⟨?_, single, ?_⟩⟩
  · rintro rfl
    exact absurd rfl noSize
  · rintro (numeric | number)
    · exact absurd numeric noSize
    · exact absurd number noNumber

/-! ## Two ways to write a number -/

/-- Scalars that are the same, or the same number with and without a fraction. -/
inductive Scalar.Alike : Scalar → Scalar → Prop
  | refl (s : Scalar) : Alike s s
  | number {x : Float} {n : Int64} (same : Decimal.SameNumber x (Decimal.ofInt n.toInt)) :
      Alike (.number x) (.integer n)

namespace Scalar.Alike

variable {s t : Scalar}

theorem matches_iff (h : Alike s t) (value : String) : s.Matches value ↔ t.Matches value := by
  cases h with
  | refl => rfl
  | number same => simp only [Scalar.Matches, same.nearlyEqual_right]

/-- A comparison that does not tell the two zeros apart does not tell alike scalars apart. -/
theorem exists_asNumber_iff {test : Float → Prop}
    (htest : ∀ {x y}, Decimal.SameNumber x y → (test x ↔ test y)) (h : Alike s t) :
    (∃ y, s.asNumber = some y ∧ test y) ↔ ∃ y, t.asNumber = some y ∧ test y := by
  cases h with
  | refl => rfl
  | number same => simp [Scalar.asNumber, htest same]

end Scalar.Alike

/-- A list of replaced scalars is a single one if the list before was. -/
theorem exists_map_eq_singleton {f : Scalar → Scalar} {φ : Scalar → Prop} {scalars : List Scalar} :
    (∃ t, scalars.map f = [t] ∧ φ t) ↔ ∃ s, scalars = [s] ∧ φ (f s) := by
  rcases scalars with _ | ⟨s, _ | ⟨s', rest⟩⟩ <;> simp

/-- Two ways to replace scalars are the same to a test of a single one if they are so to the test
of each. -/
theorem exists_map_eq_singleton_congr {f g : Scalar → Scalar} {φ : Scalar → Prop}
    {scalars : List Scalar} (h : ∀ s ∈ scalars, (φ (f s) ↔ φ (g s))) :
    (∃ t, scalars.map f = [t] ∧ φ t) ↔ ∃ t, scalars.map g = [t] ∧ φ t := by
  rw [exists_map_eq_singleton, exists_map_eq_singleton]
  refine exists_congr fun s => and_congr_right ?_
  rintro rfl
  exact h s (List.mem_singleton_self s)

theorem exists_map_eq_pair {f : Scalar → Scalar} {φ : Scalar → Scalar → Prop}
    {scalars : List Scalar} :
    (∃ s t, scalars.map f = [s, t] ∧ φ s t) ↔ ∃ s t, scalars = [s, t] ∧ φ (f s) (f t) := by
  rcases scalars with _ | ⟨s, _ | ⟨t, _ | ⟨t', rest⟩⟩⟩ <;> simp

/-- **No operator tells alike scalars apart**, but for the one that looks at their text. -/
theorem Operator.compares_map_congr {op : Operator} {values : List String}
    {scalars : List Scalar} {f g : Scalar → Scalar} (h : ∀ s ∈ scalars, (f s).Alike (g s))
    (hop : op ≠ .contains) :
    op.Compares values (scalars.map f) ↔ op.Compares values (scalars.map g) := by
  have hmatches : ∀ s ∈ scalars, (∃ v ∈ values, (f s).Matches v) ↔ ∃ v ∈ values, (g s).Matches v :=
    fun s hs => exists_congr fun v => and_congr_right fun _ => (h s hs).matches_iff v
  have hnumber : ∀ {test : Float → Float → Prop},
      (∀ z {x y}, Decimal.SameNumber x y → (test z x ↔ test z y)) →
      ((∃ x, IsNumber values x ∧ ∃ s, scalars.map f = [s] ∧ ∃ y, s.asNumber = some y ∧ test x y) ↔
        ∃ x, IsNumber values x ∧
          ∃ s, scalars.map g = [s] ∧ ∃ y, s.asNumber = some y ∧ test x y) := by
    intro test htest
    refine exists_congr fun x => and_congr_right fun _ => ?_
    exact exists_map_eq_singleton_congr fun s hs => (h s hs).exists_asNumber_iff (htest x)
  cases op with
  | equals => exact exists_map_eq_singleton_congr hmatches
  | notEquals => exact exists_map_eq_singleton_congr fun s hs => not_congr (hmatches s hs)
  | anyIn =>
      simp only [Operator.Compares, List.mem_map, exists_exists_and_eq_and]
      exact exists_congr fun s => and_congr_right (hmatches s)
  | noneIn =>
      simp only [Operator.Compares, List.mem_map, exists_exists_and_eq_and]
      exact not_congr (exists_congr fun s => and_congr_right (hmatches s))
  | allIn =>
      simp only [Operator.Compares, List.forall_mem_map, ne_eq, List.map_eq_nil_iff]
      exact and_congr_right fun _ => forall₂_congr hmatches
  | isEmpty => rfl
  | isNotEmpty => rfl
  | contains => exact absurd rfl hop
  | greaterThan => exact hnumber fun z _ _ same => same.lt_left z
  | greaterThanOrEqual => exact hnumber fun z _ _ same => same.le_left z
  | lessThan => exact hnumber fun z _ _ same => same.lt_right z
  | lessThanOrEqual => exact hnumber fun z _ _ same => same.le_right z
  | between =>
      simp only [Operator.Compares, exists_map_eq_pair]
      refine exists_congr fun x => and_congr_right fun _ => exists_congr fun s =>
        exists_congr fun t => and_congr_right ?_
      rintro rfl
      refine and_congr ?_ ?_
      · exact (h s (by simp)).exists_asNumber_iff fun same => same.le_left x
      · exact (h t (by simp)).exists_asNumber_iff fun same => same.le_right x

/-! ## The form of values -/

theorem Literal.scalars_map (f : Scalar → Scalar) (value : Literal) :
    (value.map f).scalars = value.scalars.map f := by
  cases value <;> rfl

/-- A list of steps that succeed gives the list of their results. -/
theorem eq_map_of_mapM_eq_ok {α β ε : Type} {f : α → Except ε β} {g : α → β}
    (hf : ∀ {x y}, f x = .ok y → y = g x) {xs : List α} {ys : List β} (h : xs.mapM f = .ok ys) :
    ys = xs.map g := by
  induction xs generalizing ys with
  | nil =>
      rw [List.mapM_nil] at h
      cases h
      rfl
  | cons x xs ih =>
      rw [List.mapM_cons] at h
      cases hx : f x with
      | error e =>
          rw [hx] at h
          cases h
      | ok y =>
          rw [hx] at h
          cases hxs : xs.mapM f with
          | error e =>
              rw [hxs] at h
              cases h
          | ok ys' =>
              rw [hxs] at h
              cases h
              rw [List.map_cons, hf hx, ih hxs]

theorem eq_nameChoiceIfAny_of_nameChoice {a : Attribute} {s t : Scalar}
    (h : nameChoice a s = .ok t) : t = nameChoiceIfAny a s := by
  unfold nameChoice at h
  unfold nameChoiceIfAny
  cases hchoice : a.findChoice? s.asText with
  | none =>
      rw [hchoice] at h
      cases h
  | some choice =>
      rw [hchoice] at h
      cases h
      rfl

/-- **Authored and supplied values take the same form.**  Authored values only may fail to. -/
theorem form_eq_suppliedForm {a : Attribute} {value form : Literal}
    (h : authoredForm a value = .ok form) : form = suppliedForm a value := by
  unfold authoredForm at h
  unfold suppliedForm
  split
  · next hnumber =>
    rw [if_pos hnumber] at h
    exact (Except.ok.inj h).symm
  · next hnumber =>
    rw [if_neg hnumber] at h
    split
    · next hchoices =>
      rw [if_pos hchoices] at h
      cases value with
      | single s =>
          cases hs : nameChoice a s with
          | error e =>
              rw [Literal.mapM, hs] at h
              cases h
          | ok t =>
              rw [Literal.mapM, hs] at h
              cases h
              rw [Literal.map, eq_nameChoiceIfAny_of_nameChoice hs]
      | list ss =>
          cases hss : ss.mapM (nameChoice a) with
          | error e =>
              rw [Literal.mapM, hss] at h
              cases h
          | ok ts =>
              rw [Literal.mapM, hss] at h
              cases h
              rw [Literal.map, eq_map_of_mapM_eq_ok eq_nameChoiceIfAny_of_nameChoice hss]
    · next hchoices =>
      rw [if_neg hchoices] at h
      exact (Except.ok.inj h).symm

/-- What a text stands for and the number that it becomes are alike. -/
theorem Scalar.asFinite_alike (s : Scalar) : s.asFinite.Alike s.intoNumeric := by
  cases s with
  | integer n => exact .refl _
  | number x => exact .refl _
  | text s =>
      unfold asFinite intoNumeric
      dsimp only
      cases hread : (Decimal.readTrimmed? s).filter Float.isFinite with
      | none =>
          have hnone : numeric? s = none := by
            refine numeric?_of_not_read fun x hx => ?_
            simpa using Option.filter_eq_none_iff.1 hread x hx
          rw [hnone]
          exact .refl _
      | some x =>
          obtain ⟨hx, hfinite⟩ := Option.filter_eq_some_iff.1 hread
          rcases numeric?_of_read hx hfinite with hnumber | ⟨n, hinteger, hsame⟩
          · rw [hnumber]
            exact .refl _
          · rw [hinteger]
            exact .number hsame

/-- Turning a text into the number that it reads as keeps it a number. -/
theorem Scalar.exists_asNumber_intoNumeric {s : Scalar} (h : ∃ x, s.asNumber = some x) :
    ∃ x, s.intoNumeric.asNumber = some x := by
  cases s with
  | integer n => exact h
  | number x => exact h
  | text s =>
      rw [intoNumeric]
      cases hs : numeric? s with
      | none => exact h
      | some t =>
          rw [Option.getD_some]
          unfold numeric? at hs
          rcases Option.or_eq_some_iff.1 hs with hinteger | ⟨-, hnumber⟩
          · obtain ⟨n, -, rfl⟩ := Option.map_eq_some_iff.1 hinteger
            exact ⟨_, rfl⟩
          · obtain ⟨x, -, rfl⟩ := Option.map_eq_some_iff.1 hnumber
            exact ⟨x, rfl⟩

theorem standsFor_eq_nameChoiceIfAny {a : Attribute} (h : a.type.hasChoices = true) :
    a.standsFor = nameChoiceIfAny a := by
  funext s
  unfold Attribute.standsFor nameChoiceIfAny
  cases htype : a.type with
  | text => rw [htype] at h; cases h
  | number => rw [htype] at h; cases h
  | singleSelect => cases a.findChoice? s.asText <;> rfl
  | multiSelect => cases a.findChoice? s.asText <;> rfl

/-- **A value in its form compares as what it stands for.**  Only numbers may differ in how they
are written, and no operator on number attributes looks at that. -/
theorem compares_suppliedForm_iff {a : Attribute} {op : Operator} {values : List String}
    {value : Literal} (hop : a.type.operators.contains op = true) :
    op.Compares values (suppliedForm a value).scalars ↔
      op.Compares values (value.scalars.map a.standsFor) := by
  unfold suppliedForm
  by_cases hnumber : a.type = .number
  · have hstands : a.standsFor = Scalar.asFinite := by
      funext s
      rw [Attribute.standsFor, hnumber]
    have hcontains : op ≠ .contains := by
      rintro rfl
      rw [hnumber] at hop
      exact absurd hop (by decide)
    rw [if_pos hnumber, Literal.scalars_map, hstands]
    exact (Operator.compares_map_congr (fun s _ => s.asFinite_alike) hcontains).symm
  · rw [if_neg hnumber]
    cases hchoices : a.type.hasChoices with
    | true =>
        rw [if_pos rfl, Literal.scalars_map, standsFor_eq_nameChoiceIfAny hchoices]
    | false =>
        have hstands : a.standsFor = id := by
          funext s
          unfold Attribute.standsFor
          cases htype : a.type with
          | text => rfl
          | number => exact absurd htype hnumber
          | singleSelect => rw [htype] at hchoices; cases hchoices
          | multiSelect => rw [htype] at hchoices; cases hchoices
        rw [if_neg Bool.false_ne_true, hstands, List.map_id]

/-! ## One rule -/

namespace Operand

variable {bindings : Bindings} {op : Operator} {a : Attribute} {value value' : Literal}

theorem supplies_literal_iff :
    Supplies bindings op a (.literal value) value' ↔ value' = value := by
  constructor
  · rintro ⟨⟩
    rfl
  · rintro rfl
    exact .literal value'

theorem supplies_dynamic_iff {r : Reference} :
    Supplies bindings op a (.dynamic r) value ↔
      bindings.get? r = some value ∧ op.Fits a value.scalars := by
  constructor
  · rintro ⟨⟩
    exact ⟨‹_›, ‹_›⟩
  · rintro ⟨found, fits⟩
    exact .bound found fits

end Operand

/-- **One operand.**  Resolved and validated, it has the value that the authored operand supplies,
in its form. -/
theorem value?_eq_some_iff_supplies {known : NameSet} {bindings : Bindings} {op : Operator}
    {a : Attribute} {operand : Operand} {resolved form : ResolvedOperand}
    {unbound : List Reference} {misfits : List Misfit} {v : Literal}
    (hresolve : resolveOperand known bindings operand = .ok (resolved, unbound))
    (hvalidate : validateOperand op a resolved = .ok (form, misfits)) :
    form.value? = some v ↔
      ∃ value, operand.Supplies bindings op a value ∧ suppliedForm a value = v := by
  have hform := validatesTo_of_ok hvalidate
  rcases resolveOperand_cases hresolve with ⟨value, rfl, rfl⟩ | ⟨r, value, rfl, hget, rfl⟩ |
    ⟨r, rfl, hget, rfl⟩
  · cases hform with
    | static fits hform =>
        simp [ResolvedOperand.value?, Operand.supplies_literal_iff, form_eq_suppliedForm hform]
  · cases hform with
    | bound _ fits =>
        simp [ResolvedOperand.value?, Operand.supplies_dynamic_iff, hget, ← flaw?_eq_none_iff, fits]
    | misfit _ hflaw =>
        simp [ResolvedOperand.value?, Operand.supplies_dynamic_iff, hget, ← flaw?_eq_none_iff,
          hflaw]
  · cases hform
    simp [ResolvedOperand.value?, Operand.supplies_dynamic_iff, hget]

/-- **One rule.**  Resolved, validated and evaluated, it holds of a member if it means so. -/
theorem Rule.verdict_iff_means {known : NameSet} {bindings : Bindings} {catalog : Catalog}
    {r : Rule Operand} {resolved validated : Rule ResolvedOperand} {unbound : List Reference}
    {misfits : List Misfit} (values : MemberValues)
    (hresolve : resolveRule known bindings r = .ok (resolved, unbound))
    (hvalidate : validateRule catalog resolved = .ok (validated, misfits)) :
    (validated.verdict (values.get validated.attributeId)).holds = true ↔
      r.Means catalog bindings values := by
  obtain ⟨hid, hop, hoperand⟩ := resolveRule_cases hresolve
  obtain ⟨hid', hop', a, ha, hallowed, hempty | ⟨htakes, o, form, ho, hform, hv⟩⟩ :=
    validateRule_cases hvalidate
  · rw [hop] at hempty
    rw [hop] at hop'
    rw [hid', hid, Rule.Means]
    cases h : r.operator with
    | isEmpty => exact Rule.verdict_of_isEmpty (hop'.trans h)
    | isNotEmpty => exact Rule.verdict_of_isNotEmpty (hop'.trans h)
    | _ =>
        rw [h] at hempty
        cases hempty
  · rw [hop] at hop' htakes hallowed hv
    rw [Rule.verdict_holds_iff (by rw [hop', htakes]), Rule.means_iff htakes, hid', hid, hop',
      hform, Option.bind_some]
    rw [hid] at ha
    rcases hoperand with ⟨-, hnone⟩ | ⟨operand, o', hr, ho', hresolve'⟩
    · rw [ho] at hnone
      cases hnone
    · obtain rfl := Option.some.inj (ho.symm.trans ho')
      constructor
      · rintro ⟨v, hvalue, hcompares⟩
        obtain ⟨value, hsupplies, rfl⟩ := (value?_eq_some_iff_supplies hresolve' hv).1 hvalue
        exact ⟨a, operand, value, ha, hr, hsupplies,
          (compares_suppliedForm_iff hallowed).1 hcompares⟩
      · rintro ⟨a', operand', value, ha', hr', hsupplies, hcompares⟩
        obtain rfl := Option.some.inj (ha.symm.trans ha')
        obtain rfl := Option.some.inj (hr.symm.trans hr')
        exact ⟨_, (value?_eq_some_iff_supplies hresolve' hv).2 ⟨value, hsupplies, rfl⟩,
          (compares_suppliedForm_iff hallowed).2 hcompares⟩

/-! ## Trees -/

/-- **Preparation preserves meaning.**  Where an authored tree is resolved and validated without
fault, evaluation answers for every member whether the groups and rules of the tree are true of
it, whatever was tallied before. -/
theorem Strategy.evaluate_iff_means {known : NameSet} {bindings : Bindings} {catalog : Catalog}
    {query : Query Operand} {resolution : Resolution} {validation : Validation}
    (hresolve : query.resolve known bindings = .ok resolution)
    (hvalidate : resolution.tree.validate catalog = .ok validation) (values : MemberValues)
    (t : Tally) :
    (attributeLogic.evaluate validation.tree values t).1 = true ↔
      query.Holds (Rule.Means catalog bindings values) := by
  obtain ⟨g, htree, hg⟩ := exists_of_resolve_validate hresolve hvalidate
  show (validation.tree.evaluate values t).1 = true ↔ _
  rw [Query.evaluate_iff_holds, htree]
  refine Query.holds_mapRules query fun r hr => ?_
  obtain ⟨resolved, unbound, misfits, hresolved, hvalidated⟩ := hg r hr
  exact Rule.verdict_iff_means values hresolved hvalidated

/-- A choice named by its label and a number supplied as a text, for a member who has the choice
in capitals and the number with a fraction. -/
theorem Strategy.means_label_and_numeral :
    (Query.group .and
        [.rule ⟨"level", .equals, some (.literal (.single (.text "senior")))⟩,
          .rule ⟨"years", .greaterThan, some (.dynamic ⟨"field", "years"⟩)⟩]).Holds
      (Rule.Means
        ⟨"team", "org", [⟨"level", "Level", .singleSelect, [⟨"l2", "Senior"⟩]⟩,
          ⟨"years", "Years", .number, []⟩], []⟩
        ⟨⟨[("field", ⟨[("years", .single (.text " 3 "))]⟩)]⟩⟩
        ⟨[("level", ["L2"]), ("years", ["5.0"])]⟩) := by
  have resolved : (Query.group .and
        [.rule ⟨"level", .equals, some (.literal (.single (.text "senior")))⟩,
          .rule ⟨"years", .greaterThan, some (.dynamic ⟨"field", "years"⟩)⟩]).resolve
      (.ofList ["field"]) ⟨⟨[("field", ⟨[("years", .single (.text " 3 "))]⟩)]⟩⟩
      = .ok ⟨.group .and
        [.rule ⟨"level", .equals, some (.static (.single (.text "senior")))⟩,
          .rule ⟨"years", .greaterThan, some (.bound (.single (.text " 3 ")) ⟨"field", "years"⟩)⟩],
        []⟩ := rfl
  have validated : (Query.group .and
        [.rule ⟨"level", .equals, some (.static (.single (.text "senior")))⟩,
          .rule ⟨"years", .greaterThan,
            some (.bound (.single (.text " 3 ")) ⟨"field", "years"⟩)⟩]).validate
      ⟨"team", "org", [⟨"level", "Level", .singleSelect, [⟨"l2", "Senior"⟩]⟩,
        ⟨"years", "Years", .number, []⟩], []⟩
      = .ok ⟨.group .and
        [.rule ⟨"level", .equals, some (.static (.single (.text "l2")))⟩,
          .rule ⟨"years", .greaterThan, some (.bound (.single (.integer 3)) ⟨"field", "years"⟩)⟩],
        []⟩ := rfl
  exact (evaluate_iff_means resolved validated _ {}).1 (by decide)

end TeamRouting
