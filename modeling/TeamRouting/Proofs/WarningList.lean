import Mathlib.Data.List.Induction
import TeamRouting.Proofs.MissingAnswers
import TeamRouting.Proofs.Notices
import TeamRouting.Proofs.Warnings

/-!
# The list of warnings

What an outcome warns of can be said without making the run.  First comes what there is to say about
the trees that were evaluated, in document order; then, in the order of texts, one warning for each
attribute and each comparison by size that was reached for a member with no number to compare.
Whatever is said twice is said where it was said first.

* `Rule.Usable` — a rule has a value to compare with;
* `Query.LacksNumber` — a comparison was reached for a member with no number to compare;
* `Rule.warning_iff` — a prepared rule warns of nothing else;
* `Engine.run_warnings` — the warnings of a run.
-/

namespace TeamRouting

/-! ## Members without a number -/

/-- The operand of a rule supplies a value that fits. -/
def Rule.Usable (catalog : Catalog) (bindings : Bindings) (r : Rule Operand) : Prop :=
  ∃ a operand value, catalog.attribute? r.attributeId = some a ∧ r.operand = some operand ∧
    operand.Supplies bindings r.operator a value

/-- Some member, for whom the tree is evaluated as far as it takes to know whether it holds, is
compared by size with a value for an attribute, and does not have exactly one value there that reads
as a number. -/
def Query.LacksNumber (catalog : Catalog) (bindings : Bindings) (attributeId : String)
    (op : Operator) (query : Query Operand) : Prop :=
  op.isNumeric = true ∧ ∃ m ∈ catalog.members, ∃ r,
    query.Reaches (Rule.Means catalog bindings m.values) r ∧ r.attributeId = attributeId ∧
      r.operator = op ∧ r.Usable catalog bindings ∧
      ∀ x, ¬ IsNumber (m.values.get attributeId) x

/-! ## One rule -/

section Rules

variable {known : NameSet} {bindings : Bindings} {catalog : Catalog}

/-- What an operand of a valid rule supplies fits, authored or not. -/
theorem fits_of_supplies {op : Operator} {a : Attribute} {operand : Operand}
    {resolved form : ResolvedOperand} {noted : List Reference} {misfits : List Misfit}
    {value : Literal} (hresolve : resolveOperand known bindings operand = .ok (resolved, noted))
    (hvalidate : validateOperand op a resolved = .ok (form, misfits))
    (supplies : operand.Supplies bindings op a value) : op.Fits a value.scalars := by
  cases supplies with
  | literal value =>
      cases hresolve
      cases validatesTo_of_ok hvalidate with
      | static fits _ => exact flaw?_eq_none_iff.1 fits
  | bound found fits => exact fits

/-- The form of a range that fits has two bounds. -/
theorem areBounds_suppliedForm {a : Attribute} {value : Literal} (number : a.type = .number)
    (fits : Operator.between.Fits a value.scalars) :
    Rule.AreBounds (suppliedForm a value).scalars := by
  rw [suppliedForm, if_pos number, Literal.scalars_map]
  obtain ⟨s, t, hst⟩ := List.length_eq_two.1 (fits.bounds rfl)
  have hnumeric : ∀ s ∈ value.scalars, ∃ x, s.asNumber = some x := fits.numeric (Or.inl rfl)
  rw [hst] at hnumeric ⊢
  obtain ⟨low, hlow⟩ := Scalar.exists_asNumber_intoNumeric (hnumeric s (by simp))
  obtain ⟨high, hhigh⟩ := Scalar.exists_asNumber_intoNumeric (hnumeric t (by simp))
  exact ⟨_, _, low, high, rfl, hlow, hhigh⟩

/-- **One rule**, resolved, validated and evaluated, warns if it compares by size, has a value to
compare with, and finds no number to compare. -/
theorem Rule.warning_iff {r : Rule Operand} {resolved validated : Rule ResolvedOperand}
    {noted : List Reference} {misfits : List Misfit} {values : List String} {message : String}
    (hresolve : resolveRule known bindings r = .ok (resolved, noted))
    (hvalidate : validateRule catalog resolved = .ok (validated, misfits)) :
    (validated.verdict values).warning = some message ↔
      r.operator.isNumeric = true ∧ r.Usable catalog bindings ∧
        message = numberWarning r.attributeId r.operator ∧ ∀ x, ¬ IsNumber values x := by
  obtain ⟨hid, hop, hoperand⟩ := resolveRule_cases hresolve
  obtain ⟨hid', hop', a, ha, hallowed, hcases⟩ := validateRule_cases hvalidate
  rw [hop] at hallowed hop' hcases
  rw [hid] at ha hid'
  rw [verdict_warning_iff, hop', hid']
  refine and_congr_right fun numeric => and_congr_left fun _ => ?_
  obtain idle | ⟨-, o, form, ho, hform, hv⟩ := hcases
  · rw [takesOperand_of_isNumeric numeric] at idle
    cases idle
  · obtain ⟨-, hnone⟩ | ⟨operand, o', hr, ho', hresolved⟩ := hoperand
    · rw [hnone] at ho
      cases ho
    · cases ho.symm.trans ho'
      have number := number_of_isNumeric numeric hallowed
      have hvalue : ∀ v, form.value? = some v ↔ _ := fun v =>
        value?_eq_some_iff_supplies hresolved hv
      rw [hform, Option.bind_some]
      constructor
      · rintro ⟨v, hv', -⟩
        obtain ⟨value, supplies, -⟩ := (hvalue v).1 hv'
        exact ⟨a, operand, value, ha, hr, supplies⟩
      · rintro ⟨a', operand', value, ha', hr', supplies⟩
        cases ha.symm.trans ha'
        cases hr.symm.trans hr'
        refine ⟨_, (hvalue _).2 ⟨value, supplies, rfl⟩, fun hbetween => ?_⟩
        have fits := fits_of_supplies hresolved hv supplies
        rw [hbetween] at fits
        exact areBounds_suppliedForm number fits

end Rules

/-! ## Trees -/

namespace Engine

variable {engine : Engine} {catalog : Catalog} {bindings : Bindings} {query : Query Operand}
  {plan : Plan}

/-- **A survey with a prepared tree** warns of the comparisons that the authored one makes without a
number. -/
theorem mem_survey_warnings_iff (logic : engine.strategy = .attributeLogic)
    (h : engine.prepare catalog bindings query = .ok plan) {earlier : Nat} {message : String} :
    message ∈ (engine.survey .never earlier catalog plan).tally.warnings ↔
      ∃ attributeId op, message = numberWarning attributeId op ∧
        query.LacksNumber catalog bindings attributeId op := by
  obtain ⟨resolution, validation, hresolve, hvalidate, htree⟩ := prepares_of_prepare_ok h
  obtain ⟨g, hmap, hg⟩ := exists_of_resolve_validate hresolve hvalidate
  have hreaches : ∀ (values : MemberValues) (r' : Rule ResolvedOperand), plan.tree.Reaches
      (fun r => (r.verdict (values.get r.attributeId)).holds = true) r' ↔
        ∃ r, query.Reaches (Rule.Means catalog bindings values) r ∧ g r = r' := by
    intro values r'
    rw [← htree, hmap]
    refine Query.reaches_mapRules query fun r hr => ?_
    obtain ⟨resolved, unbound, misfits, hresolved, hvalidated⟩ := hg r hr
    exact Rule.verdict_iff_means values hresolved hvalidated
  have hwarning : ∀ r ∈ query.rules, ∀ values : MemberValues,
      ((g r).verdict (values.get (g r).attributeId)).warning = some message ↔
        r.operator.isNumeric = true ∧ r.Usable catalog bindings ∧
          message = numberWarning r.attributeId r.operator ∧
          ∀ x, ¬ IsNumber (values.get r.attributeId) x := by
    intro r hr values
    obtain ⟨resolved, unbound, misfits, hresolved, hvalidated⟩ := hg r hr
    have hid := (resolveRule_cases hresolved).1
    have hid' := (validateRule_cases hvalidated).1
    rw [Rule.warning_iff hresolved hvalidated, hid', hid]
  rw [survey_of_never, Strategy.mem_surveyEach_warnings]
  constructor
  · rintro ⟨-, m, hm, r', hr', hr'w⟩
    obtain ⟨r, reached, rfl⟩ := (hreaches m.values r').1 hr'
    obtain ⟨numeric, usable, hmessage, lacks⟩ := (hwarning r reached.mem_rules m.values).1 hr'w
    exact ⟨_, _, hmessage, numeric, m, hm, r, reached, rfl, rfl, usable, lacks⟩
  · rintro ⟨_, _, hmessage, numeric, m, hm, r, reached, rfl, rfl, usable, lacks⟩
    refine ⟨logic, m, hm, g r, (hreaches m.values _).2 ⟨r, reached, rfl⟩, ?_⟩
    exact (hwarning r reached.mem_rules m.values).2 ⟨numeric, usable, hmessage, lacks⟩

/-- A survey with a prepared tree finds nobody if the authored one holds for nobody. -/
theorem survey_isEmpty_iff_not_holds (logic : engine.strategy = .attributeLogic)
    (h : engine.prepare catalog bindings query = .ok plan) {earlier : Nat} :
    (engine.survey .never earlier catalog plan).matched.isEmpty = true ↔
      ∀ m ∈ catalog.members, ¬ query.Holds (Rule.Means catalog bindings m.values) := by
  have hsatisfies : ∀ m : Member, engine.strategy.satisfies plan.tree m = true ↔
      query.Holds (Rule.Means catalog bindings m.values) := by
    intro m
    rw [logic]
    exact evaluate_plan_iff h {}
  rw [survey_isEmpty_iff]
  constructor
  · intro nobody m hm holds
    exact nobody m.id ⟨m, hm, rfl, (hsatisfies m).2 holds⟩
  · rintro nobody id ⟨m, hm, -, satisfied⟩
    exact nobody m hm ((hsatisfies m).1 satisfied)

/-! ## Runs -/

variable {spare : Option Plan} {explained : Bool}

/-- The second survey takes place, with the fallback tree prepared, if there is such a tree and the
first survey found nobody. -/
theorem fallbackSurvey_cases (plan : Plan) {fallback : Option (Query Operand)}
    (sparePrepared : engine.prepare? catalog bindings fallback = .ok spare) :
    (engine.fallbackSurvey .never catalog (engine.survey .never 0 catalog plan) spare = none ∧
        ¬ (fallback.isSome = true ∧
          (engine.survey .never 0 catalog plan).matched.isEmpty = true)) ∨
      ∃ query sparePlan earlier, fallback = some query ∧
        engine.prepare catalog bindings query = .ok sparePlan ∧ spare = some sparePlan ∧
        (engine.survey .never 0 catalog plan).matched.isEmpty = true ∧
        engine.fallbackSurvey .never catalog (engine.survey .never 0 catalog plan) spare
          = some (engine.survey .never earlier catalog sparePlan) := by
  rw [fallbackSurvey_of_never _ survey_canceled]
  cases fallback with
  | none =>
      cases sparePrepared
      exact Or.inl ⟨by simp, by simp⟩
  | some query =>
      rw [prepare?] at sparePrepared
      cases prepared : engine.prepare catalog bindings query with
      | error e =>
          rw [prepared] at sparePrepared
          cases sparePrepared
      | ok sparePlan =>
          rw [prepared] at sparePrepared
          cases sparePrepared
          by_cases nobody : (engine.survey .never 0 catalog plan).matched.isEmpty = true
          · exact Or.inr ⟨query, sparePlan, _, rfl, prepared, rfl, nobody, if_pos nobody⟩
          · exact Or.inl ⟨if_neg nobody, fun h => nobody h.2⟩

/-- With one survey, the outcome warns of what its tree and its members give rise to. -/
theorem conclude_warnings_of_first
    (h : engine.fallbackSurvey .never catalog (engine.survey .never 0 catalog plan) spare = none) :
    (engine.conclude .never catalog explained plan spare).warnings =
      (plan.warnings ++ (engine.survey .never 0 catalog plan).tally.warnings.toList).eraseDups := by
  simp only [conclude, h, survey_canceled, Option.map_none, Option.getD_none, Bool.or_self,
    Option.isSome_none, Bool.false_eq_true, if_false, List.append_nil]

/-- With two, the trees come first, and the members of both surveys are put together. -/
theorem conclude_warnings_of_second {sparePlan : Plan} {earlier : Nat}
    (h : engine.fallbackSurvey .never catalog (engine.survey .never 0 catalog plan) (some sparePlan)
      = some (engine.survey .never earlier catalog sparePlan)) :
    (engine.conclude .never catalog explained plan (some sparePlan)).warnings =
      (plan.warnings ++ sparePlan.warnings ++
        ((engine.survey .never 0 catalog plan).tally.merge
          (engine.survey .never earlier catalog sparePlan).tally).warnings.toList).eraseDups := by
  simp only [conclude, h, survey_canceled, Option.map_some, Option.getD_some, Bool.or_self,
    Option.isSome_some, Bool.false_eq_true, if_false, if_true, List.append_nil]

end Engine

theorem nodup_eraseDups (xs : List String) : xs.eraseDups.Nodup := by
  induction xs using List.reverseRecOn with
  | nil => exact List.nodup_nil
  | append_singleton xs x ih =>
      by_cases hx : x ∈ xs
      · have hold : [x].removeAll xs = [] := by simp [List.removeAll, hx]
        rw [List.eraseDups_append, hold, List.eraseDups_nil, List.append_nil]
        exact ih
      · rw [eraseDups_concat hx, List.nodup_append]
        refine ⟨ih, by simp, fun y hy z hz => ?_⟩
        rw [List.mem_singleton.1 hz]
        rintro rfl
        exact hx (List.mem_eraseDups.1 hy)

/-- The trees that were evaluated for an outcome: the primary one, and the fallback one if it was
checked. -/
def MatchInput.evaluated (input : MatchInput) (o : Outcome) : List (Query Operand) :=
  input.primary.toList ++ if o.checkedFallback then input.fallback.toList else []

namespace Engine

/-- **The warnings of a run.**  Take a run by the rules of its trees that succeeds and is not called
off, with a primary tree that decides something.  Nothing is said twice.  There is a list of the
comparisons that were made without a number, in ascending order, and the outcome warns of what there
is to say about the trees that were evaluated and then of those comparisons, keeping what is said
where it was said first.  The fallback tree was evaluated exactly if there is one and the primary
tree holds for nobody. -/
theorem run_warnings (engine : Engine) (catalog : Catalog) (input : MatchInput)
    {primary : Query Operand} {o : Outcome} (logic : engine.strategy = .attributeLogic)
    (given : input.primary = some primary) (rules : primary.rules ≠ [])
    (h : engine.run catalog input .never = .ok o) :
    o.warnings.Nodup ∧
      (o.checkedFallback = true ↔ input.fallback.isSome = true ∧
        ∀ m ∈ catalog.members, ¬ primary.Holds (Rule.Means catalog input.bindings m.values)) ∧
      ∃ numbers : List String, numbers.Pairwise (· < ·) ∧
        (∀ message, message ∈ numbers ↔ ∃ query ∈ input.evaluated o, ∃ attributeId op,
          message = numberWarning attributeId op ∧
            query.LacksNumber catalog input.bindings attributeId op) ∧
        o.warnings = ((input.evaluated o).flatMap (Query.notices catalog input.bindings) ++
          numbers).eraseDups := by
  obtain ⟨plan, spare, prepared, sparePrepared, rfl⟩ := (run_eq_ok_iff given rules).1 h
  have hnumbers : ∀ message, message ∈ (engine.survey .never 0 catalog plan).tally.warnings ↔ _ :=
    fun message => mem_survey_warnings_iff logic prepared
  have hnobody : (engine.survey .never 0 catalog plan).matched.isEmpty = true ↔ _ :=
    survey_isEmpty_iff_not_holds logic prepared
  rw [← hnobody]
  rcases fallbackSurvey_cases plan sparePrepared with ⟨hnone, hspared⟩ |
    ⟨fallback, sparePlan, earlier, hfallback, sparePlanPrepared, rfl, nobody, hsome⟩
  · have hchecked : (engine.conclude .never catalog input.explain plan spare).checkedFallback
        = false := by simp only [conclude, hnone, Option.isSome_none]
    have hevaluated : input.evaluated (engine.conclude .never catalog input.explain plan spare)
        = [primary] := by simp [MatchInput.evaluated, hchecked, given]
    have hwarnings := @conclude_warnings_of_first engine catalog plan spare input.explain hnone
    rw [hevaluated, hwarnings, hchecked]
    refine ⟨nodup_eraseDups _, by simpa using hspared,
      (engine.survey .never 0 catalog plan).tally.warnings.toList, NameSet.ascending _,
      fun message => ?_, ?_⟩
    · simp only [List.mem_singleton, exists_eq_left]
      exact hnumbers message
    · rw [warnings_of_prepare prepared, List.flatMap_singleton]
  · have hchecked : (engine.conclude .never catalog input.explain plan
        (some sparePlan)).checkedFallback = true := by
      simp only [conclude, hsome, Option.isSome_some]
    have hevaluated : input.evaluated (engine.conclude .never catalog input.explain plan
        (some sparePlan)) = [primary, fallback] := by
      simp [MatchInput.evaluated, hchecked, given, hfallback]
    have hwarnings := @conclude_warnings_of_second engine catalog plan input.explain sparePlan
      earlier hsome
    have hspare : ∀ message,
        message ∈ (engine.survey .never earlier catalog sparePlan).tally.warnings ↔ _ :=
      fun message => mem_survey_warnings_iff logic sparePlanPrepared
    rw [hevaluated, hwarnings, hchecked]
    refine ⟨nodup_eraseDups _, by simp [hfallback, nobody],
      ((engine.survey .never 0 catalog plan).tally.merge
        (engine.survey .never earlier catalog sparePlan).tally).warnings.toList,
      NameSet.ascending _, fun message => ?_, ?_⟩
    · simp only [List.mem_cons, List.not_mem_nil, or_false, exists_eq_or_imp, exists_eq_left]
      rw [← hnumbers, ← hspare]
      exact NameSet.mem_union
    · rw [warnings_of_prepare prepared, warnings_of_prepare sparePlanPrepared]
      simp

/-- A booking that leaves the region open and names a level that is no number.  The primary tree
holds for nobody, so the fallback tree is evaluated, which asks for the region again. -/
theorem run_warnings_of_open_region :
    ∃ (catalog : Catalog) (input : MatchInput) (primary : Query Operand) (o : Outcome),
      catalog = ⟨"team", "org", [⟨"region", "Region", .text, []⟩, ⟨"level", "Level", .number, []⟩],
        [⟨"ann", ⟨[("level", ["high"])]⟩⟩]⟩ ∧
      primary = .group .or [.rule ⟨"region", .equals, some (.dynamic ⟨"field", "region"⟩)⟩,
        .rule ⟨"level", .lessThan, some (.literal (.single (.integer 3)))⟩,
        .rule ⟨"level", .equals, some (.dynamic ⟨"field", "level"⟩)⟩] ∧
      input = ⟨some primary,
        some (.group .and [.rule ⟨"level", .greaterThan, some (.literal (.single (.integer 1)))⟩,
          .rule ⟨"region", .equals, some (.dynamic ⟨"field", "region"⟩)⟩]),
        ⟨⟨[("field", ⟨[("level", .single (.text "top"))]⟩)]⟩⟩, false⟩ ∧
      ({} : Engine).run catalog input .never = .ok o ∧
      o.warnings = ["dynamic operand \x7bfield:region\x7d has no bound value",
        "dynamic operand \x7bfield:level\x7d does not fit EQUALS on attribute 'level': " ++
          "expected a numeric value",
        "members without a single numeric value for attribute 'level' did not match GREATER_THAN",
        "members without a single numeric value for attribute 'level' did not match LESS_THAN"] ∧
      o.warnings.Nodup ∧ ∃ numbers : List String, numbers.Pairwise (· < ·) ∧
        o.warnings = ((input.evaluated o).flatMap (Query.notices catalog input.bindings) ++
          numbers).eraseDups := by
  have hlist : ∀ {catalog : Catalog} {input : MatchInput} {primary : Query Operand} {o : Outcome},
      input.primary = some primary → primary.rules ≠ [] →
      ({} : Engine).run catalog input .never = .ok o →
      o.warnings.Nodup ∧ ∃ numbers : List String, numbers.Pairwise (· < ·) ∧
        o.warnings = ((input.evaluated o).flatMap (Query.notices catalog input.bindings) ++
          numbers).eraseDups := by
    intro catalog input primary o given rules hrun
    obtain ⟨nodup, -, numbers, ascending, -, hwarnings⟩ :=
      run_warnings {} catalog input rfl given rules hrun
    exact ⟨nodup, numbers, ascending, hwarnings⟩
  refine ⟨_, _, _, _, rfl, rfl, rfl, rfl, rfl, ?_⟩
  exact hlist rfl (List.cons_ne_nil _ _) rfl

end Engine

end TeamRouting
