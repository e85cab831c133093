import TeamRouting.Proofs.Notices

/-!
# Answers that cannot be used

A rule that waits for an answer fails for every member if there is no answer or the answer does not
fit, and whatever is said about references without an answer and answers that do not fit is said
about such rules.  The tests for emptiness wait for nothing: they are decided by the values of the
member, even where a reference is written beside them and goes without an answer.

* `Rule.MatchesNobody`, `Rule.Awaits` — rules that fail for everybody, and rules that wait for an
  answer;
* `Rule.awaits_cases` — what preparation makes of such a rule;
* `Rule.indeterminate_iff` — it is left without a value just when something is noted about it;
* `Query.unusable_answers` — what the warnings mean, for the rules of a tree;
* `Query.isEmpty_of_open_region` — a test for emptiness that holds although its reference has no
  answer.
-/

namespace TeamRouting

/-! ## Rules that wait for an answer -/

/-- No member satisfies a rule. -/
def Rule.MatchesNobody (r : Rule ResolvedOperand) : Prop :=
  ∀ (values : MemberValues) (t : Tally), ((Query.rule r).evaluate values t).1 = false

/-- A rule compares with the answer to a reference, whether there is one or not. -/
def Rule.Awaits (r : Rule ResolvedOperand) (ref : Reference) : Prop :=
  r.operator.takesOperand = true ∧ ∃ o, r.operand = some o ∧ o.authored = .dynamic ref

/-- A note about an answer is about a rule: it waits for that answer, with the operator and the
attribute that the note names. -/
def Misfit.Concerns (m : Misfit) (r : Rule ResolvedOperand) : Prop :=
  r.Awaits m.reference ∧ r.operator = m.operator ∧ r.attributeId = m.attributeId

/-- There is no answer to a reference: nothing is supplied for it, or something blank. -/
def Bindings.LeavesOpen (b : Bindings) (ref : Reference) : Prop :=
  ∀ fields value, b.sources.find? ref.source = some fields → fields.find? ref.field = some value →
    value.isBlank = true

theorem Bindings.get?_eq_none_iff {b : Bindings} {ref : Reference} :
    b.get? ref = none ↔ b.LeavesOpen ref := by
  simp only [get?, LeavesOpen, Option.filter_eq_none_iff, Option.bind_eq_some_iff]
  constructor
  · intro h fields value hsource hfield
    simpa using h value ⟨fields, hsource, hfield⟩
  · rintro h value ⟨fields, hsource, hfield⟩
    simp [h fields value hsource hfield]

namespace Rule

variable {known : NameSet} {bindings : Bindings} {catalog : Catalog} {r : Rule Operand}
  {resolved validated : Rule ResolvedOperand} {noted : List Reference} {misfits : List Misfit}
  {ref : Reference} {m : Misfit}

theorem matchesNobody_of_indeterminate (takes : validated.operator.takesOperand = true)
    (h : validated.operand = some (.indeterminate ref)) : validated.MatchesNobody := by
  intro values t
  have hvalue : validated.operand.bind ResolvedOperand.value? = none := by rw [h]; rfl
  show (validated.verdict (values.get validated.attributeId)).holds = false
  rw [verdict_of_no_value takes hvalue]

/-! ## What is noted about them -/

/-- An answer that does not fit is noted with the rule that it was meant for. -/
theorem misfit?_eq_some_iff : r.misfit? catalog bindings = some m ↔
    r = ⟨m.attributeId, m.operator, some (.dynamic m.reference)⟩ ∧
      m.operator.takesOperand = true ∧ ∃ a value, catalog.Defines m.attributeId a ∧
        bindings.get? m.reference = some value ∧ m.operator.Rejects a value.scalars m.flaw := by
  obtain ⟨attributeId, op, operand⟩ := r
  obtain ⟨ref, op', attributeId', flaw⟩ := m
  simp only [← flaw?_eq_some_iff, ← Catalog.attribute?_eq_some_iff]
  constructor
  · intro h
    unfold misfit? at h
    split at h
    · next takes =>
      obtain ⟨a, ha, h⟩ := Option.bind_eq_some_iff.1 h
      obtain ⟨o, ho, h⟩ := Option.bind_eq_some_iff.1 h
      cases o with
      | literal value => cases h
      | dynamic ref' =>
          obtain ⟨value, hget, h⟩ := Option.bind_eq_some_iff.1 h
          obtain ⟨flaw', hflaw, h⟩ := Option.bind_eq_some_iff.1 h
          have hid : a.id = attributeId := (Catalog.attribute?_eq_some_iff.1 ha).id_eq
          cases ho
          cases h
          cases hid
          exact ⟨rfl, takes, a, value, ha, hget, hflaw⟩
    · cases h
  · rintro ⟨hr, takes, a, value, ha, hget, hflaw⟩
    cases hr
    have hid : a.id = attributeId := (Catalog.attribute?_eq_some_iff.1 ha).id_eq
    simp [misfit?, Operand.misfit?, takes, ha, hget, hflaw, hid]

/-- What preparation makes of an operand that is a reference: the answer in its form if there is one
and it fits, and else the mere reference. -/
theorem reference_cases {op : Operator} {a : Attribute} {operand : Operand}
    {o form : ResolvedOperand}
    (hresolve : resolveOperand known bindings operand = .ok (o, noted))
    (hvalidate : validateOperand op a o = .ok (form, misfits))
    (hauthored : form.authored = .dynamic ref) :
    operand = .dynamic ref ∧ (form = .indeterminate ref ∧ bindings.get? ref = none ∨
      (∃ value flaw, form = .indeterminate ref ∧ bindings.get? ref = some value ∧
        flaw? op a value = some flaw) ∨
      ∃ value, form = .bound (suppliedForm a value) ref ∧ bindings.get? ref = some value ∧
        flaw? op a value = none) := by
  have hform := validatesTo_of_ok hvalidate
  obtain ⟨value, rfl, rfl⟩ | ⟨ref', value, rfl, hget, rfl⟩ | ⟨ref', rfl, hget, rfl⟩ :=
    resolveOperand_cases hresolve
  · -- an authored value remains one
    cases hform with
    | static _ _ => cases hauthored
  · cases hform with
    | bound _ fits =>
        cases hauthored
        exact ⟨rfl, Or.inr (Or.inr ⟨value, rfl, hget, fits⟩)⟩
    | misfit _ hflaw =>
        cases hauthored
        exact ⟨rfl, Or.inr (Or.inl ⟨value, _, rfl, hget, hflaw⟩)⟩
  · cases hform
    cases hauthored
    exact ⟨rfl, Or.inl ⟨rfl, hget⟩⟩

/-- **What preparation makes of a rule that waits for an answer.** -/
theorem awaits_cases (hresolve : resolveRule known bindings r = .ok (resolved, noted))
    (hvalidate : validateRule catalog resolved = .ok (validated, misfits))
    (awaits : validated.Awaits ref) :
    r = ⟨validated.attributeId, validated.operator, some (.dynamic ref)⟩ ∧
      ∃ a form, catalog.Defines validated.attributeId a ∧ validated.operand = some form ∧
        (form = .indeterminate ref ∧ bindings.get? ref = none ∨
          (∃ value flaw, form = .indeterminate ref ∧ bindings.get? ref = some value ∧
            flaw? validated.operator a value = some flaw) ∨
          ∃ value, form = .bound (suppliedForm a value) ref ∧ bindings.get? ref = some value ∧
            flaw? validated.operator a value = none) := by
  obtain ⟨takes, form, hform, hauthored⟩ := awaits
  obtain ⟨hid, hop, hoperand⟩ := resolveRule_cases hresolve
  obtain ⟨hid', hop', a, ha, -, hcases⟩ := validateRule_cases hvalidate
  rw [← hid', Catalog.attribute?_eq_some_iff] at ha
  rw [← hop', hform, takes] at hcases
  obtain idle | ⟨-, o, form', ho, hform', hv⟩ := hcases
  · cases idle
  cases hform'
  obtain ⟨-, hnone⟩ | ⟨operand, o', hr, ho', hresolved⟩ := hoperand
  · rw [hnone] at ho
    cases ho
  cases ho.symm.trans ho'
  obtain ⟨rfl, hcases⟩ := reference_cases hresolved hv hauthored
  exact ⟨by rw [hid', hop', hid, hop, ← hr], a, form, ha, hform, hcases⟩

/-- **A rule is left without a value just when something is noted about it**: that its reference has
no answer, or that the answer does not fit. -/
theorem indeterminate_iff (hresolve : resolveRule known bindings r = .ok (resolved, noted))
    (hvalidate : validateRule catalog resolved = .ok (validated, misfits))
    (awaits : validated.Awaits ref) : validated.operand = some (.indeterminate ref) ↔
      bindings.get? ref = none ∨ ∃ m, r.misfit? catalog bindings = some m := by
  obtain ⟨hr, a, form, defined, hform, hcases⟩ := awaits_cases hresolve hvalidate awaits
  rw [hform, Option.some.injEq]
  obtain ⟨h, hget⟩ | ⟨value, flaw, h, hget, hflaw⟩ | ⟨value, h, hget, hflaw⟩ := hcases
  · exact iff_of_true h (Or.inl hget)
  · refine iff_of_true h (Or.inr ⟨⟨ref, validated.operator, validated.attributeId, flaw⟩, ?_⟩)
    exact misfit?_eq_some_iff.2 ⟨hr, awaits.1, a, value, defined, hget, flaw?_eq_some_iff.1 hflaw⟩
  · refine iff_of_false ?_ ?_
    · rw [h]
      rintro ⟨⟩
    · rintro (hnone | ⟨m, hm⟩)
      · rw [hget] at hnone
        cases hnone
      · obtain ⟨hr', -, a', value', defined', hget', rejected⟩ := misfit?_eq_some_iff.1 hm
        rw [hr, mk.injEq, Option.some.injEq, Operand.dynamic.injEq] at hr'
        obtain ⟨hid, hop, rfl⟩ := hr'
        rw [← hid] at defined'
        cases defined.unique defined'
        cases hget.symm.trans hget'
        rw [← hop, ← flaw?_eq_some_iff, hflaw] at rejected
        cases rejected

/-- A test for emptiness looks at the values of the member and at nothing else. -/
theorem verdict_of_idle {r : Rule ResolvedOperand} (idle : r.operator.takesOperand = false)
    (values : List String) :
    (r.verdict values).holds = true ↔ (r.operator = .isEmpty ↔ values = []) := by
  obtain ⟨attributeId, op, operand⟩ := r
  cases op with
  | isEmpty => simp [verdict]
  | isNotEmpty => simp [verdict]
  | _ => cases idle

end Rule

/-! ## Trees -/

namespace Query

variable {known : NameSet} {bindings : Bindings} {catalog : Catalog} {query : Query Operand}
  {resolution : Resolution} {validation : Validation}

/-- The references that are said to have no answer are those of the tree that have none. -/
theorem mem_unbound_iff (hresolve : query.resolve known bindings = .ok resolution)
    {ref : Reference} : ref ∈ resolution.unbound ↔
      ref ∈ query.references ∧ bindings.get? ref = none := by
  rw [unbound_of_resolve hresolve, unbound, List.mem_eraseDups, List.mem_filter,
    Option.isNone_iff_eq_none]

/-- The answers that are said not to fit are those that do not fit a rule of the tree. -/
theorem mem_misfits_iff (hresolve : query.resolve known bindings = .ok resolution)
    (hvalidate : resolution.tree.validate catalog = .ok validation) {m : Misfit} :
    m ∈ validation.misfits ↔ ∃ r ∈ query.rules, r.misfit? catalog bindings = some m := by
  rw [misfits_of_validate hresolve hvalidate, misfits, List.mem_filterMap]

/-- **The rules of a prepared tree that wait for an answer** come from rules of the authored tree,
and are left without a value just when something is noted about those. -/
theorem awaits_of_prepared (hresolve : query.resolve known bindings = .ok resolution)
    (hvalidate : resolution.tree.validate catalog = .ok validation) :
    ∀ r ∈ validation.tree.rules, ∀ ref, r.Awaits ref →
      (⟨r.attributeId, r.operator, some (.dynamic ref)⟩ : Rule Operand) ∈ query.rules ∧
        (r.operand = some (.indeterminate ref) ↔ bindings.get? ref = none ∨
          ∃ m, Rule.misfit? catalog bindings ⟨r.attributeId, r.operator, some (.dynamic ref)⟩
            = some m) := by
  obtain ⟨g, htree, hstep⟩ := exists_of_resolve_validate hresolve hvalidate
  rw [htree, rules_mapRules]
  intro r hr ref awaits
  obtain ⟨r₀, hr₀, rfl⟩ := List.mem_map.1 hr
  obtain ⟨resolved, noted, misfits, hresolved, hvalidated⟩ := hstep r₀ hr₀
  obtain ⟨heq, -⟩ := Rule.awaits_cases hresolved hvalidated awaits
  rw [← heq]
  exact ⟨hr₀, Rule.indeterminate_iff hresolved hvalidated awaits⟩

/-- **Answers that cannot be used match nobody.**  Let a tree be resolved and validated without
fault.  A rule that compares with the answer to a reference and is left without a value fails for
every member, and it was told why: its reference has no answer, or the answer does not fit.  The
other way round, whenever a reference is said to have no answer, or an answer is said not to fit,
the rules that this is about fail for every member.  The tests for emptiness do not compare with
anything: the values of the member decide, whatever their operand. -/
theorem unusable_answers (hresolve : query.resolve known bindings = .ok resolution)
    (hvalidate : resolution.tree.validate catalog = .ok validation) :
    (∀ r ∈ validation.tree.rules, ∀ ref, r.operator.takesOperand = true →
      r.operand = some (.indeterminate ref) → r.MatchesNobody ∧
        (bindings.LeavesOpen ref ∧ ref.unboundWarning ∈ resolution.warnings ∨
          ∃ m ∈ validation.misfits, m.Concerns r)) ∧
      (∀ message ∈ resolution.warnings, ∃ ref ∈ query.references, message = ref.unboundWarning ∧
        bindings.LeavesOpen ref ∧
          ∀ r ∈ validation.tree.rules, r.Awaits ref → r.MatchesNobody) ∧
      (∀ message ∈ validation.warnings, ∃ m ∈ validation.misfits, message = m.warning ∧
        (∃ a value, catalog.Defines m.attributeId a ∧ bindings.get? m.reference = some value ∧
          m.operator.Rejects a value.scalars m.flaw) ∧
        ∀ r ∈ validation.tree.rules, m.Concerns r → r.MatchesNobody) ∧
      ∀ r ∈ validation.tree.rules, r.operator.takesOperand = false →
        ∀ (values : MemberValues) (t : Tally), ((Query.rule r).evaluate values t).1 = true ↔
          (r.operator = .isEmpty ↔ values.get r.attributeId = []) := by
  refine ⟨fun r hr ref takes h => ⟨Rule.matchesNobody_of_indeterminate takes h, ?_⟩,
    fun message hmessage => ?_, fun message hmessage => ?_, fun r hr idle values t => ?_⟩
  · have awaits : r.Awaits ref := ⟨takes, _, h, rfl⟩
    obtain ⟨hmem, hiff⟩ := awaits_of_prepared hresolve hvalidate r hr ref awaits
    obtain hnone | ⟨m, hm⟩ := hiff.1 h
    · have href : ref ∈ query.references := List.mem_filterMap.2 ⟨_, hmem, rfl⟩
      exact Or.inl ⟨Bindings.get?_eq_none_iff.1 hnone,
        List.mem_map_of_mem ((mem_unbound_iff hresolve).2 ⟨href, hnone⟩)⟩
    · obtain ⟨heq, -⟩ := Rule.misfit?_eq_some_iff.1 hm
      rw [Rule.mk.injEq, Option.some.injEq, Operand.dynamic.injEq] at heq
      obtain ⟨hid, hop, rfl⟩ := heq
      exact Or.inr ⟨m, (mem_misfits_iff hresolve hvalidate).2 ⟨_, hmem, hm⟩, awaits, hop, hid⟩
  · obtain ⟨ref, href, rfl⟩ := List.mem_map.1 hmessage
    obtain ⟨hmem, hnone⟩ := (mem_unbound_iff hresolve).1 href
    refine ⟨ref, hmem, rfl, Bindings.get?_eq_none_iff.1 hnone, fun r hr awaits => ?_⟩
    obtain ⟨-, hiff⟩ := awaits_of_prepared hresolve hvalidate r hr ref awaits
    exact Rule.matchesNobody_of_indeterminate awaits.1 (hiff.2 (Or.inl hnone))
  · obtain ⟨m, hm, rfl⟩ := List.mem_map.1 hmessage
    obtain ⟨r₀, hr₀, hmisfit⟩ := (mem_misfits_iff hresolve hvalidate).1 hm
    obtain ⟨rfl, takes, a, value, defined, hget, rejected⟩ := Rule.misfit?_eq_some_iff.1 hmisfit
    refine ⟨m, hm, rfl, ⟨a, value, defined, hget, rejected⟩, fun r hr concerns => ?_⟩
    obtain ⟨awaits, hop, hid⟩ := concerns
    obtain ⟨-, hiff⟩ := awaits_of_prepared hresolve hvalidate r hr m.reference awaits
    rw [hop, hid] at hiff
    exact Rule.matchesNobody_of_indeterminate awaits.1 (hiff.2 (Or.inr ⟨m, hmisfit⟩))
  · exact Rule.verdict_of_idle idle _

/-- A region that is left open and a level that is no number: two notes, and two rules that fail for
everybody. -/
theorem unusable_answers_of_open_region :
    ∃ (catalog : Catalog) (query : Query Operand) (bindings : Bindings) (resolution : Resolution)
      (validation : Validation),
      catalog = ⟨"team", "org", [⟨"region", "Region", .text, []⟩, ⟨"level", "Level", .number, []⟩],
        []⟩ ∧
      query = .group .or [.rule ⟨"region", .noneIn, some (.dynamic ⟨"field", "region"⟩)⟩,
        .rule ⟨"level", .notEquals, some (.dynamic ⟨"field", "level"⟩)⟩,
        .rule ⟨"region", .isEmpty, some (.dynamic ⟨"field", "region"⟩)⟩] ∧
      bindings = ⟨⟨[("field", ⟨[("level", .single (.text "top")),
        ("region", .single (.text " "))]⟩)]⟩⟩ ∧
      (query.resolve (.ofList [formSource]) bindings = .ok resolution ∧
        resolution.tree.validate catalog = .ok validation ∧
        ∀ r ∈ validation.tree.rules, ∀ ref, r.operator.takesOperand = true →
          r.operand = some (.indeterminate ref) → r.MatchesNobody) ∧
      resolution.warnings = ["dynamic operand \x7bfield:region\x7d has no bound value"] ∧
      validation.warnings = ["dynamic operand \x7bfield:level\x7d does not fit NOT_EQUALS on " ++
        "attribute 'level': expected a numeric value"] := by
  have hnobody : ∀ {catalog : Catalog} {query : Query Operand} {bindings : Bindings}
      {resolution : Resolution} {validation : Validation},
      query.resolve (.ofList [formSource]) bindings = .ok resolution →
      resolution.tree.validate catalog = .ok validation →
      query.resolve (.ofList [formSource]) bindings = .ok resolution ∧
        resolution.tree.validate catalog = .ok validation ∧
        ∀ r ∈ validation.tree.rules, ∀ ref, r.operator.takesOperand = true →
          r.operand = some (.indeterminate ref) → r.MatchesNobody := by
    intro catalog query bindings resolution validation hresolve hvalidate
    obtain ⟨hrules, -⟩ := unusable_answers hresolve hvalidate
    exact ⟨hresolve, hvalidate, fun r hr ref takes h => (hrules r hr ref takes h).1⟩
  exact ⟨_, _, _, ⟨_, _⟩, ⟨_, _⟩, rfl, rfl, rfl, hnobody rfl rfl, rfl, rfl⟩

/-- **A test for emptiness may hold although its reference has no answer.**  The region of the
booking is said to be missing, and still the rule is true of a member without a region. -/
theorem isEmpty_of_open_region :
    ∃ (catalog : Catalog) (query : Query Operand) (resolution : Resolution)
      (validation : Validation) (r : Rule ResolvedOperand),
      catalog = ⟨"team", "org", [⟨"region", "Region", .text, []⟩], []⟩ ∧
      query = .rule ⟨"region", .isEmpty, some (.dynamic ⟨"field", "region"⟩)⟩ ∧
      query.resolve (.ofList [formSource]) {} = .ok resolution ∧
      resolution.tree.validate catalog = .ok validation ∧
      resolution.warnings = ["dynamic operand \x7bfield:region\x7d has no bound value"] ∧
      r ∈ validation.tree.rules ∧ r.operand = some (.indeterminate ⟨"field", "region"⟩) ∧
      ¬ r.MatchesNobody := by
  refine ⟨_, _, ⟨_, _⟩, ⟨_, _⟩, _, rfl, rfl, rfl, rfl, rfl, List.mem_singleton_self _, rfl, ?_⟩
  intro nobody
  cases nobody ⟨∅⟩ {}

end Query

end TeamRouting
