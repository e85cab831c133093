import TeamRouting.Proofs.Acceptance
import TeamRouting.Proofs.Interchange

/-!
# Answers written in place of their references

A reference that a booking answers behaves as if its author had written the answer.  Whether it was
supplied or written, the value takes the same form and compares alike, and it is taken as it is: a
text that looks like a reference is not looked up again.

Writing a value has its price, since a written one must fit; this is why the written tree is asked
to be without fault and the other one follows, not the other way round.

* `Query.substitute` — the answers written in place of the references;
* `ResolvedOperand.Written` — a supplied value and the same one as if it were written;
* `resolveRule_of_substitute`, `validateRule_of_written` — both passes keep the two apart in this
  one respect and no other;
* `Rule.Written.interchangeable` — which evaluation does not look at;
* `Engine.exists_prepare_of_substitute` — so the plans of the two trees are interchangeable;
* `Engine.run_substitute` — and their runs agree.
-/

namespace TeamRouting

/-! ## Substitution -/

/-- The answer written in place of a reference, if there is one. -/
def Operand.substitute (b : Bindings) : Operand → Operand
  | literal value => literal value
  | dynamic r => ((b.get? r).map literal).getD (dynamic r)

def Rule.substitute (b : Bindings) (r : Rule Operand) : Rule Operand :=
  ⟨r.attributeId, r.operator, r.operand.map (Operand.substitute b)⟩

/-- The answers written in place of the references of a tree. -/
def Query.substitute (b : Bindings) (query : Query Operand) : Query Operand :=
  query.mapOperands (Operand.substitute b)

/-- The answers written in place of the references of both trees. -/
def MatchInput.substitute (input : MatchInput) : MatchInput :=
  { input with
    primary := input.primary.map (Query.substitute input.bindings)
    fallback := input.fallback.map (Query.substitute input.bindings) }

theorem Query.substitute_eq_mapRules (b : Bindings) (query : Query Operand) :
    query.substitute b = query.mapRules (Rule.substitute b) := rfl

theorem Query.rules_substitute (b : Bindings) (query : Query Operand) :
    (query.substitute b).rules = query.rules.map (Rule.substitute b) := by
  rw [substitute_eq_mapRules, rules_mapRules]

/-! ## Supplied and written values -/

/-- The second operand is the first one, or the value that this one was supplied with, as if it
were written. -/
inductive ResolvedOperand.Written : ResolvedOperand → ResolvedOperand → Prop
  | same (o : ResolvedOperand) : Written o o
  | value (value : Literal) (r : Reference) : Written (.bound value r) (.static value)

/-- Rules that differ in that at most. -/
structure Rule.Written (r r' : Rule ResolvedOperand) : Prop where
  attributeId : r.attributeId = r'.attributeId
  operator : r.operator = r'.operator
  operand : Option.Rel ResolvedOperand.Written r.operand r'.operand

theorem ResolvedOperand.Written.value?_eq {o o' : ResolvedOperand} (h : o.Written o') :
    o.value? = o'.value? := by
  cases h <;> rfl

/-- **Evaluation does not look at where a value comes from.** -/
theorem Rule.Written.interchangeable {r r' : Rule ResolvedOperand} (h : r.Written r') :
    r.Interchangeable r' := by
  obtain ⟨attributeId, op, operand⟩ := r
  obtain ⟨attributeId', op', operand'⟩ := r'
  obtain ⟨rfl, rfl, hoperand⟩ := h
  have hvalue : operand.bind ResolvedOperand.value? = operand'.bind ResolvedOperand.value? := by
    cases hoperand with
    | none => rfl
    | some ho => exact ho.value?_eq
  refine ⟨rfl, fun values => ?_⟩
  unfold Rule.verdict
  rw [hvalue]
  rfl

/-! ## Resolution -/

variable {known : NameSet} {catalog : Catalog} {b : Bindings}

theorem resolveOperand_of_substitute {operand : Operand} {o' : ResolvedOperand}
    {unbound : List Reference}
    (hknown : ∀ r ∈ operand.reference?, known.contains r.source = true)
    (h : resolveOperand known b (operand.substitute b) = .ok (o', unbound)) :
    ∃ o, resolveOperand known b operand = .ok (o, unbound) ∧ o.Written o' := by
  cases operand with
  | literal value => exact ⟨o', h, .same o'⟩
  | dynamic r =>
      cases hget : b.get? r with
      | none =>
          rw [Operand.substitute, hget] at h
          exact ⟨o', h, .same o'⟩
      | some value =>
          -- what is written is a literal, whatever its text looks like
          rw [Operand.substitute, hget] at h
          cases h
          refine ⟨.bound value r, ?_, .value value r⟩
          rw [resolveOperand, if_pos (hknown r rfl), hget]

theorem resolveRule_of_substitute {r : Rule Operand} {s' : Rule ResolvedOperand}
    {unbound : List Reference}
    (hknown : ∀ ref ∈ r.operand.bind Operand.reference?, known.contains ref.source = true)
    (h : resolveRule known b (r.substitute b) = .ok (s', unbound)) :
    ∃ s, resolveRule known b r = .ok (s, unbound) ∧ s.Written s' := by
  obtain ⟨attributeId, op, operand⟩ := r
  obtain ⟨hid, hop, hoperand⟩ := resolveRule_cases h
  cases operand with
  | none =>
      cases h
      exact ⟨_, rfl, rfl, rfl, .none⟩
  | some operand =>
      rcases hoperand with ⟨hnone, -⟩ | ⟨operand', o', hsome, ho', hresolve⟩
      · cases hnone
      · cases hsome
        obtain ⟨o, ho, written⟩ := resolveOperand_of_substitute hknown hresolve
        refine ⟨⟨attributeId, op, some o⟩, ?_, hid.symm, hop.symm, ?_⟩
        · simp only [resolveRule, ho]
        · rw [ho']
          exact .some written

/-! ## Validation -/

/-- A written value that fits fits as a supplied one and takes the same form. -/
theorem validateOperand_of_written {op : Operator} {a : Attribute}
    {o o' form' : ResolvedOperand} {misfits : List Misfit} (written : o.Written o')
    (h : validateOperand op a o' = .ok (form', misfits)) :
    ∃ form, validateOperand op a o = .ok (form, misfits) ∧ form.Written form' := by
  cases written with
  | same o => exact ⟨form', h, .same form'⟩
  | value value r =>
      -- a written value with a flaw is a fault, and there was none
      cases validatesTo_of_ok h with
      | @static _ form fits hform =>
          refine ⟨.bound form r, ?_, .value form r⟩
          rw [validateOperand, fits, form_eq_suppliedForm hform]

theorem validateRule_of_written {r r' v' : Rule ResolvedOperand} {misfits : List Misfit}
    (written : r.Written r') (h : validateRule catalog r' = .ok (v', misfits)) :
    ∃ v, validateRule catalog r = .ok (v, misfits) ∧ v.Written v' := by
  obtain ⟨attributeId, op, operand⟩ := r
  obtain ⟨attributeId', op', operand'⟩ := r'
  obtain ⟨rfl, rfl, hoperand⟩ := written
  obtain ⟨hid, hop, a, ha, allowed, idle | ⟨takes, o', form', ho', hform', hvalidate⟩⟩ :=
    validateRule_cases h
  · -- the operand is not looked at and stays as it is
    have hidle : ∀ operand, validateRule catalog ⟨attributeId, op, operand⟩
        = .ok (⟨attributeId, op, operand⟩, []) := by
      intro operand
      simp only [validateRule, ha]
      exact validateRuleOn_of_idle (List.contains_iff_mem.1 allowed) idle
    rw [hidle] at h
    cases h
    exact ⟨_, hidle operand, rfl, rfl, hoperand⟩
  · cases hoperand with
    | none => cases ho'
    | some written =>
        cases ho'
        obtain ⟨form, hform, hwritten⟩ := validateOperand_of_written written hvalidate
        refine ⟨⟨attributeId, op, some form⟩, ?_, hid.symm, hop.symm, ?_⟩
        · simp only [validateRule, ha, validateRuleOn, allowed, takes, hform, Bool.not_true,
            Bool.false_eq_true, if_false]
        · rw [hform']
          exact .some hwritten

/-! ## Trees -/

namespace Query

/-- Resolution of a tree with the answers written in it, and of the tree without. -/
theorem exists_resolve_of_substitute {query : Query Operand} {resolution' : Resolution}
    (hknown : ∀ ref ∈ query.references, known.contains ref.source = true)
    (h : (query.substitute b).resolve known b = .ok resolution') :
    ∃ resolution, query.resolve known b = .ok resolution ∧
      resolution.unbound = resolution'.unbound ∧
      ∃ g g' : Rule Operand → Rule ResolvedOperand, (∀ r ∈ query.rules, (g r).Written (g' r)) ∧
        resolution.tree = query.mapRules g ∧ resolution'.tree = query.mapRules g' := by
  obtain ⟨noted, hwalk', hunbound⟩ := resolve_eq_ok_iff.1 h
  rw [substitute_eq_mapRules, traverse_mapRules] at hwalk'
  have step : ∀ r ∈ query.rules, ∀ s' unbound,
      (resolveRule known b ∘ Rule.substitute b) r = .ok (s', unbound) →
        ∃ s, resolveRule known b r = .ok (s, unbound) ∧ s.Written s' := by
    intro r hr s' unbound hs'
    refine resolveRule_of_substitute (fun ref href => hknown ref ?_) hs'
    exact List.mem_filterMap.2 ⟨r, hr, href⟩
  obtain ⟨g, g', written, hwalk, htree⟩ := exists_of_traverse_in_step step hwalk'
  refine ⟨⟨query.mapRules g, noted.eraseDups⟩, ?_, hunbound.symm, g, g', written, rfl, htree⟩
  exact resolve_eq_ok_iff.2 ⟨noted, hwalk, rfl⟩

/-- Validation of trees that differ in what was written.  The tree with more of it decides. -/
theorem exists_validate_of_written {ω : Type} {query : Query ω}
    {g g' : Rule ω → Rule ResolvedOperand} {validation' : Validation}
    (written : ∀ r ∈ query.rules, (g r).Written (g' r))
    (h : (query.mapRules g').validate catalog = .ok validation') :
    ∃ validation, (query.mapRules g).validate catalog = .ok validation ∧
      validation.misfits = validation'.misfits ∧
      ∀ values t, validation.tree.evaluate values t = validation'.tree.evaluate values t := by
  have hwalk' := validate_eq_ok_iff.1 h
  rw [traverse_mapRules] at hwalk'
  have step : ∀ r ∈ query.rules, ∀ v' misfits, (validateRule catalog ∘ g') r = .ok (v', misfits) →
      ∃ v, (validateRule catalog ∘ g) r = .ok (v, misfits) ∧ v.Written v' :=
    fun r hr v' misfits hv' => validateRule_of_written (written r hr) hv'
  obtain ⟨v, v', hwritten, hwalk, htree⟩ := exists_of_traverse_in_step step hwalk'
  rw [← traverse_mapRules] at hwalk
  refine ⟨⟨query.mapRules v, validation'.misfits⟩, validate_eq_ok_iff.2 hwalk, rfl, ?_⟩
  intro values t
  rw [htree]
  exact evaluate_mapRules_congr values query t fun r hr => (hwritten r hr).interchangeable

end Query

/-! ## Plans -/

namespace Engine

variable {engine : Engine} {query : Query Operand} {plan' : Plan}

/-- **A tree with the answers written in it prepares the plan of the tree without.** -/
theorem exists_prepare_of_substitute
    (hknown : ∀ ref ∈ query.references, engine.sources.contains ref.source = true)
    (h : engine.prepare catalog b (query.substitute b) = .ok plan') :
    ∃ plan, engine.prepare catalog b query = .ok plan ∧ plan.Interchangeable plan' := by
  obtain ⟨resolution', validation', hresolve, hvalidate, rfl⟩ := prepare_eq_ok_iff.1 h
  obtain ⟨resolution, hr, unbound, g, g', written, htree, htree'⟩ :=
    Query.exists_resolve_of_substitute hknown hresolve
  rw [htree'] at hvalidate
  obtain ⟨validation, hv, misfits, same⟩ := Query.exists_validate_of_written written hvalidate
  rw [← htree] at hv
  refine ⟨_, prepare_eq_ok_iff.2 ⟨resolution, validation, hr, hv, rfl⟩, ?_, same⟩
  simp only [Resolution.warnings, Validation.warnings, unbound, misfits]

theorem exists_prepare?_of_substitute {spare : Option (Query Operand)}
    (hknown : ∀ q, spare = some q → ∀ ref ∈ q.references,
      engine.sources.contains ref.source = true)
    (h : ∀ q, spare = some q → ∃ plan, engine.prepare catalog b (q.substitute b) = .ok plan) :
    ∃ plan plan', engine.prepare? catalog b spare = .ok plan ∧
      engine.prepare? catalog b (spare.map (Query.substitute b)) = .ok plan' ∧
      Option.Rel Plan.Interchangeable plan plan' := by
  cases spare with
  | none => exact ⟨none, none, rfl, rfl, .none⟩
  | some q =>
      obtain ⟨plan', h'⟩ := h q rfl
      obtain ⟨plan, hplan, same⟩ := exists_prepare_of_substitute (hknown q rfl) h'
      refine ⟨some plan, some plan', ?_, ?_, .some same⟩
      · rw [prepare?, hplan]
        rfl
      · rw [Option.map_some, prepare?, h']
        rfl

/-- Nothing is decided by a tree with the answers written in it if nothing is by the tree
without. -/
theorem run_substitute_of_nothing {input : MatchInput} (nothing : input.DecidesNothing)
    (signal : Signal) :
    ∃ o o', engine.run catalog input signal = .ok o ∧
      engine.run catalog input.substitute signal = .ok o' ∧ o.AgreesWith o' := by
  have nothing' : input.substitute.DecidesNothing := by
    intro q' hq'
    obtain ⟨q, hq, rfl⟩ := Option.map_eq_some_iff.1 hq'
    rw [Query.rules_substitute, nothing q hq, List.map_nil]
  exact run_agreesWith_of_nothing engine catalog nothing nothing' Option.isSome_map.symm rfl signal

/-- **A reference behaves exactly like the literal that it is bound to.**  Take trees whose
references all name sources that exist, and write into them what their references are bound to.  If
both can be prepared with that written in them, they can be prepared as they are, and the two runs
agree in everything but the trees that they show. -/
theorem run_substitute (engine : Engine) (catalog : Catalog) (input : MatchInput)
    (known : ∀ ref ∈ input.references, engine.sources.contains ref.source = true)
    (prepared : ∀ q, input.primary = some q ∨ input.fallback = some q →
      ∃ plan, engine.prepare catalog input.bindings (q.substitute input.bindings) = .ok plan) :
    (∀ q, input.primary = some q ∨ input.fallback = some q →
        ∃ plan, engine.prepare catalog input.bindings q = .ok plan) ∧
      ∀ signal, ∃ o o', engine.run catalog input signal = .ok o ∧
        engine.run catalog input.substitute signal = .ok o' ∧ o.AgreesWith o' := by
  have hknown : ∀ q, input.primary = some q ∨ input.fallback = some q →
      ∀ ref ∈ q.references, engine.sources.contains ref.source = true :=
    fun q hq ref href => known ref (MatchInput.mem_references.2 ⟨q, hq, href⟩)
  constructor
  · intro q hq
    obtain ⟨plan', h'⟩ := prepared q hq
    obtain ⟨plan, hplan, -⟩ := exists_prepare_of_substitute (hknown q hq) h'
    exact ⟨plan, hplan⟩
  · intro signal
    by_cases nothing : input.DecidesNothing
    · exact run_substitute_of_nothing nothing signal
    · rw [MatchInput.DecidesNothing] at nothing
      push Not at nothing
      obtain ⟨primary, given, rules⟩ := nothing
      have given' : input.substitute.primary = some (primary.substitute input.bindings) :=
        congrArg (Option.map _) given
      have rules' : (primary.substitute input.bindings).rules ≠ [] := by
        rw [Query.rules_substitute]
        simpa using rules
      obtain ⟨plan', h'⟩ := prepared primary (Or.inl given)
      obtain ⟨plan, h, same⟩ := exists_prepare_of_substitute (hknown primary (Or.inl given)) h'
      obtain ⟨spare, spare', hspare, hspare', sameSpare⟩ :=
        exists_prepare?_of_substitute (fun q hq => hknown q (Or.inr hq))
          fun q hq => prepared q (Or.inr hq)
      refine ⟨_, _, run_of_prepared given rules h hspare, ?_, conclude_agreesWith same sameSpare⟩
      exact run_of_prepared given' rules' h' hspare'

/-- A booking that answers one question with what looks like a reference to another one: the member
whose value reads just so is matched, as if the author had written the text. -/
theorem run_substitute_of_template :
    ∃ o o' : Outcome,
      ({} : Engine).run ⟨"team", "org", [⟨"note", "Note", .text, []⟩],
          [⟨"a", ⟨[("note", ["{field:b}"])]⟩⟩, ⟨"b", ⟨[("note", ["x"])]⟩⟩]⟩
        { primary := some (.rule ⟨"note", .equals, some (.dynamic ⟨"field", "a"⟩)⟩),
          bindings := ⟨⟨[("field", ⟨[("a", .single (.text "{field:b}")),
            ("b", .single (.text "x"))]⟩)]⟩⟩ } .never = .ok o ∧
      ({} : Engine).run ⟨"team", "org", [⟨"note", "Note", .text, []⟩],
          [⟨"a", ⟨[("note", ["{field:b}"])]⟩⟩, ⟨"b", ⟨[("note", ["x"])]⟩⟩]⟩
        { primary := some (.rule ⟨"note", .equals,
            some (.literal (.single (.text "{field:b}")))⟩),
          bindings := ⟨⟨[("field", ⟨[("a", .single (.text "{field:b}")),
            ("b", .single (.text "x"))]⟩)]⟩⟩ } .never = .ok o' ∧
      o.AgreesWith o' ∧ o'.isMatched "a" = true ∧ o'.isMatched "b" = false := by
  have prepared : ∀ q, (some (Query.rule ⟨"note", .equals, some (.dynamic ⟨"field", "a"⟩)⟩)
        = some q ∨ none = some q) →
      ∃ plan, ({} : Engine).prepare ⟨"team", "org", [⟨"note", "Note", .text, []⟩],
          [⟨"a", ⟨[("note", ["{field:b}"])]⟩⟩, ⟨"b", ⟨[("note", ["x"])]⟩⟩]⟩
        ⟨⟨[("field", ⟨[("a", .single (.text "{field:b}")), ("b", .single (.text "x"))]⟩)]⟩⟩
        (q.substitute ⟨⟨[("field", ⟨[("a", .single (.text "{field:b}")),
          ("b", .single (.text "x"))]⟩)]⟩⟩) = .ok plan := by
    intro q hq
    obtain rfl := Option.some.inj (hq.resolve_right (Option.some_ne_none q).symm)
    exact ⟨_, rfl⟩
  obtain ⟨o, o', hrun, hrun', same⟩ := (run_substitute {} _
    { primary := some (.rule ⟨"note", .equals, some (.dynamic ⟨"field", "a"⟩)⟩),
      bindings := ⟨⟨[("field", ⟨[("a", .single (.text "{field:b}")),
        ("b", .single (.text "x"))]⟩)]⟩⟩ } (by decide) prepared).2 .never
  cases hrun'
  exact ⟨o, _, hrun, rfl, same, rfl, rfl⟩

end Engine

end TeamRouting
