import TeamRouting.Proofs.BindingIndependence
import TeamRouting.Proofs.Cancellation
import TeamRouting.Proofs.MeaningPreservation

/-!
# Missing answers

A booking that leaves questions open is treated with caution: a rule whose answer is missing matches
nobody, even if it asks for a value to differ.  So the fewer answers there are, the fewer members
match a tree.

* `Bindings.Within` — one set of answers leaves open some of what another one answers;
* `Rule.Means.of_within` — what a rule says with fewer answers it says with more;
* `Query.Holds.mono` — AND and OR pass that on to any depth;
* `Engine.evaluate_of_within` — so prepared trees are satisfied by fewer members;
* `Engine.run_of_missing_answers` — and runs match fewer.
-/

namespace TeamRouting

/-! ## Fewer answers -/

/-- On these references `b'` answers as `b` does, or not at all. -/
def Bindings.Within (b' b : Bindings) (references : List Reference) : Prop :=
  ∀ ref ∈ references, b'.get? ref = none ∨ b'.get? ref = b.get? ref

instance {b' b : Bindings} {references : List Reference} :
    Decidable (b'.Within b references) :=
  inferInstanceAs (Decidable (∀ ref ∈ references, b'.get? ref = none ∨ b'.get? ref = b.get? ref))

variable {b b' : Bindings} {catalog : Catalog} {values : MemberValues}

/-- A reference supplies what is answered and nothing else. -/
theorem Operand.Supplies.of_within {op : Operator} {a : Attribute} {operand : Operand}
    {value : Literal} (within : b'.Within b operand.reference?.toList)
    (h : operand.Supplies b' op a value) : operand.Supplies b op a value := by
  cases h with
  | literal value => exact .literal value
  | @bound ref value found fits =>
      rcases within ref (List.mem_singleton_self ref) with hnone | hsame
      · rw [hnone] at found
        cases found
      · rw [hsame] at found
        exact .bound found fits

/-- **A rule fails closed.**  Whatever it says of a member with fewer answers, it says with more; in
particular no operator holds because its answer is missing. -/
theorem Rule.Means.of_within {r : Rule Operand}
    (within : ∀ operand, r.operand = some operand → b'.Within b operand.reference?.toList)
    (h : r.Means catalog b' values) : r.Means catalog b values := by
  cases takes : r.operator.takesOperand with
  | false =>
      -- the tests for emptiness look at no operand
      obtain ⟨attributeId, op, operand⟩ := r
      cases op <;> first | exact h | cases takes
  | true =>
      rw [Rule.means_iff takes] at h ⊢
      obtain ⟨a, operand, value, ha, hoperand, supplies, compares⟩ := h
      exact ⟨a, operand, value, ha, hoperand, supplies.of_within (within operand hoperand),
        compares⟩

/-! ## Trees -/

namespace Query

variable {ω : Type} {φ ψ : Rule ω → Prop}

mutual

/-- A tree of rules that hold less often holds less often itself: there is no negation in it. -/
theorem Holds.mono : ∀ q : Query ω, (∀ r ∈ q.rules, φ r → ψ r) → q.Holds φ → q.Holds ψ
  | .group .and qs, h => HoldsAll.mono qs h
  | .group .or qs, h => HoldsAny.mono qs h
  | .rule r, h => h r (List.mem_singleton_self r)

theorem HoldsAll.mono :
    ∀ qs : List (Query ω), (∀ r ∈ rulesOfAll qs, φ r → ψ r) → HoldsAll φ qs → HoldsAll ψ qs
  | [], _ => id
  | q :: qs, h => by
      have hq := Holds.mono q fun r hr => h r (List.mem_append_left _ hr)
      have hqs := HoldsAll.mono qs fun r hr => h r (List.mem_append_right _ hr)
      exact And.imp hq hqs

theorem HoldsAny.mono :
    ∀ qs : List (Query ω), (∀ r ∈ rulesOfAll qs, φ r → ψ r) → HoldsAny φ qs → HoldsAny ψ qs
  | [], _ => id
  | q :: qs, h => by
      have hq := Holds.mono q fun r hr => h r (List.mem_append_left _ hr)
      have hqs := HoldsAny.mono qs fun r hr => h r (List.mem_append_right _ hr)
      exact Or.imp hq hqs

end

/-- What a tree says of a member with fewer answers it says with more. -/
theorem holds_means_of_within {query : Query Operand} (within : b'.Within b query.references)
    (h : query.Holds (Rule.Means catalog b' values)) :
    query.Holds (Rule.Means catalog b values) := by
  refine Holds.mono query (fun r hr => ?_) h
  refine Rule.Means.of_within fun operand hoperand ref href => within ref ?_
  refine List.mem_filterMap.2 ⟨r, hr, ?_⟩
  rw [hoperand, Option.bind_some]
  exact Option.mem_toList.1 href

end Query

/-! ## Prepared trees -/

namespace Engine

variable {engine : Engine} {query : Query Operand} {plan plan' : Plan}

/-- A prepared tree says what the authored one does. -/
theorem evaluate_plan_iff (h : engine.prepare catalog b query = .ok plan) (t : Tally) :
    (plan.tree.evaluate values t).1 = true ↔ query.Holds (Rule.Means catalog b values) := by
  obtain ⟨resolution, validation, hresolve, hvalidate, htree⟩ := prepares_of_prepare_ok h
  obtain ⟨g, hmap, hg⟩ := exists_of_resolve_validate hresolve hvalidate
  rw [Query.evaluate_iff_holds, ← htree, hmap]
  refine Query.holds_mapRules query fun r hr => ?_
  obtain ⟨resolved, unbound, misfits, hresolved, hvalidated⟩ := hg r hr
  exact Rule.verdict_iff_means values hresolved hvalidated

/-- **Whoever satisfies a tree with fewer answers satisfies it with more**, by any strategy. -/
theorem evaluate_of_within (within : b'.Within b query.references)
    (h : engine.prepare catalog b query = .ok plan)
    (h' : engine.prepare catalog b' query = .ok plan') (strategy : Strategy) {t t' : Tally}
    (satisfied : (strategy.evaluate plan'.tree values t').1 = true) :
    (strategy.evaluate plan.tree values t).1 = true := by
  cases strategy with
  | attributeLogic =>
      refine (evaluate_plan_iff h t).2 (Query.holds_means_of_within within ?_)
      exact (evaluate_plan_iff h' t').1 satisfied
  | matchAll => rfl

/-- A tree that can be prepared with some answers can be prepared with any. -/
theorem exists_prepare_of_prepare (b' : Bindings)
    (h : engine.prepare catalog b query = .ok plan) :
    ∃ plan', engine.prepare catalog b' query = .ok plan' := by
  rw [← fault?_eq_none_iff, fault?_prepare_eq engine catalog b' b, h, fault?_ok]

/-! ## Runs -/

/-- A run without a fallback tree concludes with the survey of the primary one. -/
theorem run_of_primary {explained : Bool} {signal : Signal} (rules : query.rules ≠ [])
    (prepared : engine.prepare catalog b query = .ok plan) :
    engine.run catalog { primary := some query, bindings := b, explain := explained } signal
      = .ok (engine.conclude signal catalog explained plan none) := by
  have sparePrepared : engine.prepare? catalog b none = .ok none := rfl
  exact @run_of_prepared engine catalog
    { primary := some query, bindings := b, explain := explained } query plan none signal rfl rules
    prepared sparePrepared

theorem exists_prepare_of_run {input : MatchInput} {signal : Signal} {o : Outcome}
    (given : input.primary = some query) (rules : query.rules ≠ [])
    (h : engine.run catalog input signal = .ok o) :
    ∃ plan, engine.prepare catalog input.bindings query = .ok plan := by
  obtain ⟨plan, -, prepared, -, -⟩ := (run_eq_ok_iff given rules).1 h
  exact ⟨plan, prepared⟩

/-- A run that is called off matches nobody. -/
theorem conclude_matched_of_canceled {signal : Signal} {explained : Bool} {spare : Option Plan}
    (canceled : (engine.conclude signal catalog explained plan spare).canceled = true) :
    (engine.conclude signal catalog explained plan spare).matched = ∅ :=
  if_pos canceled

/-- Without a fallback tree a run that is not called off matches whoever satisfies the primary
one. -/
theorem mem_conclude_matched_iff {signal : Signal} {explained : Bool} {id : String}
    (finished : (engine.conclude signal catalog explained plan none).canceled = false) :
    id ∈ (engine.conclude signal catalog explained plan none).matched ↔
      engine.Matches catalog plan.tree id := by
  have hnone : engine.fallbackSurvey .never catalog (engine.survey .never 0 catalog plan) none
      = none := by
    rw [fallbackSurvey_of_never _ survey_canceled, Option.map_none, ite_self]
  rw [conclude_of_finished finished]
  exact (conclude_of_first hnone).matched id

/-- Called off or not, without a fallback tree only who satisfies the primary one is matched. -/
theorem matches_of_mem_conclude {signal : Signal} {explained : Bool} {id : String}
    (hid : id ∈ (engine.conclude signal catalog explained plan none).matched) :
    engine.Matches catalog plan.tree id := by
  cases canceled : (engine.conclude signal catalog explained plan none).canceled with
  | true =>
      rw [conclude_matched_of_canceled canceled] at hid
      exact absurd hid NameSet.not_mem_empty
  | false => exact (mem_conclude_matched_iff canceled).1 hid

/-- **Missing answers only ever remove matches.**  Take a tree and two sets of answers, one of which
leaves open some of the questions of the tree.  If the tree can be prepared with the other, it can
be prepared with this one, and whoever satisfies it then satisfies it with all the answers.  So the
run with fewer answers matches nobody whom the run with all of them does not match. -/
theorem run_of_missing_answers (engine : Engine) (catalog : Catalog) (query : Query Operand)
    {b b' : Bindings} (missing : b'.Within b query.references) :
    (∀ plan, engine.prepare catalog b query = .ok plan →
        ∃ plan', engine.prepare catalog b' query = .ok plan' ∧
          ∀ (strategy : Strategy) (values : MemberValues) (t t' : Tally),
            (strategy.evaluate plan'.tree values t').1 = true →
              (strategy.evaluate plan.tree values t).1 = true) ∧
      (query.rules ≠ [] → ∀ (explained : Bool) (signal signal' : Signal) (o : Outcome),
        engine.run catalog { primary := some query, bindings := b, explain := explained } signal
            = .ok o → o.canceled = false →
          ∃ o', engine.run catalog { primary := some query, bindings := b', explain := explained }
              signal' = .ok o' ∧ ∀ id, id ∈ o'.matched → id ∈ o.matched) := by
  constructor
  · intro plan h
    obtain ⟨plan', h'⟩ := exists_prepare_of_prepare b' h
    exact ⟨plan', h', fun strategy values t t' => evaluate_of_within missing h h' strategy⟩
  · intro rules explained signal signal' o hrun finished
    obtain ⟨plan, h⟩ := exists_prepare_of_run rfl rules hrun
    obtain ⟨plan', h'⟩ := exists_prepare_of_prepare b' h
    rw [run_of_primary rules h] at hrun
    cases hrun
    refine ⟨_, run_of_primary rules h', fun id matched => ?_⟩
    obtain ⟨m, hm, hid, satisfied⟩ := matches_of_mem_conclude matched
    refine (mem_conclude_matched_iff finished).2 ⟨m, hm, hid, ?_⟩
    exact evaluate_of_within missing h h' engine.strategy satisfied

/-- "Not in the region of the booking": with the region answered the member in the other one
matches, and with the question left open nobody does. -/
theorem run_of_open_region :
    ∃ o o' : Outcome,
      ({} : Engine).run ⟨"team", "org", [⟨"region", "Region", .text, []⟩],
          [⟨"a", ⟨[("region", ["eu"])]⟩⟩, ⟨"b", ⟨[("region", ["us"])]⟩⟩]⟩
        { primary := some (.rule ⟨"region", .notEquals, some (.dynamic ⟨"field", "region"⟩)⟩),
          bindings := ⟨⟨[("field", ⟨[("region", .single (.text "us"))]⟩)]⟩⟩ } .never = .ok o ∧
      o.isMatched "a" = true ∧
      ({} : Engine).run ⟨"team", "org", [⟨"region", "Region", .text, []⟩],
          [⟨"a", ⟨[("region", ["eu"])]⟩⟩, ⟨"b", ⟨[("region", ["us"])]⟩⟩]⟩
        { primary := some (.rule ⟨"region", .notEquals, some (.dynamic ⟨"field", "region"⟩)⟩),
          bindings := {} } .never = .ok o' ∧
      ∀ id, id ∈ o'.matched → id ∈ o.matched := by
  have missing : ({} : Bindings).Within ⟨⟨[("field", ⟨[("region", .single (.text "us"))]⟩)]⟩⟩
      (Query.rule ⟨"region", .notEquals, some (.dynamic ⟨"field", "region"⟩)⟩).references := by
    decide
  obtain ⟨o, hrun, ha, finished⟩ : ∃ o : Outcome,
      ({} : Engine).run ⟨"team", "org", [⟨"region", "Region", .text, []⟩],
          [⟨"a", ⟨[("region", ["eu"])]⟩⟩, ⟨"b", ⟨[("region", ["us"])]⟩⟩]⟩
        { primary := some (.rule ⟨"region", .notEquals, some (.dynamic ⟨"field", "region"⟩)⟩),
          bindings := ⟨⟨[("field", ⟨[("region", .single (.text "us"))]⟩)]⟩⟩ } .never = .ok o ∧
        o.isMatched "a" = true ∧ o.canceled = false := ⟨_, rfl, rfl, rfl⟩
  obtain ⟨o', hrun', hsub⟩ :=
    (run_of_missing_answers {} _ _ missing).2 (List.cons_ne_nil _ _) false .never .never o hrun
      finished
  exact ⟨o, o', hrun, ha, hrun', hsub⟩

end Engine

end TeamRouting
