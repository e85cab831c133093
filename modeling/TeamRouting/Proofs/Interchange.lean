import TeamRouting.Proofs.Protocol

/-!
# Plans that may stand in for each other

A run reads two things of a prepared tree: what was noticed while it was prepared, and what
evaluating it comes to for a member.  Plans that are alike in both may take each other's place, and
nobody but a reader of the trees themselves can tell.

* `Query.evaluate_mapRules_congr` — trees of one shape evaluate alike if their rules do;
* `Pass.members_congr` — a pass looks at evaluations, not at the tree;
* `Plan.Interchangeable` — plans that are alike in what a run reads of them;
* `Outcome.AgreesWith` — outcomes that are alike in all but the trees that they show;
* `Engine.conclude_agreesWith` — interchangeable plans lead to outcomes that agree, wherever a
  signal is raised;
* `EndAlike` — two attempts that fail with one fault, or succeed with related results;
* `Engine.run_endAlike` — so runs end alike if the preparation of their trees does.
-/

namespace TeamRouting

/-! ## Trees of one shape -/

/-- Rules about one attribute that come to the same verdict on whatever values a member has. -/
structure Rule.Interchangeable (r r' : Rule ResolvedOperand) : Prop where
  attributeId : r.attributeId = r'.attributeId
  verdict : ∀ values, r.verdict values = r'.verdict values

namespace Query

variable {ω : Type} {g g' : Rule ω → Rule ResolvedOperand}

mutual

/-- **Trees of one shape evaluate alike if their rules do.** -/
theorem evaluate_mapRules_congr (values : MemberValues) :
    ∀ (q : Query ω) (t : Tally), (∀ r ∈ q.rules, (g r).Interchangeable (g' r)) →
      evaluate values (mapRules g q) t = evaluate values (mapRules g' q) t
  | .group .and qs, t, h => by
      rw [mapRules, mapRules, evaluate, evaluate, evaluateAll_mapRulesOfAll_congr values qs t h]
  | .group .or qs, t, h => by
      rw [mapRules, mapRules, evaluate, evaluate, evaluateAny_mapRulesOfAll_congr values qs t h]
  | .rule r, t, h => by
      have same := h r (List.mem_singleton_self r)
      rw [mapRules, mapRules, evaluate, evaluate, same.attributeId, same.verdict]

theorem evaluateAll_mapRulesOfAll_congr (values : MemberValues) :
    ∀ (qs : List (Query ω)) (t : Tally), (∀ r ∈ rulesOfAll qs, (g r).Interchangeable (g' r)) →
      evaluateAll values (mapRulesOfAll g qs) t = evaluateAll values (mapRulesOfAll g' qs) t
  | [], _, _ => rfl
  | q :: qs, t, h => by
      have hq := evaluate_mapRules_congr values q t fun r hr => h r (List.mem_append_left _ hr)
      have hqs := fun t' => evaluateAll_mapRulesOfAll_congr values qs t' fun r hr =>
        h r (List.mem_append_right _ hr)
      simp only [mapRulesOfAll, evaluateAll, hq, hqs]

theorem evaluateAny_mapRulesOfAll_congr (values : MemberValues) :
    ∀ (qs : List (Query ω)) (t : Tally), (∀ r ∈ rulesOfAll qs, (g r).Interchangeable (g' r)) →
      evaluateAny values (mapRulesOfAll g qs) t = evaluateAny values (mapRulesOfAll g' qs) t
  | [], _, _ => rfl
  | q :: qs, t, h => by
      have hq := evaluate_mapRules_congr values q t fun r hr => h r (List.mem_append_left _ hr)
      have hqs := fun t' => evaluateAny_mapRulesOfAll_congr values qs t' fun r hr =>
        h r (List.mem_append_right _ hr)
      simp only [mapRulesOfAll, evaluateAny, hq, hqs]

end

end Query

/-! ## Passes -/

namespace Pass

variable {p : Pass} {tree : Query ResolvedOperand}

section

variable (same : ∀ values t,
  p.strategy.evaluate p.tree values t = p.strategy.evaluate tree values t)
include same

theorem rangeFrom_congr (earlier : Nat) : ∀ (ms : List Member) (s : Survey),
    p.rangeFrom earlier ms s = { p with tree := tree }.rangeFrom earlier ms s := by
  intro ms
  induction ms with
  | nil => intro s; rfl
  | cons m rest ih => intro s; rw [rangeFrom, rangeFrom, ih, same]

theorem rangesFrom_congr (earlier : Nat) : ∀ (chunks : List (List Member)) (s : Survey),
    p.rangesFrom earlier chunks s = { p with tree := tree }.rangesFrom earlier chunks s := by
  intro chunks
  induction chunks with
  | nil => intro s; rfl
  | cons chunk rest ih =>
      intro s
      rw [rangesFrom, rangesFrom, ih, range, rangeFrom_congr same, range]

/-- **A pass looks at evaluations, not at the tree.** -/
theorem members_congr (earlier : Nat) (ms : List Member) :
    p.members earlier ms = { p with tree := tree }.members earlier ms := by
  rw [members, members, range, range, rangeFrom_congr same, rangesFrom_congr same]

end

end Pass

/-! ## Plans -/

/-- Plans with the same warnings whose trees evaluate alike, to the same result and the same
tally. -/
structure Plan.Interchangeable (p p' : Plan) : Prop where
  warnings : p.warnings = p'.warnings
  evaluate : ∀ values t, p.tree.evaluate values t = p'.tree.evaluate values t

/-- Outcomes that are alike in all but the trees that they show. -/
structure Outcome.AgreesWith (o o' : Outcome) : Prop where
  matched : o.matched = o'.matched
  checkedFallback : o.checkedFallback = o'.checkedFallback
  canceled : o.canceled = o'.canceled
  warnings : o.warnings = o'.warnings
  timings : o.timings = o'.timings
  case : o.case? = o'.case?
  rules : o.rulesEvaluated? = o'.rulesEvaluated?

namespace Engine

variable {engine : Engine} {catalog : Catalog} {signal : Signal} {plan plan' : Plan}
  {spare spare' : Option Plan}

theorem survey_congr (h : plan.Interchangeable plan') (earlier : Nat) :
    engine.survey signal earlier catalog plan = engine.survey signal earlier catalog plan' := by
  refine Pass.members_congr (fun values t => ?_) earlier catalog.members
  cases hs : engine.strategy with
  | attributeLogic => exact h.evaluate values t
  | matchAll => rfl

theorem fallbackSurvey_congr (h : Option.Rel Plan.Interchangeable spare spare')
    (first : Survey) :
    engine.fallbackSurvey signal catalog first spare
      = engine.fallbackSurvey signal catalog first spare' := by
  cases h with
  | none => rfl
  | some h => rw [fallbackSurvey, fallbackSurvey, Option.map_some, Option.map_some, survey_congr h]

theorem spareWarnings_congr (h : Option.Rel Plan.Interchangeable spare spare') :
    (spare.map Plan.warnings).getD [] = (spare'.map Plan.warnings).getD [] := by
  cases h with
  | none => rfl
  | some h => exact h.warnings

/-- **Interchangeable plans lead to outcomes that agree.** -/
theorem conclude_agreesWith {explained : Bool} (h : plan.Interchangeable plan')
    (hspare : Option.Rel Plan.Interchangeable spare spare') :
    (engine.conclude signal catalog explained plan spare).AgreesWith
      (engine.conclude signal catalog explained plan' spare') := by
  have first : engine.survey signal 0 catalog plan = engine.survey signal 0 catalog plan' :=
    survey_congr h 0
  have second : ∀ s, engine.fallbackSurvey signal catalog s spare
      = engine.fallbackSurvey signal catalog s spare' := fallbackSurvey_congr hspare
  have noticed := spareWarnings_congr hspare
  exact {
    matched := by simp only [conclude, first, second]
    checkedFallback := by simp only [conclude, first, second]
    canceled := by simp only [conclude, first, second]
    warnings := by simp only [conclude, first, second, noticed, h.warnings]
    timings := by simp only [conclude, first, second]
    case := by
      simp only [conclude, first, second, Outcome.case?, explain]
      cases explained <;> rfl
    rules := by
      simp only [conclude, first, second, Outcome.rulesEvaluated?, explain]
      cases explained <;> rfl }

end Engine

/-! ## Runs -/

/-- Two attempts that fail with one fault, or succeed with related results. -/
inductive EndAlike {ε α β : Type} (R : α → β → Prop) : Except ε α → Except ε β → Prop
  | fault (e : ε) : EndAlike R (.error e) (.error e)
  | result {a : α} {b : β} (related : R a b) : EndAlike R (.ok a) (.ok b)

namespace EndAlike

variable {ε α α' β β' : Type} {R : α → α' → Prop} {S : β → β' → Prop} {x : Except ε α}
  {x' : Except ε α'}

theorem bind {f : α → Except ε β} {f' : α' → Except ε β'} (h : EndAlike R x x')
    (further : ∀ a a', R a a' → EndAlike S (f a) (f' a')) :
    EndAlike S (x.bind f) (x'.bind f') := by
  cases h with
  | fault e => exact .fault e
  | result related => exact further _ _ related

theorem map {f : α → β} {f' : α' → β'} (h : EndAlike R x x')
    (further : ∀ a a', R a a' → S (f a) (f' a')) : EndAlike S (x.map f) (x'.map f') := by
  cases h with
  | fault e => exact .fault e
  | result related => exact .result (further _ _ related)

end EndAlike

namespace Engine

variable {engine : Engine} {catalog : Catalog} {input input' : MatchInput}

/-- Runs that decide nothing answer everybody, and for the same reason if both have a primary tree
or neither has one. -/
theorem run_agreesWith_of_nothing (engine : Engine) (catalog : Catalog)
    (nothing : input.DecidesNothing) (nothing' : input'.DecidesNothing)
    (given : input.primary.isSome = input'.primary.isSome)
    (explained : input.explain = input'.explain) (signal : Signal) :
    ∃ o o', engine.run catalog input signal = .ok o ∧ engine.run catalog input' signal = .ok o' ∧
      o.AgreesWith o' := by
  obtain ⟨primary, fallback, bindings, explain⟩ := input
  obtain ⟨primary', fallback', bindings', explain'⟩ := input'
  cases explained
  cases primary with
  | none =>
      cases primary' with
      | none => exact ⟨_, _, rfl, rfl, rfl, rfl, rfl, rfl, rfl, rfl, rfl⟩
      | some q' => cases given
  | some q =>
      cases primary' with
      | none => cases given
      | some q' =>
          have hempty : q.isEmptyQuery = true := Query.isEmptyQuery_iff.2 (nothing q rfl)
          have hempty' : q'.isEmptyQuery = true := Query.isEmptyQuery_iff.2 (nothing' q' rfl)
          refine ⟨_, _, if_pos hempty, if_pos hempty', rfl, rfl, rfl, rfl, rfl, ?_, ?_⟩
          all_goals cases explain <;> rfl

/-- **Runs end alike if the preparation of their trees does**, and if a primary tree without rules
corresponds to one without rules. -/
theorem run_endAlike (given : Option.Rel (fun q q' => (q.rules = [] ↔ q'.rules = []) ∧
      EndAlike Plan.Interchangeable (engine.prepare catalog input.bindings q)
        (engine.prepare catalog input'.bindings q')) input.primary input'.primary)
    (spare : EndAlike (Option.Rel Plan.Interchangeable)
      (engine.prepare? catalog input.bindings input.fallback)
      (engine.prepare? catalog input'.bindings input'.fallback))
    (explained : input.explain = input'.explain) (signal : Signal) :
    EndAlike Outcome.AgreesWith (engine.run catalog input signal)
      (engine.run catalog input' signal) := by
  have both : input.primary.isSome = input'.primary.isSome := by
    generalize input.primary = primary, input'.primary = primary' at given
    cases given <;> rfl
  by_cases nothing : input.DecidesNothing
  · have nothing' : input'.DecidesNothing := by
      intro q' hq'
      rw [hq'] at given
      generalize hprimary : input.primary = primary at given
      cases given with
      | some h => exact h.1.1 (nothing _ hprimary)
    obtain ⟨o, o', ho, ho', agree⟩ :=
      run_agreesWith_of_nothing engine catalog nothing nothing' both explained signal
    rw [ho, ho']
    exact .result agree
  · rw [MatchInput.DecidesNothing] at nothing
    push Not at nothing
    obtain ⟨q, hq, rules⟩ := nothing
    rw [hq] at given
    generalize hprimary : input'.primary = primary' at given
    cases given with
    | @some _ q' h =>
        rw [run_of_rules hq rules, run_of_rules hprimary fun none => rules (h.1.2 none), explained]
        refine h.2.bind fun plan plan' same => ?_
        exact spare.map fun p p' sameSpare => conclude_agreesWith same sameSpare

end Engine

end TeamRouting
