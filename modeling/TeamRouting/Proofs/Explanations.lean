import TeamRouting.Proofs.Cancellation
import TeamRouting.Proofs.ShortCircuit

/-!
# What explanations tell

An outcome may come with an explanation, and but for that it is the outcome that there would be
without one.  The explanation is put together from the surveys, the outcome from what is left of
them when it is known whether the run was called off and which tree decided; still the two tell the
same.

* `Json.at?` — the value at the end of a path into a record;
* `Outcome.unexplained` — an outcome without its explanation;
* `Signal.calls` — all the evaluations of a run with one worker;
* `Engine.length_calls`, `Engine.rulesEvaluated_of_calls` — their number, and the number of rules
  that they reach;
* `Outcome.ExplainedBy` — an explanation that tells the same as the outcome;
* `Engine.run_explained` — all of it for a run.
-/

namespace TeamRouting

/-! ## Records -/

/-- The value at the end of a path of field names. -/
def Json.at? : List String → Json → Option Json
  | [], json => some json
  | name :: path, .object fields => (Json.field? fields name).bind (at? path)
  | _ :: _, _ => none

/-- The account of a run has the number of rules in it. -/
theorem Account.at?_rulesEvaluated {account : Account} {n : Nat}
    (h : account.rulesEvaluated? = some n) :
    account.toJson.at? ["rulesEvaluated"] = some (.int n) := by
  cases account with
  | everybody ids query => cases h
  | evaluated strategy primary fallback checked rules warnings timings =>
      cases h
      rfl

/-- An outcome without its explanation. -/
def Outcome.unexplained (o : Outcome) : Outcome := { o with explanation := none }

/-- **An explanation tells the same as the outcome** that it comes with.  The case is that of a run
that was called off, or else of the tree that decided; the account repeats the warnings and whether
the fallback tree was checked, is empty where there is no such tree, and gives the ids that were
matched as those of the tree that decided. -/
structure Outcome.ExplainedBy (o : Outcome) (fallback : Option (Query Operand))
    (e : Explanation Account) : Prop where
  case : e.case =
    if o.canceled then .canceled else if o.checkedFallback then .readyWithFallback else .ready
  checked : e.payload.toJson.at? ["checkedFallback"] = some (.bool o.checkedFallback)
  warnings : e.payload.toJson.at? ["warnings"] = some (.list (o.warnings.map Json.text))
  absent : e.payload.toJson.at? ["fallback"] = some .null ↔ fallback = none
  evaluated : fallback ≠ none →
    e.payload.toJson.at? ["fallback", "evaluated"] = some (.bool o.checkedFallback)
  first : o.canceled = false → o.checkedFallback = false →
    e.payload.toJson.at? ["primary", "matchedMemberIds"] = some o.matched.toJson
  second : o.canceled = false → o.checkedFallback = true →
    e.payload.toJson.at? ["fallback", "matchedMemberIds"] = some o.matched.toJson
  nobody : o.checkedFallback = true →
    e.payload.toJson.at? ["primary", "matchedMemberIds"] = some (.list [])

/-! ## The evaluations of a run -/

/-- **The evaluations of a run with one worker**, each of a tree for a member: those of the primary
tree, and those of the fallback tree if it is checked, which come after all members were asked. -/
def Signal.calls (signal : Signal) (ms : List Member) (primary : Query ResolvedOperand)
    (fallback : Option (Query ResolvedOperand)) : List (Query ResolvedOperand × Member) :=
  (signal.before 0 ms).map (primary, ·) ++
    fallback.toList.flatMap fun tree => (signal.before ms.length ms).map (tree, ·)

/-! ## The rules that they reach -/

namespace Strategy

/-- The rules that are reached when a member is decided about. -/
def reached (strategy : Strategy) (tree : Query ResolvedOperand) (m : Member) :
    List (Rule ResolvedOperand × Nat) :=
  match strategy with
  | attributeLogic => tree.reached (Rule.holdsFor m.values)
  | matchAll => []

theorem surveyOne_rulesEvaluated (strategy : Strategy) (tree : Query ResolvedOperand)
    (m : Member) :
    (strategy.surveyOne tree m).tally.rulesEvaluated = (strategy.reached tree m).length := by
  cases strategy with
  | attributeLogic =>
      have h : (tree.evaluate m.values {}).2.rulesEvaluated
          = 0 + (tree.reached (Rule.holdsFor m.values)).length :=
        Query.evaluate_rulesEvaluated m.values tree {} 0
      rw [Nat.zero_add] at h
      exact h
  | matchAll => rfl

theorem surveyEach_rulesEvaluated (strategy : Strategy) (tree : Query ResolvedOperand)
    (ms : List Member) : (strategy.surveyEach tree ms).tally.rulesEvaluated =
      (ms.map fun m => (strategy.reached tree m).length).sum := by
  induction ms with
  | nil => rfl
  | cons m rest ih =>
      have hadd : (strategy.surveyOne tree m + strategy.surveyEach tree rest).tally.rulesEvaluated
          = (strategy.surveyOne tree m).tally.rulesEvaluated
            + (strategy.surveyEach tree rest).tally.rulesEvaluated := rfl
      rw [surveyEach_cons, hadd, surveyOne_rulesEvaluated, ih, List.map_cons, List.sum_cons]

end Strategy

namespace Engine

variable {engine : Engine} {catalog : Catalog} {signal : Signal} {plan : Plan}
  {spare : Option Plan} {explained : Bool}

/-- With one worker a survey asks the members in front of the signal. -/
theorem survey_of_single (single : engine.fanout.workers = 1) (earlier : Nat) :
    engine.survey signal earlier catalog plan =
      (engine.strategy.surveyEach plan.tree (signal.before earlier catalog.members)).ended
        (decide ((signal.before earlier catalog.members).length < catalog.members.length)) := by
  rw [survey, Pass.members_of_single single, Pass.range_eq]

theorem survey_rulesEvaluated (single : engine.fanout.workers = 1) (earlier : Nat) :
    (engine.survey signal earlier catalog plan).tally.rulesEvaluated =
      ((signal.before earlier catalog.members).map fun m =>
        (engine.strategy.reached plan.tree m).length).sum := by
  rw [survey_of_single single]
  exact Strategy.surveyEach_rulesEvaluated ..

theorem survey_evaluations (single : engine.fanout.workers = 1) (earlier : Nat) :
    (engine.survey signal earlier catalog plan).evaluations =
      (signal.before earlier catalog.members).length := by
  rw [survey_of_single single]
  exact Strategy.surveyEach_evaluations ..

/-- When the fallback tree is checked: it is there, the first survey found nobody and was not called
off, and the second one starts when all members were asked. -/
theorem fallbackSurvey_cases_of_survey :
    engine.fallbackSurvey signal catalog (engine.survey signal 0 catalog plan) spare = none ∨
      ∃ sparePlan, spare = some sparePlan ∧
        (engine.survey signal 0 catalog plan).matched.toList = [] ∧
        engine.fallbackSurvey signal catalog (engine.survey signal 0 catalog plan) spare
          = some (engine.survey signal catalog.members.length catalog sparePlan) := by
  rw [fallbackSurvey]
  split
  · next hsecond =>
    rw [Bool.and_eq_true, Bool.not_eq_true'] at hsecond
    cases spare with
    | none => exact Or.inl rfl
    | some sparePlan =>
        have heach := survey_of_finished hsecond.2
        have hlength :
            (engine.survey signal 0 catalog plan).evaluations = catalog.members.length := by
          rw [heach, Strategy.surveyEach_evaluations]
        rw [Option.map_some, hlength]
        exact Or.inr ⟨sparePlan, rfl, List.isEmpty_iff.1 hsecond.1, rfl⟩
  · exact Or.inl rfl

theorem conclude_checkedFallback :
    (engine.conclude signal catalog explained plan spare).checkedFallback =
      (engine.fallbackSurvey signal catalog (engine.survey signal 0 catalog plan) spare).isSome :=
  rfl

/-- **All evaluations of a run are counted.** -/
theorem length_calls (single : engine.fanout.workers = 1) :
    (signal.calls catalog.members plan.tree
      (if (engine.conclude signal catalog explained plan spare).checkedFallback then
        spare.map Plan.tree else none)).length = engine.evaluations signal catalog plan spare := by
  rw [conclude_checkedFallback, evaluations, survey_evaluations single]
  obtain hnone | ⟨sparePlan, rfl, -, hsome⟩ :=
    @fallbackSurvey_cases_of_survey engine catalog signal plan spare
  · rw [hnone]
    simp [Signal.calls]
  · rw [hsome]
    simp [Signal.calls, survey_evaluations single]

/-- **The rules that all evaluations of a run reach** are those that it counts. -/
theorem rulesEvaluated_of_calls (single : engine.fanout.workers = 1) :
    (engine.conclude signal catalog true plan spare).rulesEvaluated? =
      some ((signal.calls catalog.members plan.tree
        (if (engine.conclude signal catalog true plan spare).checkedFallback then
          spare.map Plan.tree else none)).map fun call =>
            (engine.strategy.reached call.1 call.2).length).sum := by
  have hrules : (engine.conclude signal catalog true plan spare).rulesEvaluated? =
      some (((engine.fallbackSurvey signal catalog (engine.survey signal 0 catalog plan) spare).map
        fun s => (engine.survey signal 0 catalog plan).tally.merge s.tally).getD
          (engine.survey signal 0 catalog plan).tally).rulesEvaluated := rfl
  rw [conclude_checkedFallback, hrules]
  obtain hnone | ⟨sparePlan, rfl, -, hsome⟩ :=
    @fallbackSurvey_cases_of_survey engine catalog signal plan spare
  · rw [hnone, Option.map_none, Option.getD_none, survey_rulesEvaluated single]
    simp [Signal.calls, Function.comp_def]
  · have hmerge : ∀ t u : Tally,
        (t.merge u).rulesEvaluated = t.rulesEvaluated + u.rulesEvaluated := fun _ _ => rfl
    rw [hsome, Option.map_some, Option.getD_some, hmerge, survey_rulesEvaluated single,
      survey_rulesEvaluated single]
    simp [Signal.calls, Function.comp_def]

/-! ## The explanation of a run -/

theorem prepare?_isNone {bindings : Bindings} {fallback : Option (Query Operand)}
    (h : engine.prepare? catalog bindings fallback = .ok spare) :
    fallback = none ↔ spare = none := by
  cases fallback with
  | none =>
      cases h
      exact iff_of_true rfl rfl
  | some query =>
      rw [prepare?] at h
      cases prepared : engine.prepare catalog bindings query with
      | error e =>
          rw [prepared] at h
          cases h
      | ok plan =>
          rw [prepared] at h
          cases h
          simp

/-- A run that is not called off matches what the tree that decided does. -/
theorem conclude_matched_of_finished
    (finished : (engine.conclude signal catalog explained plan spare).canceled = false) :
    (engine.conclude signal catalog explained plan spare).matched =
      ((engine.fallbackSurvey signal catalog (engine.survey signal 0 catalog plan) spare).map
        Survey.matched).getD (engine.survey signal 0 catalog plan).matched := by
  refine if_neg ?_
  rw [← conclude_canceled, finished]
  exact Bool.false_ne_true

/-- **What a run concludes is explained.** -/
theorem exists_explainedBy {fallback : Option (Query Operand)}
    (h : fallback = none ↔ spare = none) :
    ∃ e, (engine.conclude signal catalog true plan spare).explanation = some e ∧
      (engine.conclude signal catalog true plan spare).ExplainedBy fallback e := by
  refine ⟨_, rfl, { case := rfl, checked := rfl, warnings := rfl, absent := ?_, evaluated := ?_,
                    first := ?_, second := ?_, nobody := ?_ }⟩
  · rw [h]
    cases spare with
    | none => exact iff_of_true rfl rfl
    | some sparePlan => exact iff_of_false (by rintro ⟨⟩) (by rintro ⟨⟩)
  · intro given
    obtain ⟨sparePlan, rfl⟩ := Option.ne_none_iff_exists'.1 (mt h.2 given)
    exact congrArg (fun evaluated => some (Json.bool evaluated)) Option.isSome_map
  · intro finished unchecked
    rw [conclude_checkedFallback, Option.isSome_eq_false_iff, Option.isNone_iff_eq_none]
      at unchecked
    rw [conclude_matched_of_finished finished, unchecked]
    rfl
  · intro finished checked
    rw [conclude_checkedFallback] at checked
    obtain hnone | ⟨sparePlan, rfl, -, hsome⟩ :=
      @fallbackSurvey_cases_of_survey engine catalog signal plan spare
    · rw [hnone] at checked
      cases checked
    · rw [conclude_matched_of_finished finished, hsome]
      rfl
  · intro checked
    rw [conclude_checkedFallback] at checked
    obtain hnone | ⟨sparePlan, -, nobody, -⟩ :=
      @fallbackSurvey_cases_of_survey engine catalog signal plan spare
    · rw [hnone] at checked
      cases checked
    · exact congrArg (fun ids => some (Json.list (ids.map Json.text))) nobody

end Engine

/-! ## Runs -/

namespace Engine

/-- **An explanation changes nothing.** -/
theorem run_unexplained (engine : Engine) (catalog : Catalog) (input : MatchInput)
    (signal : Signal) : engine.run catalog { input with explain := false } signal
      = (engine.run catalog { input with explain := true } signal).map Outcome.unexplained := by
  obtain ⟨primary, fallback, bindings, explained⟩ := input
  cases primary with
  | none => rfl
  | some primary =>
      simp only [run]
      split
      · rfl
      · cases engine.prepare catalog bindings primary with
        | error e => rfl
        | ok plan => cases engine.prepare? catalog bindings fallback <;> rfl

/-- **Explanations tell what happened and change nothing.**  Whether an explanation is wanted or
not, the run fails with the same fault or answers the same outcome, but for the explanation.  And
where a tree with rules decides, the explanation that is given tells the same as the outcome.  With
one worker, its number of rules is the sum over all evaluations that were made, with either tree, of
the rules that each of them reached. -/
theorem run_explained (engine : Engine) (catalog : Catalog) (input : MatchInput)
    (signal : Signal) :
    engine.run catalog { input with explain := false } signal
        = (engine.run catalog { input with explain := true } signal).map Outcome.unexplained ∧
      ∀ primary o, input.primary = some primary → primary.rules ≠ [] →
        engine.run catalog { input with explain := true } signal = .ok o →
        ∃ e plan spare, o.explanation = some e ∧ o.ExplainedBy input.fallback e ∧
          engine.prepare catalog input.bindings primary = .ok plan ∧
          engine.prepare? catalog input.bindings input.fallback = .ok spare ∧
          (engine.fanout.workers = 1 → ∃ calls,
            calls = signal.calls catalog.members plan.tree
              (if o.checkedFallback then spare.map Plan.tree else none) ∧
            calls.length = engine.evaluations signal catalog plan spare ∧
            e.payload.toJson.at? ["rulesEvaluated"] = some (.int
              (calls.map fun call => (engine.strategy.reached call.1 call.2).length).sum)) := by
  refine ⟨run_unexplained engine catalog input signal, fun primary o given rules hrun => ?_⟩
  obtain ⟨plan, spare, prepared, sparePrepared, rfl⟩ :=
    (run_eq_ok_iff (show ({ input with explain := true } : MatchInput).primary = some primary from
      given) rules).1 hrun
  obtain ⟨e, he, explained⟩ := @exists_explainedBy engine catalog signal plan spare input.fallback
    (prepare?_isNone sparePrepared)
  refine ⟨e, plan, spare, he, explained, prepared, sparePrepared, fun single => ?_⟩
  refine ⟨_, rfl, length_calls single, Account.at?_rulesEvaluated ?_⟩
  have hrules := @rulesEvaluated_of_calls engine catalog signal plan spare single
  rw [Outcome.rulesEvaluated?, he, Option.bind_some] at hrules
  exact hrules

/-- Two members, a primary tree that fails at its first rule for both, and a fallback tree that
holds by its second: a signal after the third evaluation calls the run off when four rules were
reached. -/
theorem run_explained_of_raised_in_fallback :
    ∃ (o : Outcome) (e : Explanation Account),
      (({} : Engine).withFanout 1 1).run
        ⟨"team", "org", [⟨"region", "Region", .text, []⟩],
          [⟨"a", ⟨[("region", ["eu"])]⟩⟩, ⟨"b", ⟨[("region", ["us"])]⟩⟩]⟩
        { primary := some (.group .and [.rule ⟨"region", .isEmpty, none⟩,
            .rule ⟨"region", .isNotEmpty, none⟩]),
          fallback := some (.group .or [.rule ⟨"region", .isEmpty, none⟩,
            .rule ⟨"region", .isNotEmpty, none⟩]), explain := true } ⟨some 3⟩ = .ok o ∧
      o.canceled = true ∧ o.explanation = some e ∧
      o.ExplainedBy (some (.group .or [.rule ⟨"region", .isEmpty, none⟩,
        .rule ⟨"region", .isNotEmpty, none⟩])) e ∧
      e.payload.toJson.at? ["rulesEvaluated"] = some (.int 4) := by
  obtain ⟨-, hrun⟩ := run_explained (({} : Engine).withFanout 1 1)
    ⟨"team", "org", [⟨"region", "Region", .text, []⟩],
      [⟨"a", ⟨[("region", ["eu"])]⟩⟩, ⟨"b", ⟨[("region", ["us"])]⟩⟩]⟩
    { primary := some (.group .and [.rule ⟨"region", .isEmpty, none⟩,
        .rule ⟨"region", .isNotEmpty, none⟩]),
      fallback := some (.group .or [.rule ⟨"region", .isEmpty, none⟩,
        .rule ⟨"region", .isNotEmpty, none⟩]) } ⟨some 3⟩
  obtain ⟨e, plan, spare, he, explained, prepared, sparePrepared, hcount⟩ :=
    hrun _ _ rfl (List.cons_ne_nil _ _) rfl
  obtain ⟨calls, rfl, -, hrules⟩ := hcount rfl
  cases prepared
  cases sparePrepared
  exact ⟨_, e, rfl, rfl, he, explained, hrules⟩

end Engine

end TeamRouting
