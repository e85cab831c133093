import TeamRouting.Proofs.Warnings

/-!
# Runs that are called off

A run may be called off between any two evaluations.  It then matches nobody, whatever it had found
by then, says so in its last warning, and starts nothing further.  A run that is not called off is
not touched by its signal at all.

* `Pass.members_of_finished` — a pass that comes to its end has evaluated everybody, whatever the
  limits of the fan-out are;
* `Engine.run_of_finished` — so a run that is not called off is the run without a signal;
* `Engine.survey_of_raisedAfter` — with one worker a signal cuts a pass short after exactly the
  evaluations that it lets through;
* `Outcome.CalledOff` — how the outcome of a run reads that was called off;
* `Engine.Ending` — the ways in which a run may end whose signal is raised after so many
  evaluations;
* `Engine.run_of_raisedAfter` — it ends in one of them.
-/

namespace TeamRouting

/-! ## Passes that come to their end -/

namespace Survey

theorem add_canceled (s t : Survey) : (s + t).canceled = (s.canceled || t.canceled) := rfl

theorem add_evaluations (s t : Survey) : (s + t).evaluations = s.evaluations + t.evaluations := rfl

end Survey

theorem Strategy.surveyEach_evaluations (strategy : Strategy) (tree : Query ResolvedOperand)
    (ms : List Member) : (strategy.surveyEach tree ms).evaluations = ms.length := by
  induction ms with
  | nil => rfl
  | cons m rest ih =>
      have hone : (strategy.surveyOne tree m).evaluations = 1 := rfl
      rw [surveyEach_cons, Survey.add_evaluations, hone, ih, List.length_cons, Nat.add_comm]

namespace Pass

variable {p : Pass}

/-- A range that comes to its end has asked everybody. -/
theorem range_of_finished {earlier : Nat} {ms : List Member}
    (finished : (p.range earlier ms).canceled = false) :
    p.range earlier ms = p.strategy.surveyEach p.tree ms := by
  rw [range_eq] at finished
  have hlength : ¬ (p.signal.before earlier ms).length < ms.length := of_decide_eq_false finished
  exact range_of_everybody (Signal.before_of_length_le (Nat.not_lt.1 hlength))

/-- If the ranges come to their end, so has each of them, and what went before. -/
theorem rangesFrom_of_finished (earlier : Nat) :
    ∀ (chunks : List (List Member)) (s : Survey), (p.rangesFrom earlier chunks s).canceled = false →
      s.canceled = false ∧
        p.rangesFrom earlier chunks s = s + p.strategy.surveyEach p.tree chunks.flatten := by
  intro chunks
  induction chunks with
  | nil =>
      intro s finished
      rw [rangesFrom] at finished ⊢
      exact ⟨finished, by rw [List.flatten_nil, Strategy.surveyEach_nil, add_zero]⟩
  | cons chunk rest ih =>
      intro s finished
      rw [rangesFrom] at finished ⊢
      by_cases hnow : p.signal.isRaised (earlier + s.evaluations) = true
      · rw [if_pos hnow] at finished
        cases finished
      · rw [if_neg hnow] at finished ⊢
        obtain ⟨hcanceled, hrest⟩ := ih _ finished
        rw [Survey.absorb_eq_add, Survey.add_canceled, Bool.or_eq_false_iff] at hcanceled
        refine ⟨hcanceled.1, ?_⟩
        rw [hrest, Survey.absorb_eq_add, range_of_finished hcanceled.2, List.flatten_cons,
          Strategy.surveyEach_append, add_assoc]

/-- **A pass that comes to its end has evaluated everybody**, each member once. -/
theorem members_of_finished {earlier : Nat} {ms : List Member}
    (finished : (p.members earlier ms).canceled = false) :
    p.members earlier ms = p.strategy.surveyEach p.tree ms := by
  rw [members] at finished ⊢
  by_cases hone : ms.length ≤ p.fanout.chunkSize ms.length
  · rw [if_pos hone] at finished ⊢
    exact range_of_finished finished
  · rw [if_neg hone] at finished ⊢
    rw [(rangesFrom_of_finished earlier _ {} finished).2, Fanout.flatten_chunks,
      Survey.empty_eq_zero, zero_add]

end Pass

/-! ## Runs that come to their end -/

namespace Engine

variable {engine : Engine} {catalog : Catalog} {signal : Signal} {plan : Plan}
  {spare : Option Plan} {explained : Bool}

theorem survey_of_finished {earlier : Nat}
    (finished : (engine.survey signal earlier catalog plan).canceled = false) :
    engine.survey signal earlier catalog plan
      = engine.strategy.surveyEach plan.tree catalog.members :=
  Pass.members_of_finished finished

/-- The outcome is put together from the two surveys and the plans alone. -/
theorem conclude_congr {signal' : Signal}
    (first : engine.survey signal 0 catalog plan = engine.survey signal' 0 catalog plan)
    (second : engine.fallbackSurvey signal catalog (engine.survey signal' 0 catalog plan) spare
      = engine.fallbackSurvey signal' catalog (engine.survey signal' 0 catalog plan) spare) :
    engine.conclude signal catalog explained plan spare
      = engine.conclude signal' catalog explained plan spare := by
  simp only [conclude, first, second]

theorem conclude_canceled :
    (engine.conclude signal catalog explained plan spare).canceled =
      ((engine.survey signal 0 catalog plan).canceled ||
        ((engine.fallbackSurvey signal catalog (engine.survey signal 0 catalog plan) spare).map
          Survey.canceled).getD false) := rfl

/-- A second pass that comes to its end, or does not take place, does not depend on the signal. -/
theorem fallbackSurvey_of_finished {first : Survey}
    (finished : ((engine.fallbackSurvey signal catalog first spare).map Survey.canceled).getD false
      = false) :
    engine.fallbackSurvey signal catalog first spare
      = engine.fallbackSurvey .never catalog first spare := by
  rw [fallbackSurvey] at finished ⊢
  rw [fallbackSurvey]
  split
  · next hsecond =>
    rw [if_pos hsecond] at finished
    cases spare with
    | none => rfl
    | some sparePlan =>
        rw [Option.map_some, Option.map_some, survey_of_never, survey_of_finished finished]
  · rfl

theorem conclude_of_finished
    (finished : (engine.conclude signal catalog explained plan spare).canceled = false) :
    engine.conclude signal catalog explained plan spare
      = engine.conclude .never catalog explained plan spare := by
  rw [conclude_canceled, Bool.or_eq_false_iff] at finished
  have first : engine.survey signal 0 catalog plan = engine.survey .never 0 catalog plan := by
    rw [survey_of_finished finished.1, survey_of_never]
  rw [first] at finished
  exact conclude_congr first (fallbackSurvey_of_finished finished.2)

/-- **A run that is not called off is the run without a signal.** -/
theorem run_of_finished {input : MatchInput} {o : Outcome}
    (h : engine.run catalog input signal = .ok o) (finished : o.canceled = false) :
    engine.run catalog input .never = .ok o := by
  by_cases nothing : input.DecidesNothing
  · obtain ⟨o', -, hrun⟩ := @run_of_nothing engine catalog input nothing
    rw [← h]
    exact (hrun input.bindings input.fallback .never).trans
      (hrun input.bindings input.fallback signal).symm
  · rw [MatchInput.DecidesNothing] at nothing
    push Not at nothing
    obtain ⟨primary, given, rules⟩ := nothing
    obtain ⟨plan, spare, prepared, sparePrepared, rfl⟩ := (run_eq_ok_iff given rules).1 h
    rw [run_of_prepared given rules prepared sparePrepared, conclude_of_finished finished]

end Engine

/-! ## One worker -/

namespace Pass

variable {p : Pass}

/-- **A signal cuts a range short.**  It is raised right after the `N`-th evaluation of the run:
the range goes on for as many members as that leaves to it, and if there are no more it comes to
its end. -/
theorem range_of_raisedAfter {N earlier : Nat} (hp : p.signal = ⟨some N⟩) (ms : List Member)
    (h : earlier ≤ N) :
    p.range earlier ms =
      if earlier + ms.length ≤ N then
        p.strategy.surveyEach p.tree ms
      else
        (p.strategy.surveyEach p.tree (ms.take (N - earlier))).cancel := by
  have hbefore : p.signal.before earlier ms = ms.take (N - earlier) := by
    rw [hp, Signal.before_of_some]
  split
  · exact range_of_everybody (by rw [hbefore, List.take_of_length_le (by omega)])
  · have hshort : (ms.take (N - earlier)).length < ms.length := by
      rw [List.length_take]
      omega
    rw [range_eq, hbefore, decide_eq_true hshort, Survey.ended_true]

/-- One worker goes through all members in one range. -/
theorem members_of_single (single : p.fanout.workers = 1) (earlier : Nat) (ms : List Member) :
    p.members earlier ms = p.range earlier ms := by
  have hone : ms.length ≤ p.fanout.chunkSize ms.length := by
    rw [Fanout.chunkSize, Fanout.ceilDiv, single, Nat.div_one, Nat.add_sub_cancel]
    exact Nat.le_max_left ..
  rw [members, if_pos hone]

/-- With a signal that is up from the beginning no member is evaluated, however many workers there
are. -/
theorem members_of_raised (hp : p.signal = .raised) (earlier : Nat) {ms : List Member}
    (somebody : ms ≠ []) : p.members earlier ms = ({} : Survey).cancel := by
  have hraised : ∀ n, p.signal.isRaised n = true := by
    intro n
    rw [hp, Signal.isRaised_raised]
  rw [members]
  split
  · obtain ⟨m, rest, rfl⟩ := List.exists_cons_of_ne_nil somebody
    rw [range, rangeFrom, if_pos (hraised _)]
  · have hchunks : p.fanout.chunks ms ≠ [] := by
      intro hnone
      have hflatten := p.fanout.flatten_chunks ms
      rw [hnone] at hflatten
      exact somebody hflatten.symm
    obtain ⟨chunk, rest, hsplit⟩ := List.exists_cons_of_ne_nil hchunks
    rw [hsplit, rangesFrom, if_pos (hraised _)]

end Pass

namespace Engine

variable {engine : Engine} {catalog : Catalog} {plan : Plan}

/-- **With one worker a pass ends where the signal is raised**: it has evaluated the members in
front, in order, and nobody else. -/
theorem survey_of_raisedAfter (single : engine.fanout.workers = 1) {N earlier : Nat}
    (h : earlier ≤ N) :
    engine.survey ⟨some N⟩ earlier catalog plan =
      if earlier + catalog.members.length ≤ N then
        engine.strategy.surveyEach plan.tree catalog.members
      else
        (engine.strategy.surveyEach plan.tree (catalog.members.take (N - earlier))).cancel := by
  rw [survey, Pass.members_of_single single, Pass.range_of_raisedAfter rfl _ h]

theorem survey_of_raised (somebody : catalog.members ≠ []) (earlier : Nat) :
    engine.survey .raised earlier catalog plan = ({} : Survey).cancel :=
  Pass.members_of_raised rfl earlier somebody

/-- The evaluations of a run with prepared trees, those of both passes. -/
def evaluations (engine : Engine) (signal : Signal) (catalog : Catalog) (plan : Plan)
    (spare : Option Plan) : Nat :=
  let first := engine.survey signal 0 catalog plan
  first.evaluations +
    ((engine.fallbackSurvey signal catalog first spare).map Survey.evaluations).getD 0

end Engine

/-! ## Outcomes of runs that were called off -/

/-- How the outcome of a run reads that was called off: nobody is matched, the last warning says
why and no other one does, and there are no phases beyond the one in which it happened.  If it is
explained, the case tells the same, and the rules that were evaluated are counted. -/
structure Outcome.CalledOff (o : Outcome) (explained checked : Bool) (rules : Nat) : Prop where
  canceled : o.canceled = true
  matched : o.matched = ∅
  checkedFallback : o.checkedFallback = checked
  warnings : ∃ others, o.warnings = others ++ [canceledWarning] ∧ canceledWarning ∉ others
  phases : ∀ name, name ∈ o.timings.names ↔
    ∃ p ∈ [Phase.resolve, .primary] ++ (if checked then [Phase.fallback] else []), p.name = name
  case : o.case? = if explained then some .canceled else none
  rules : o.rulesEvaluated? = if explained then some rules else none

theorem eraseDups_concat {xs : List String} {x : String} (h : x ∉ xs) :
    (xs ++ [x]).eraseDups = xs.eraseDups ++ [x] := by
  have hrest : [x].removeAll xs = [x] := by
    simp [List.removeAll, h]
  rw [List.eraseDups_append, hrest]
  rfl

namespace Engine

variable {engine : Engine} {catalog : Catalog} {signal : Signal} {plan sparePlan : Plan}
  {spare : Option Plan} {explained : Bool}

/-- **A run that is called off reads so**, in whichever of its passes that happens. -/
theorem calledOff_of_canceled {first : Survey} {second : Option Survey}
    (hfirst : engine.survey signal 0 catalog plan = first)
    (hsecond : engine.fallbackSurvey signal catalog first spare = second)
    (canceled : (first.canceled || (second.map Survey.canceled).getD false) = true)
    (quietPlan : canceledWarning ∉ plan.warnings)
    (quietSpare : canceledWarning ∉ (spare.map Plan.warnings).getD [])
    (quietFirst : canceledWarning ∉ first.tally.warnings)
    (quietSecond : ∀ s ∈ second, canceledWarning ∉ s.tally.warnings) :
    (engine.conclude signal catalog explained plan spare).CalledOff explained second.isSome
      ((second.map fun s => first.tally.merge s.tally).getD first.tally).rulesEvaluated := by
  have quietTally : canceledWarning ∉
      ((second.map fun s => first.tally.merge s.tally).getD first.tally).warnings := by
    cases second with
    | none => exact quietFirst
    | some s =>
        intro h
        exact (NameSet.mem_union.1 h).elim quietFirst (quietSecond s rfl)
  have quietNoticed : canceledWarning ∉
      plan.warnings ++ if second.isSome then (spare.map Plan.warnings).getD [] else [] := by
    intro h
    rcases List.mem_append.1 h with h | h
    · exact quietPlan h
    · split at h
      · exact quietSpare h
      · cases h
  have quiet : canceledWarning ∉
      (plan.warnings ++ if second.isSome then (spare.map Plan.warnings).getD [] else []) ++
        ((second.map fun s => first.tally.merge s.tally).getD first.tally).warnings.toList :=
    fun h => (List.mem_append.1 h).elim quietNoticed quietTally
  exact {
    canceled := by simp only [conclude, hfirst, hsecond, canceled]
    matched := by simp only [conclude, hfirst, hsecond, canceled, if_true]
    checkedFallback := by simp only [conclude, hfirst, hsecond]
    warnings := by
      refine ⟨_, ?_, mt List.mem_eraseDups.1 quiet⟩
      rw [← eraseDups_concat quiet]
      simp only [conclude, hfirst, hsecond, canceled, if_true]
    phases := by
      intro name
      simp only [conclude, hfirst, hsecond]
      exact Timings.mem_names_untimed
    case := by
      simp only [conclude, hfirst, hsecond, canceled, if_true, Outcome.case?, explain]
      cases explained <;> rfl
    rules := by
      simp only [conclude, hfirst, hsecond, Outcome.rulesEvaluated?, explain]
      cases explained <;> rfl }

end Engine

/-! ## The ways in which a run ends -/

namespace Engine

/-- **How a run ends whose signal is raised right after its `N`-th evaluation**, once its trees are
prepared. -/
inductive Ending (engine : Engine) (catalog : Catalog) (input : MatchInput) (plan : Plan)
    (spare : Option Plan) (N : Nat) (o : Outcome) : Prop
  /-- The signal is raised before the primary tree has been asked about everybody: the run is
  called off after exactly so many members. -/
  | inPrimary (early : N < catalog.members.length)
      (reached : engine.evaluations ⟨some N⟩ catalog plan spare = N)
      (calledOff : o.CalledOff input.explain false
        (engine.strategy.surveyEach plan.tree (catalog.members.take N)).tally.rulesEvaluated)
  /-- The primary tree matches nobody, and the signal is raised before the fallback tree has been
  asked about everybody. -/
  | inFallback {sparePlan : Plan} (late : catalog.members.length ≤ N)
      (nobody : ∀ id, ¬ engine.Matches catalog plan.tree id) (given : spare = some sparePlan)
      (early : N < 2 * catalog.members.length)
      (reached : engine.evaluations ⟨some N⟩ catalog plan spare = N)
      (calledOff : o.CalledOff input.explain true
        ((engine.strategy.surveyEach plan.tree catalog.members).tally.rulesEvaluated +
          (engine.strategy.surveyEach sparePlan.tree
            (catalog.members.take (N - catalog.members.length))).tally.rulesEvaluated))
  /-- The signal comes too late to be seen: the outcome is that of a run without it. -/
  | undisturbed (late : catalog.members.length ≤ N)
      (tooLate : (∃ id, engine.Matches catalog plan.tree id) ∨ spare = none ∨
        2 * catalog.members.length ≤ N)
      (finished : o.canceled = false) (same : engine.run catalog input .never = .ok o) :
      Ending engine catalog input plan spare N o

variable {engine : Engine} {catalog : Catalog} {input : MatchInput} {plan : Plan}
  {spare : Option Plan}

theorem canceledWarning_not_mem_spare
    (sparePrepared : engine.prepare? catalog input.bindings input.fallback = .ok spare) :
    canceledWarning ∉ (spare.map Plan.warnings).getD [] := by
  cases hfallback : input.fallback with
  | none =>
      rw [hfallback] at sparePrepared
      cases sparePrepared
      exact List.not_mem_nil
  | some fallback =>
      rw [hfallback, prepare?] at sparePrepared
      cases hprepare : engine.prepare catalog input.bindings fallback with
      | error e =>
          rw [hprepare] at sparePrepared
          cases sparePrepared
      | ok sparePlan =>
          rw [hprepare] at sparePrepared
          cases sparePrepared
          exact canceledWarning_not_mem_prepare hprepare

theorem surveyEach_isEmpty_iff :
    (engine.strategy.surveyEach plan.tree catalog.members).matched.isEmpty = true ↔
      ∀ id, ¬ engine.Matches catalog plan.tree id := by
  rw [← engine.survey_of_never 0 catalog plan]
  exact survey_isEmpty_iff

/-- Nothing follows on a pass that was cut short. -/
theorem fallbackSurvey_of_cancel {signal : Signal} {s : Survey} :
    engine.fallbackSurvey signal catalog s.cancel spare = none := by
  simp [fallbackSurvey, Survey.cancel]

/-- Nor does anything on one that matched somebody. -/
theorem fallbackSurvey_of_somebody {signal : Signal}
    (somebody : ∃ id, engine.Matches catalog plan.tree id) :
    engine.fallbackSurvey signal catalog
      (engine.strategy.surveyEach plan.tree catalog.members) spare = none := by
  obtain ⟨id, hid⟩ := somebody
  have hempty : (engine.strategy.surveyEach plan.tree catalog.members).matched.isEmpty = false := by
    rw [← Bool.not_eq_true]
    exact fun h => surveyEach_isEmpty_iff.1 h id hid
  rw [fallbackSurvey, hempty, Bool.false_and, if_neg Bool.false_ne_true]

/-- On one that matched nobody the other tree follows. -/
theorem fallbackSurvey_of_nobody {signal : Signal} {sparePlan : Plan}
    (nobody : ∀ id, ¬ engine.Matches catalog plan.tree id) :
    engine.fallbackSurvey signal catalog (engine.strategy.surveyEach plan.tree catalog.members)
        (some sparePlan)
      = some (engine.survey signal catalog.members.length catalog sparePlan) := by
  rw [fallbackSurvey, surveyEach_isEmpty_iff.2 nobody, Strategy.surveyEach_canceled,
    Strategy.surveyEach_evaluations]
  rfl

section OneWorker

variable (single : engine.fanout.workers = 1) (quietPlan : canceledWarning ∉ plan.warnings)
  (quietSpare : canceledWarning ∉ (spare.map Plan.warnings).getD []) {N : Nat}
include single

theorem survey_of_early (early : N < catalog.members.length) :
    engine.survey ⟨some N⟩ 0 catalog plan
      = (engine.strategy.surveyEach plan.tree (catalog.members.take N)).cancel := by
  rw [survey_of_raisedAfter single (Nat.zero_le N), Nat.zero_add, Nat.sub_zero,
    if_neg (Nat.not_le.2 early)]

theorem survey_of_late (late : catalog.members.length ≤ N) :
    engine.survey ⟨some N⟩ 0 catalog plan
      = engine.strategy.surveyEach plan.tree catalog.members := by
  rw [survey_of_raisedAfter single (Nat.zero_le N), Nat.zero_add, if_pos late]

include quietPlan quietSpare

theorem ending_of_early (early : N < catalog.members.length) :
    engine.Ending catalog input plan spare N
      (engine.conclude ⟨some N⟩ catalog input.explain plan spare) := by
  have hfirst : engine.survey ⟨some N⟩ 0 catalog plan = _ := survey_of_early single early
  refine .inPrimary early ?_ ?_
  · rw [evaluations, hfirst, fallbackSurvey_of_cancel]
    show (engine.strategy.surveyEach plan.tree (catalog.members.take N)).evaluations = N
    rw [Strategy.surveyEach_evaluations, List.length_take, Nat.min_eq_left (Nat.le_of_lt early)]
  · exact calledOff_of_canceled hfirst fallbackSurvey_of_cancel rfl quietPlan quietSpare
      (engine.strategy.canceledWarning_not_mem_surveyEach _ _) (by simp)

theorem ending_of_soon {sparePlan : Plan} (late : catalog.members.length ≤ N)
    (nobody : ∀ id, ¬ engine.Matches catalog plan.tree id) (given : spare = some sparePlan)
    (soon : N < 2 * catalog.members.length) :
    engine.Ending catalog input plan spare N
      (engine.conclude ⟨some N⟩ catalog input.explain plan spare) := by
  subst given
  have hfirst : engine.survey ⟨some N⟩ 0 catalog plan = _ := survey_of_late single late
  have hsecond : engine.fallbackSurvey ⟨some N⟩ catalog
      (engine.strategy.surveyEach plan.tree catalog.members) (some sparePlan) = _ :=
    fallbackSurvey_of_nobody nobody
  rw [survey_of_raisedAfter single late, if_neg (by omega)] at hsecond
  refine .inFallback late nobody rfl soon ?_ ?_
  · rw [evaluations, hfirst, hsecond]
    show (engine.strategy.surveyEach plan.tree catalog.members).evaluations +
      (engine.strategy.surveyEach sparePlan.tree
        (catalog.members.take (N - catalog.members.length))).evaluations = N
    rw [Strategy.surveyEach_evaluations, Strategy.surveyEach_evaluations, List.length_take]
    omega
  · refine calledOff_of_canceled hfirst hsecond (Bool.or_true _) quietPlan quietSpare
      (engine.strategy.canceledWarning_not_mem_surveyEach _ _) ?_
    rintro s ⟨⟩
    exact engine.strategy.canceledWarning_not_mem_surveyEach _ _

omit quietPlan quietSpare

theorem ending_of_tooLate (late : catalog.members.length ≤ N)
    (tooLate : (∃ id, engine.Matches catalog plan.tree id) ∨ spare = none ∨
      2 * catalog.members.length ≤ N)
    (hrun : engine.run catalog input .never
      = .ok (engine.conclude .never catalog input.explain plan spare)) :
    engine.Ending catalog input plan spare N
      (engine.conclude ⟨some N⟩ catalog input.explain plan spare) := by
  have hsecond : ((engine.fallbackSurvey ⟨some N⟩ catalog
      (engine.strategy.surveyEach plan.tree catalog.members) spare).map Survey.canceled).getD false
      = false := by
    cases spare with
    | none =>
        rw [fallbackSurvey, Option.map_none, ite_self]
        rfl
    | some sparePlan =>
        by_cases nobody : ∀ id, ¬ engine.Matches catalog plan.tree id
        · have long : 2 * catalog.members.length ≤ N := by
            rcases tooLate with ⟨id, hid⟩ | hnone | long
            · exact absurd hid (nobody id)
            · cases hnone
            · exact long
          rw [fallbackSurvey_of_nobody nobody, survey_of_raisedAfter single late,
            if_pos (by omega)]
          exact engine.strategy.surveyEach_canceled _ _
        · push Not at nobody
          rw [fallbackSurvey_of_somebody nobody]
          rfl
  have finished : (engine.conclude ⟨some N⟩ catalog input.explain plan spare).canceled = false := by
    rw [conclude_canceled, survey_of_late single late, Strategy.surveyEach_canceled, hsecond,
      Bool.or_self]
  refine .undisturbed late tooLate finished ?_
  rw [conclude_of_finished finished]
  exact hrun

include quietPlan quietSpare

/-- What a run concludes with one worker is one of its endings. -/
theorem ending_of_conclude
    (hrun : engine.run catalog input .never
      = .ok (engine.conclude .never catalog input.explain plan spare)) :
    engine.Ending catalog input plan spare N
      (engine.conclude ⟨some N⟩ catalog input.explain plan spare) := by
  by_cases early : N < catalog.members.length
  · exact ending_of_early single quietPlan quietSpare early
  · have late : catalog.members.length ≤ N := Nat.not_lt.1 early
    by_cases tooLate : (∃ id, engine.Matches catalog plan.tree id) ∨ spare = none ∨
        2 * catalog.members.length ≤ N
    · exact ending_of_tooLate single late tooLate hrun
    · simp only [not_or, not_exists] at tooLate
      obtain ⟨nobody, hspare, soon⟩ := tooLate
      obtain ⟨sparePlan, given⟩ := Option.ne_none_iff_exists'.1 hspare
      exact ending_of_soon single quietPlan quietSpare late nobody given (Nat.not_le.1 soon)

end OneWorker

/-- **Cancellation is all or nothing.**  Take one worker, a primary tree that decides something and
trees without fault.  Wherever the signal is raised, the run ends in the way that is due there.  And
if the signal is up from the beginning and there is anybody to ask, the run is called off without a
single evaluation, and to the same outcome whatever the limits of the fan-out are. -/
theorem run_of_raisedAfter (engine : Engine) (catalog : Catalog) (input : MatchInput)
    {primary : Query Operand} {plan : Plan} {spare : Option Plan}
    (single : engine.fanout.workers = 1) (given : input.primary = some primary)
    (rules : primary.rules ≠ [])
    (prepared : engine.prepare catalog input.bindings primary = .ok plan)
    (sparePrepared : engine.prepare? catalog input.bindings input.fallback = .ok spare) :
    (∀ N, ∃ o, engine.run catalog input ⟨some N⟩ = .ok o ∧
        engine.Ending catalog input plan spare N o) ∧
      (catalog.members ≠ [] → ∃ o, engine.run catalog input .raised = .ok o ∧
        o.CalledOff input.explain false 0 ∧ ∀ workers least,
          (engine.withFanout workers least).run catalog input .raised = .ok o) := by
  have quietPlan := canceledWarning_not_mem_prepare prepared
  have quietSpare := canceledWarning_not_mem_spare sparePrepared
  constructor
  · intro N
    refine ⟨_, run_of_prepared given rules prepared sparePrepared, ?_⟩
    exact ending_of_conclude single quietPlan quietSpare
      (run_of_prepared given rules prepared sparePrepared)
  · intro somebody
    have hfirst : ∀ engine : Engine, engine.survey .raised 0 catalog plan = ({} : Survey).cancel :=
      fun engine => survey_of_raised somebody 0
    have hsecond : ∀ engine : Engine,
        engine.fallbackSurvey .raised catalog ({} : Survey).cancel spare = none :=
      fun engine => fallbackSurvey_of_cancel
    refine ⟨_, run_of_prepared given rules prepared sparePrepared, ?_, fun workers least => ?_⟩
    · exact calledOff_of_canceled (hfirst engine) (hsecond engine) rfl quietPlan quietSpare
        NameSet.not_mem_empty (by simp)
    · have hsame :
          (engine.withFanout workers least).conclude .raised catalog input.explain plan spare
            = engine.conclude .raised catalog input.explain plan spare := by
        simp only [conclude, hfirst, hsecond]
        rfl
      have hrun : (engine.withFanout workers least).run catalog input .raised = _ :=
        run_of_prepared given rules prepared sparePrepared
      rw [hrun, hsame]

/-- Two members, a primary tree that matches neither and a fallback tree that would match both: a
signal after the third evaluation calls the run off when the fallback tree has been asked about the
first of them. -/
theorem run_of_raised_in_fallback :
    ∃ o : Outcome, (({} : Engine).withFanout 1 1).run
        ⟨"team", "org", [⟨"region", "Region", .text, []⟩],
          [⟨"a", ⟨[("region", ["eu"])]⟩⟩, ⟨"b", ⟨[("region", ["us"])]⟩⟩]⟩
        { primary := some (.rule ⟨"region", .isEmpty, none⟩),
          fallback := some (.rule ⟨"region", .isNotEmpty, none⟩), explain := true } ⟨some 3⟩
          = .ok o ∧
      o.CalledOff true true 3 := by
  have single : (({} : Engine).withFanout 1 1).fanout.workers = 1 := rfl
  have prepared : (({} : Engine).withFanout 1 1).prepare
      ⟨"team", "org", [⟨"region", "Region", .text, []⟩],
        [⟨"a", ⟨[("region", ["eu"])]⟩⟩, ⟨"b", ⟨[("region", ["us"])]⟩⟩]⟩ {}
      (.rule ⟨"region", .isEmpty, none⟩) = .ok ⟨.rule ⟨"region", .isEmpty, none⟩, []⟩ := rfl
  have sparePrepared : (({} : Engine).withFanout 1 1).prepare?
      ⟨"team", "org", [⟨"region", "Region", .text, []⟩],
        [⟨"a", ⟨[("region", ["eu"])]⟩⟩, ⟨"b", ⟨[("region", ["us"])]⟩⟩]⟩ {}
      (some (.rule ⟨"region", .isNotEmpty, none⟩))
      = .ok (some ⟨.rule ⟨"region", .isNotEmpty, none⟩, []⟩) := rfl
  obtain ⟨o, hrun, ending⟩ := (run_of_raisedAfter _ _
    { primary := some (.rule ⟨"region", .isEmpty, none⟩),
      fallback := some (.rule ⟨"region", .isNotEmpty, none⟩), explain := true }
    single rfl (List.cons_ne_nil _ _) prepared sparePrepared).1 3
  refine ⟨o, hrun, ?_⟩
  cases ending with
  | inPrimary early => exact absurd early (by decide)
  | inFallback _ _ given _ _ calledOff =>
      cases given
      exact calledOff
  | undisturbed _ _ finished =>
      cases hrun
      exact absurd finished (by decide)

end Engine

end TeamRouting
