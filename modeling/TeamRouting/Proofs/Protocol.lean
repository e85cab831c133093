import TeamRouting.Proofs.Partition
import TeamRouting.Proofs.Traversal

/-!
# The protocol of a run

The primary tree decides, and if it matches nobody, the fallback tree does.  This file says so
without workers, tallies and plans: `Engine.Answer` lists the answers that a run may give, each
with the conditions under which it is due, in terms of what resolving and checking a tree comes to
(`Engine.Refuses`, `Engine.Prepares`) and of whom the prepared tree matches (`Engine.Matches`).

Main statement: a run that is not called off gives the answer that is due, and with a primary tree
that decides nothing the fallback tree is not even looked at (`Engine.run_answers`).
-/

namespace TeamRouting

/-! ## Phases -/

theorem Dictionary.mem_keys_insert {κ α : Type} [DecidableEq κ] {d : Dictionary κ α} {k k' : κ}
    {v : α} : k' ∈ (d.insert k v).keys ↔ k' = k ∨ k' ∈ d.keys := by
  obtain ⟨entries⟩ := d
  simp only [keys, insert]
  induction entries with
  | nil => simp [put]
  | cons entry rest ih =>
      unfold put
      by_cases h : entry.1 = k
      · rw [if_pos h]
        simp [h]
      · rw [if_neg h, List.map_cons, List.mem_cons, ih, List.map_cons, List.mem_cons]
        exact or_left_comm

namespace Timings

theorem mem_names_insert {t : Timings} {phase name : String} {milliseconds : Option Float} :
    name ∈ (t.insert phase milliseconds).names ↔ name = phase ∨ name ∈ t.names := by
  simp only [names, insert, NameSet.mem_ofList, Dictionary.mem_keys_insert]

theorem mem_names_foldl_insert {phases : List Phase} {t : Timings} {name : String} :
    name ∈ (phases.foldl (fun t p => t.insert p.name none) t).names ↔
      name ∈ t.names ∨ ∃ p ∈ phases, p.name = name := by
  induction phases generalizing t with
  | nil => simp
  | cons p rest ih =>
      rw [List.foldl_cons, ih, mem_names_insert]
      simp only [List.exists_mem_cons_iff, eq_comm (a := name)]
      exact or_assoc.trans or_left_comm

/-- The phases that are noted are those that were gone through. -/
theorem mem_names_untimed {phases : List Phase} {name : String} :
    name ∈ (untimed phases).names ↔ ∃ p ∈ phases, p.name = name := by
  rw [untimed, mem_names_foldl_insert]
  exact or_iff_right (List.not_mem_nil)

end Timings

/-! ## What an outcome reports -/

/-- An outcome reports these ids, whether the fallback was checked, and these phases. -/
structure Outcome.Reports (o : Outcome) (ids : String → Prop) (checked : Bool)
    (phases : List Phase) : Prop where
  matched : ∀ id, id ∈ o.matched ↔ ids id
  checkedFallback : o.checkedFallback = checked
  notCanceled : o.canceled = false
  phases : ∀ name, name ∈ o.timings.names ↔ ∃ p ∈ phases, p.name = name

/-- The ids that some member has. -/
def Catalog.HasMember (catalog : Catalog) (id : String) : Prop := ∃ m ∈ catalog.members, m.id = id

/-- There is no primary tree, or one without a rule anywhere. -/
def MatchInput.DecidesNothing (input : MatchInput) : Prop :=
  ∀ query, input.primary = some query → query.rules = []

/-! ## The answers that are due -/

namespace Engine

variable (engine : Engine) (catalog : Catalog)

/-- Resolving the tree, or checking what it resolves to, fails with this fault. -/
def Refuses (bindings : Bindings) (query : Query Operand) (e : Misconfiguration) : Prop :=
  query.resolve engine.sources bindings = .error e ∨
    ∃ resolution, query.resolve engine.sources bindings = .ok resolution ∧
      resolution.tree.validate catalog = .error e

/-- Resolving the tree and checking what it resolves to lead to this tree. -/
def Prepares (bindings : Bindings) (query : Query Operand) (tree : Query ResolvedOperand) : Prop :=
  ∃ resolution validation, query.resolve engine.sources bindings = .ok resolution ∧
    resolution.tree.validate catalog = .ok validation ∧ validation.tree = tree

/-- Some member with this id satisfies the prepared tree. -/
def Matches (tree : Query ResolvedOperand) (id : String) : Prop :=
  ∃ m ∈ catalog.members, m.id = id ∧ engine.strategy.satisfies tree m = true

/-- **The protocol.**  The answers that may be given to an input, each with the conditions under
which it is due. -/
inductive Answer (input : MatchInput) : Except Misconfiguration Outcome → Prop
  /-- Nothing is to be decided: everybody, after no phase at all. -/
  | everybody {o : Outcome} (nothing : input.DecidesNothing)
      (report : o.Reports catalog.HasMember false []) : Answer input (.ok o)
  /-- The primary tree is at fault. -/
  | primaryFault {primary : Query Operand} {e : Misconfiguration}
      (given : input.primary = some primary) (rules : primary.rules ≠ [])
      (fault : engine.Refuses catalog input.bindings primary e) : Answer input (.error e)
  /-- The fallback tree is at fault, whomever the primary one matches. -/
  | fallbackFault {primary fallback : Query Operand} {tree : Query ResolvedOperand}
      {e : Misconfiguration} (given : input.primary = some primary) (rules : primary.rules ≠ [])
      (prepared : engine.Prepares catalog input.bindings primary tree)
      (spare : input.fallback = some fallback)
      (fault : engine.Refuses catalog input.bindings fallback e) : Answer input (.error e)
  /-- There is no fallback tree: whomever the primary one matches. -/
  | primaryAlone {primary : Query Operand} {tree : Query ResolvedOperand} {o : Outcome}
      (given : input.primary = some primary) (rules : primary.rules ≠ [])
      (prepared : engine.Prepares catalog input.bindings primary tree)
      (noSpare : input.fallback = none)
      (report : o.Reports (engine.Matches catalog tree) false [.resolve, .primary]) :
      Answer input (.ok o)
  /-- The primary tree matches somebody, and the fallback tree is without fault. -/
  | primaryMatches {primary fallback : Query Operand} {tree spareTree : Query ResolvedOperand}
      {o : Outcome} (given : input.primary = some primary) (rules : primary.rules ≠ [])
      (prepared : engine.Prepares catalog input.bindings primary tree)
      (spare : input.fallback = some fallback)
      (sparePrepared : engine.Prepares catalog input.bindings fallback spareTree)
      (somebody : ∃ id, engine.Matches catalog tree id)
      (report : o.Reports (engine.Matches catalog tree) false [.resolve, .primary]) :
      Answer input (.ok o)
  /-- The primary tree matches nobody: whomever the fallback tree matches, even if that is nobody
  again. -/
  | fallbackMatches {primary fallback : Query Operand} {tree spareTree : Query ResolvedOperand}
      {o : Outcome} (given : input.primary = some primary) (rules : primary.rules ≠ [])
      (prepared : engine.Prepares catalog input.bindings primary tree)
      (spare : input.fallback = some fallback)
      (sparePrepared : engine.Prepares catalog input.bindings fallback spareTree)
      (nobody : ∀ id, ¬ engine.Matches catalog tree id)
      (report : o.Reports (engine.Matches catalog spareTree) true [.resolve, .primary, .fallback]) :
      Answer input (.ok o)

/-! ## Preparing trees -/

variable {engine catalog}

theorem refuses_of_prepare_error {bindings : Bindings} {query : Query Operand}
    {e : Misconfiguration} (h : engine.prepare catalog bindings query = .error e) :
    engine.Refuses catalog bindings query e := by
  rw [prepare] at h
  cases hr : query.resolve engine.sources bindings with
  | error e' =>
      rw [hr] at h
      cases h
      exact Or.inl hr
  | ok resolution =>
      rw [hr] at h
      refine Or.inr ⟨resolution, hr, ?_⟩
      cases hv : resolution.tree.validate catalog with
      | error e' => simpa [hv] using h
      | ok validation => simp [hv] at h

theorem prepares_of_prepare_ok {bindings : Bindings} {query : Query Operand} {plan : Plan}
    (h : engine.prepare catalog bindings query = .ok plan) :
    engine.Prepares catalog bindings query plan.tree := by
  rw [prepare] at h
  cases hr : query.resolve engine.sources bindings with
  | error e => simp [hr] at h
  | ok resolution =>
      cases hv : resolution.tree.validate catalog with
      | error e => simp [hr, hv] at h
      | ok validation =>
          refine ⟨resolution, validation, hr, hv, ?_⟩
          simp only [hr, hv, Except.ok.injEq] at h
          rw [← h]

/-- A tree is resolved, and what it resolves to is checked. -/
theorem prepare_eq_bind {bindings : Bindings} {query : Query Operand} :
    engine.prepare catalog bindings query =
      (query.resolve engine.sources bindings).bind fun resolution =>
        (resolution.tree.validate catalog).map fun validation =>
          ⟨validation.tree, resolution.warnings ++ validation.warnings⟩ := by
  rw [prepare]
  cases query.resolve engine.sources bindings with
  | error e => rfl
  | ok resolution =>
      dsimp only [Except.bind]
      cases resolution.tree.validate catalog <;> rfl

/-- A plan is what resolution and validation leave of a tree, with what both had to say. -/
theorem prepare_eq_ok_iff {bindings : Bindings} {query : Query Operand} {plan : Plan} :
    engine.prepare catalog bindings query = .ok plan ↔
      ∃ resolution validation, query.resolve engine.sources bindings = .ok resolution ∧
        resolution.tree.validate catalog = .ok validation ∧
        plan = ⟨validation.tree, resolution.warnings ++ validation.warnings⟩ := by
  rw [prepare]
  cases hr : query.resolve engine.sources bindings with
  | error e => simp
  | ok resolution =>
      cases hv : resolution.tree.validate catalog with
      | error e => simp [hv]
      | ok validation => simp [hv, eq_comm]

/-! ## Concluding with prepared trees -/

theorem mem_survey_matched {earlier : Nat} {plan : Plan} {id : String} :
    id ∈ (engine.survey .never earlier catalog plan).matched ↔
      engine.Matches catalog plan.tree id := by
  rw [survey_of_never]
  exact Strategy.mem_surveyEach_matched _ _

theorem survey_canceled {earlier : Nat} {plan : Plan} :
    (engine.survey .never earlier catalog plan).canceled = false := by
  rw [survey_of_never]
  exact Strategy.surveyEach_canceled _ _ _

theorem survey_isEmpty_iff {earlier : Nat} {plan : Plan} :
    (engine.survey .never earlier catalog plan).matched.isEmpty = true ↔
      ∀ id, ¬ engine.Matches catalog plan.tree id := by
  rw [NameSet.isEmpty_iff]
  exact forall_congr' fun id => not_congr mem_survey_matched

/-- Without a second survey the first one is the result. -/
theorem conclude_of_first {plan : Plan} {spare : Option Plan} {explained : Bool}
    (h : engine.fallbackSurvey .never catalog (engine.survey .never 0 catalog plan) spare = none) :
    (engine.conclude .never catalog explained plan spare).Reports
      (engine.Matches catalog plan.tree) false [.resolve, .primary] where
  matched id := by
    simp only [conclude, h, survey_canceled, Option.map_none, Option.getD_none, Bool.or_self,
      Bool.false_eq_true, if_false]
    exact mem_survey_matched
  checkedFallback := by simp only [conclude, h, Option.isSome_none]
  notCanceled := by simp only [conclude, h, survey_canceled, Option.map_none, Option.getD_none,
    Bool.or_self]
  phases name := by
    simp only [conclude, h, Option.isSome_none, Bool.false_eq_true, if_false, List.append_nil]
    exact Timings.mem_names_untimed

/-- A second survey is the result, whatever the first one was. -/
theorem conclude_of_second {plan sparePlan : Plan} {explained : Bool} {earlier : Nat}
    (h : engine.fallbackSurvey .never catalog (engine.survey .never 0 catalog plan) (some sparePlan)
      = some (engine.survey .never earlier catalog sparePlan)) :
    (engine.conclude .never catalog explained plan (some sparePlan)).Reports
      (engine.Matches catalog sparePlan.tree) true [.resolve, .primary, .fallback] where
  matched id := by
    simp only [conclude, h, survey_canceled, Option.map_some, Option.getD_some, Bool.or_self,
      Bool.false_eq_true, if_false]
    exact mem_survey_matched
  checkedFallback := by simp only [conclude, h, Option.isSome_some]
  notCanceled := by simp only [conclude, h, survey_canceled, Option.map_some, Option.getD_some,
    Bool.or_self]
  phases name := by
    simp only [conclude, h, Option.isSome_some, if_true]
    exact Timings.mem_names_untimed

/-- The second survey takes place exactly when the first one matched nobody. -/
theorem fallbackSurvey_of_never (first : Survey) (h : first.canceled = false)
    (spare : Option Plan) :
    engine.fallbackSurvey .never catalog first spare =
      if first.matched.isEmpty then
        spare.map (engine.survey .never first.evaluations catalog)
      else
        none := by
  simp only [fallbackSurvey, h, Bool.not_false, Bool.and_true]

/-- The answer that is due once the primary tree is prepared. -/
theorem answer_of_primary {input : MatchInput} {primary : Query Operand} {plan : Plan}
    (given : input.primary = some primary) (rules : primary.rules ≠ [])
    (prepared : engine.Prepares catalog input.bindings primary plan.tree) :
    engine.Answer catalog input ((engine.prepare? catalog input.bindings input.fallback).map
      (engine.conclude .never catalog input.explain plan)) := by
  cases spare : input.fallback with
  | none =>
      have hnone : engine.fallbackSurvey .never catalog (engine.survey .never 0 catalog plan) none
          = none := by
        rw [fallbackSurvey_of_never _ survey_canceled, Option.map_none, ite_self]
      exact .primaryAlone given rules prepared spare (conclude_of_first hnone)
  | some fallback =>
      cases hf : engine.prepare catalog input.bindings fallback with
      | error e =>
          rw [prepare?, hf]
          exact .fallbackFault given rules prepared spare (refuses_of_prepare_error hf)
      | ok sparePlan =>
          rw [prepare?, hf]
          have hspare := prepares_of_prepare_ok hf
          by_cases nobody : (engine.survey .never 0 catalog plan).matched.isEmpty = true
          · have hsecond : engine.fallbackSurvey .never catalog
                (engine.survey .never 0 catalog plan) (some sparePlan) = _ :=
              fallbackSurvey_of_never _ survey_canceled _
            rw [if_pos nobody, Option.map_some] at hsecond
            exact .fallbackMatches given rules prepared spare hspare (survey_isEmpty_iff.1 nobody)
              (conclude_of_second hsecond)
          · have hnone : engine.fallbackSurvey .never catalog
                (engine.survey .never 0 catalog plan) (some sparePlan) = _ :=
              fallbackSurvey_of_never _ survey_canceled _
            rw [if_neg nobody] at hnone
            have somebody : ∃ id, engine.Matches catalog plan.tree id := by
              rw [survey_isEmpty_iff] at nobody
              push Not at nobody
              exact nobody
            exact .primaryMatches given rules prepared spare hspare somebody
              (conclude_of_first hnone)

/-- A run with a primary tree that decides something goes on to prepare it. -/
theorem run_of_rules {input : MatchInput} {primary : Query Operand} {signal : Signal}
    (given : input.primary = some primary) (rules : primary.rules ≠ []) :
    engine.run catalog input signal =
      (engine.prepare catalog input.bindings primary).bind fun plan =>
        (engine.prepare? catalog input.bindings input.fallback).map
          (engine.conclude signal catalog input.explain plan) := by
  have hrules : primary.isEmptyQuery = false := by
    rw [← Bool.not_eq_true, Query.isEmptyQuery_iff]
    exact rules
  simp only [run, given, hrules, Bool.false_eq_true, if_false]
  cases engine.prepare catalog input.bindings primary with
  | error e => rfl
  | ok plan => cases engine.prepare? catalog input.bindings input.fallback <;> rfl

/-- Once the trees are prepared, the run concludes with them. -/
theorem run_of_prepared {input : MatchInput} {primary : Query Operand} {plan : Plan}
    {spare : Option Plan} {signal : Signal} (given : input.primary = some primary)
    (rules : primary.rules ≠ [])
    (prepared : engine.prepare catalog input.bindings primary = .ok plan)
    (sparePrepared : engine.prepare? catalog input.bindings input.fallback = .ok spare) :
    engine.run catalog input signal
      = .ok (engine.conclude signal catalog input.explain plan spare) := by
  rw [run_of_rules given rules, prepared, sparePrepared]
  rfl

/-- A run with a primary tree that decides something answers an outcome if both trees can be
prepared, and the outcome is what the plans conclude to. -/
theorem run_eq_ok_iff {input : MatchInput} {primary : Query Operand} {signal : Signal}
    {o : Outcome} (given : input.primary = some primary) (rules : primary.rules ≠ []) :
    engine.run catalog input signal = .ok o ↔
      ∃ plan spare, engine.prepare catalog input.bindings primary = .ok plan ∧
        engine.prepare? catalog input.bindings input.fallback = .ok spare ∧
        engine.conclude signal catalog input.explain plan spare = o := by
  constructor
  · intro h
    rw [run_of_rules given rules] at h
    cases prepared : engine.prepare catalog input.bindings primary with
    | error e =>
        rw [prepared] at h
        cases h
    | ok plan =>
        cases sparePrepared : engine.prepare? catalog input.bindings input.fallback with
        | error e =>
            rw [prepared, sparePrepared] at h
            cases h
        | ok spare =>
            rw [prepared, sparePrepared] at h
            exact ⟨plan, spare, rfl, rfl, Except.ok.inj h⟩
  · rintro ⟨plan, spare, prepared, sparePrepared, rfl⟩
    exact run_of_prepared given rules prepared sparePrepared

/-- A run that decides nothing reports everybody, and no part of it is read but the primary tree
and the wish for an explanation. -/
theorem run_of_nothing {input : MatchInput} (nothing : input.DecidesNothing) :
    ∃ o : Outcome, o.Reports catalog.HasMember false [] ∧
      ∀ (bindings : Bindings) (fallback : Option (Query Operand)) (signal : Signal),
        engine.run catalog { input with bindings := bindings, fallback := fallback } signal
          = .ok o := by
  have hids : ∀ id, id ∈ catalog.memberIds ↔ catalog.HasMember id := by
    intro id
    rw [Catalog.memberIds, NameSet.mem_ofList, List.mem_map]
    rfl
  have hphases : ∀ name,
      name ∈ (Timings.untimed []).names ↔ ∃ p ∈ ([] : List Phase), p.name = name :=
    fun name => Timings.mem_names_untimed
  cases given : input.primary with
  | none =>
      refine ⟨_, ?_, fun bindings fallback signal => by simp only [run]; rfl⟩
      exact ⟨hids, rfl, rfl, hphases⟩
  | some primary =>
      have hempty : primary.isEmptyQuery = true := Query.isEmptyQuery_iff.2 (nothing primary given)
      refine ⟨_, ?_, fun bindings fallback signal => by
        simp only [run, hempty, if_true]; rfl⟩
      exact ⟨hids, rfl, rfl, hphases⟩

/-- **A run follows the protocol.**  Whatever the catalog, the trees, the answers of the booking,
the strategy and the fan-out are, a run that is not called off gives the answer that is due; and
if the primary tree decides nothing, the answer is the same with any other fallback tree, a faulty
one included. -/
theorem run_answers (engine : Engine) (catalog : Catalog) (input : MatchInput) :
    engine.Answer catalog input (engine.run catalog input .never) ∧
      (input.DecidesNothing → ∀ fallback : Option (Query Operand),
        engine.run catalog { input with fallback := fallback } .never
          = engine.run catalog input .never) := by
  by_cases nothing : input.DecidesNothing
  · obtain ⟨o, report, hrun⟩ : ∃ o : Outcome, o.Reports catalog.HasMember false [] ∧
        ∀ (bindings : Bindings) (fallback : Option (Query Operand)) (signal : Signal),
          engine.run catalog { input with bindings := bindings, fallback := fallback } signal
            = .ok o := run_of_nothing nothing
    have hsame : engine.run catalog input .never = .ok o :=
      hrun input.bindings input.fallback .never
    rw [hsame]
    exact ⟨.everybody nothing report, fun _ fallback => hrun input.bindings fallback .never⟩
  · refine ⟨?_, fun h => absurd h nothing⟩
    rw [MatchInput.DecidesNothing] at nothing
    push Not at nothing
    obtain ⟨primary, given, rules⟩ := nothing
    rw [run_of_rules given rules]
    cases hp : engine.prepare catalog input.bindings primary with
    | error e => exact .primaryFault given rules (refuses_of_prepare_error hp)
    | ok plan => exact answer_of_primary given rules (prepares_of_prepare_ok hp)

end Engine

end TeamRouting
