import TeamRouting.Matching.Outcome
import TeamRouting.Matching.Survey

/-!
# Runs

Finds the members to whom a booking may go. The primary tree decides; if it matches nobody, the
fallback tree does. Without a primary tree, or with one that has no rules, everybody matches. Both
trees are resolved and checked before any member is evaluated, so a fault in either is found
whatever the members are like.

* `Engine` — how runs are made;
* `Engine.prepare` — resolves and checks a tree;
* `Engine.run` — a run.
-/

namespace TeamRouting

/-- What is said when there is no primary tree. -/
def noLogicWarning : String := "no attribute logic configured"

/-- What is said when a run was called off. -/
def canceledWarning : String := "evaluation canceled before all members were checked"

/-- How runs are made. -/
structure Engine where
  strategy : Strategy := .attributeLogic
  /-- the sources of answers that exist -/
  sources : NameSet := .ofList [formSource]
  fanout : Fanout := { workers := 4, least := 64 }
deriving DecidableEq

/-- What a run is about, besides the catalog. -/
structure MatchInput where
  primary : Option (Query Operand) := none
  fallback : Option (Query Operand) := none
  bindings : Bindings := {}
  /-- an explanation is wanted -/
  explain : Bool := false
deriving DecidableEq

/-- A tree that is resolved and checked, and what was noticed on the way. -/
structure Plan where
  tree : Query ResolvedOperand
  warnings : List String

/-- The outcome of a run in which everybody matches. -/
def Outcome.everybody (case : Case) (warnings : List String) (catalog : Catalog)
    (explained : Bool) (query : Option (Query Operand)) : Outcome where
  matched := catalog.memberIds
  warnings := warnings
  explanation := explain explained case fun _ => .everybody catalog.memberIds query

namespace Engine

/-- The engine with other limits for the fan-out. -/
def withFanout (engine : Engine) (workers least : Nat) : Engine :=
  { engine with fanout := .ofLimits workers least }

/-- Resolves and checks a tree. -/
def prepare (engine : Engine) (catalog : Catalog) (bindings : Bindings) (query : Query Operand) :
    Except Misconfiguration Plan :=
  match query.resolve engine.sources bindings with
  | .error e => .error e
  | .ok resolution =>
    match resolution.tree.validate catalog with
    | .error e => .error e
    | .ok validation => .ok ⟨validation.tree, resolution.warnings ++ validation.warnings⟩

/-- Resolves and checks a tree, if there is one. -/
def prepare? (engine : Engine) (catalog : Catalog) (bindings : Bindings) :
    Option (Query Operand) → Except Misconfiguration (Option Plan)
  | none => .ok none
  | some query => (engine.prepare catalog bindings query).map some

/-- A pass over the members of a catalog. -/
def survey (engine : Engine) (signal : Signal) (earlier : Nat) (catalog : Catalog) (plan : Plan) :
    Survey :=
  Pass.members ⟨engine.strategy, plan.tree, signal, engine.fanout⟩ earlier catalog.members

/-- The pass with the fallback tree, which takes place if the primary one matched nobody and was
not called off. -/
def fallbackSurvey (engine : Engine) (signal : Signal) (catalog : Catalog) (first : Survey)
    (plan : Option Plan) : Option Survey :=
  if first.matched.isEmpty && !first.canceled then
    plan.map (engine.survey signal first.evaluations catalog)
  else
    none

/-- The outcome of a run with prepared trees. -/
def conclude (engine : Engine) (signal : Signal) (catalog : Catalog) (explained : Bool)
    (primary : Plan) (fallback : Option Plan) : Outcome :=
  let first := engine.survey signal 0 catalog primary
  let second := engine.fallbackSurvey signal catalog first fallback
  let tally := (second.map fun s => first.tally.merge s.tally).getD first.tally
  let canceled := first.canceled || (second.map Survey.canceled).getD false
  let noticed := primary.warnings ++
    if second.isSome then (fallback.map Plan.warnings).getD [] else []
  let warnings :=
    (noticed ++ tally.warnings.toList ++ if canceled then [canceledWarning] else []).eraseDups
  let timings := Timings.untimed <|
    [.resolve, .primary] ++ if second.isSome then [.fallback] else []
  let case : Case :=
    if canceled then .canceled else if second.isSome then .readyWithFallback else .ready
  { matched := if canceled then ∅ else (second.map Survey.matched).getD first.matched
    checkedFallback := second.isSome
    canceled := canceled
    warnings := warnings
    timings := timings
    explanation := explain explained case fun _ =>
      .evaluated engine.strategy ⟨primary.tree, some first.matched⟩
        (fallback.map fun plan => ⟨plan.tree, second.map Survey.matched⟩)
        second.isSome tally.rulesEvaluated warnings timings }

/-- Finds the members of a catalog to whom a booking may go. -/
def run (engine : Engine) (catalog : Catalog) (input : MatchInput) (signal : Signal) :
    Except Misconfiguration Outcome :=
  match input.primary with
  | none =>
    .ok (.everybody .noLogicFound [noLogicWarning] catalog input.explain none)
  | some primary =>
    if primary.isEmptyQuery then
      .ok (.everybody .emptyQuery [] catalog input.explain (some primary))
    else
      match engine.prepare catalog input.bindings primary with
      | .error e => .error e
      | .ok plan =>
        match engine.prepare? catalog input.bindings input.fallback with
        | .error e => .error e
        | .ok fallback => .ok (engine.conclude signal catalog input.explain plan fallback)

end Engine

end TeamRouting
