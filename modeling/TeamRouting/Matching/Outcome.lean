import TeamRouting.Evaluation
import TeamRouting.Query.Codec

/-!
# Outcomes

What a run answers: who matched, how that came about, what there is to warn of, which phases were
gone through, and, if asked for, an explanation.

* `Timings` — the phases of a run;
* `Case`, `Explanation`, `Account` — why an outcome came about;
* `Outcome` — the answer;
* `Outcome.toJson` — its JSON form.
-/

namespace TeamRouting

/-! ## Phases -/

/-- The phases of a call. -/
inductive Phase where
  | fetch
  | resolve
  | primary
  | fallback
deriving DecidableEq, Repr, Inhabited

/-- The name of a phase. -/
def Phase.name : Phase → String
  | fetch => "fetch"
  | resolve => "resolve"
  | primary => "primary"
  | fallback => "fallback"

/-- The phases that were gone through, by name, with their milliseconds. A phase may have been gone
through untimed; what is computed without a clock always is. -/
structure Timings where
  phases : Dictionary String (Option Float) := ∅
deriving DecidableEq, Inhabited

namespace Timings

/-- Notes a phase, in place of what was noted about it before. -/
def insert (t : Timings) (phase : String) (milliseconds : Option Float) : Timings :=
  ⟨t.phases.insert phase milliseconds⟩

/-- What is noted about a phase: nothing, that it went untimed, or its milliseconds. -/
def find? (t : Timings) (phase : String) : Option (Option Float) := t.phases.find? phase

/-- The names of the phases. -/
def names (t : Timings) : NameSet := .ofList t.phases.keys

/-- The given phases, untimed. -/
def untimed (phases : List Phase) : Timings := phases.foldl (fun t p => t.insert p.name none) {}

/-- Writes the phases in the order of their names. -/
def toJson (t : Timings) : Json :=
  .object (t.names.toList.map fun name =>
    (name, (((t.find? name).bind id).map Json.float).getD .null))

end Timings

/-! ## Explanations -/

/-- Why an outcome came about. -/
inductive Case where
  /-- there is no primary tree; everybody matched -/
  | noLogicFound
  /-- the primary tree has no rules; everybody matched -/
  | emptyQuery
  /-- the result is that of the primary tree -/
  | ready
  /-- the primary tree matched nobody; the result is that of the fallback tree -/
  | readyWithFallback
  /-- the call was called off before it was through -/
  | canceled
deriving DecidableEq, Repr, Inhabited

namespace Case

/-- The name of a case. -/
def name : Case → String
  | noLogicFound => "NO_LOGIC_FOUND"
  | emptyQuery => "MATCHES_ALL_MEMBERS_BECAUSE_OF_EMPTY_QUERY_VALUE"
  | ready => "MATCH_RESULTS_READY"
  | readyWithFallback => "MATCH_RESULTS_READY_WITH_FALLBACK"
  | canceled => "EVALUATION_CANCELED"

/-- Every case. -/
def all : List Case := [noLogicFound, emptyQuery, ready, readyWithFallback, canceled]

end Case

/-- A case and what is told about it. -/
structure Explanation (π : Type) where
  case : Case
  payload : π
deriving DecidableEq

/-- An explanation, if one is wanted; otherwise its payload is not computed. -/
def explain {π : Type} (wanted : Bool) (case : Case) (payload : Unit → π) :
    Option (Explanation π) :=
  if wanted then some ⟨case, payload ()⟩ else none

/-- What is told about the trees of a run. -/
structure TreeAccount where
  tree : Query ResolvedOperand
  /-- the ids that the tree matched, if it was evaluated -/
  matched : Option NameSet
deriving DecidableEq

/-- What is told about a run. -/
inductive Account where
  /-- all ids, and the tree without rules, if there is a tree -/
  | everybody (memberIds : NameSet) (query : Option (Query Operand))
  /-- the trees and what came of them -/
  | evaluated (strategy : Strategy) (primary : TreeAccount) (fallback : Option TreeAccount)
      (checkedFallback : Bool) (rulesEvaluated : Nat) (warnings : List String)
      (timings : Timings)
deriving DecidableEq

/-- The number of rules that were evaluated, each time they were; nothing is said about it where
everybody matched. -/
def Account.rulesEvaluated? : Account → Option Nat
  | everybody _ _ => none
  | evaluated _ _ _ _ rules _ _ => some rules

/-- Writes a set of names. -/
def NameSet.toJson (s : NameSet) : Json := .list (s.toList.map Json.text)

/-- Writes what is told about the fallback tree. -/
def TreeAccount.fallbackToJson (t : TreeAccount) : Json :=
  .object [
    ("query", t.tree.toJson ResolvedOperand.toJson),
    ("evaluated", .bool t.matched.isSome),
    ("matchedMemberIds", (t.matched.map NameSet.toJson).getD .null)]

/-- Writes what is told about the primary tree. -/
def TreeAccount.primaryToJson (t : TreeAccount) : Json :=
  .object [
    ("query", t.tree.toJson ResolvedOperand.toJson),
    ("matchedMemberIds", (t.matched.map NameSet.toJson).getD .null)]

/-- Writes what is told about a run. -/
def Account.toJson : Account → Json
  | everybody ids query =>
    .object <|
      [("memberIds", ids.toJson)] ++
        (query.map fun q => ("query", q.toJson Operand.toJson)).toList
  | evaluated strategy primary fallback checked rules warnings timings =>
    .object [
      ("evaluator", .text strategy.name),
      ("primary", primary.primaryToJson),
      ("fallback", (fallback.map TreeAccount.fallbackToJson).getD .null),
      ("checkedFallback", .bool checked),
      ("rulesEvaluated", .int rules),
      ("warnings", .list (warnings.map Json.text)),
      ("timeTaken", timings.toJson)]

/-- Writes an explanation. -/
def Explanation.toJson {π : Type} (payload : π → Json) (e : Explanation π) : Json :=
  .object [("case", .text e.case.name), ("payload", payload e.payload)]

/-! ## The answer -/

/-- What a run answers. -/
structure Outcome where
  matched : NameSet := ∅
  checkedFallback : Bool := false
  canceled : Bool := false
  warnings : List String := []
  timings : Timings := {}
  explanation : Option (Explanation Account) := none
deriving DecidableEq

/-- Whether nobody matched. -/
def Outcome.isEmpty (o : Outcome) : Bool := o.matched.isEmpty

/-- Whether a member matched. -/
def Outcome.isMatched (o : Outcome) (memberId : String) : Bool := o.matched.contains memberId

/-- The case of an outcome that is explained. -/
def Outcome.case? (o : Outcome) : Option Case := o.explanation.map Explanation.case

/-- The number of rules that were evaluated, if the outcome is explained. -/
def Outcome.rulesEvaluated? (o : Outcome) : Option Nat :=
  o.explanation.bind fun e => e.payload.rulesEvaluated?

/-- Writes an outcome. -/
def Outcome.toJson (o : Outcome) : Json :=
  .object <|
    [("matchedMemberIds", o.matched.toJson),
     ("checkedFallback", .bool o.checkedFallback),
     ("canceled", .bool o.canceled),
     ("warnings", .list (o.warnings.map Json.text)),
     ("timeTaken", o.timings.toJson)] ++
      (o.explanation.map fun e => ("troubleshooter", e.toJson Account.toJson)).toList

end TeamRouting
