import TeamRouting.Failure
import TeamRouting.Matching.Run

/-!
# Settings

The settings of the engine. They come from a document, where each may be left out, and a few can
be overridden by the environment. Either way the result is checked.

* `Settings` — the settings;
* `Settings.ofDocument?` — reads them;
* `Settings.check` — refuses settings that make no sense;
* `Settings.override` — applies the environment;
* `Settings.engine` — the engine that they describe.
-/

namespace TeamRouting

/-- The settings of the engine. -/
structure Settings where
  /-- the greatest number of workers in a phase -/
  parallelism : Nat := 4
  /-- a worker's share of members is not divided below this number -/
  minMembersPerTask : Nat := 64
  strategy : Strategy := .attributeLogic
  /-- the sources of answers that exist -/
  sources : List String := [formSource]
  /-- how long a catalog is waited for -/
  fetchTimeoutMs : Nat := 5000
  /-- whether an outcome is explained if the request does not say -/
  explain : Bool := false
deriving DecidableEq, Inhabited

/-! ## Faults -/

/-- What can be wrong with settings. -/
inductive SettingsFault where
  | noParallelism
  | noMembersPerTask
  | unknownStrategy (name : String)
  | notANumber (key value : String)
deriving DecidableEq, Inhabited

/-- What is said about a fault. -/
def SettingsFault.message : SettingsFault → String
  | noParallelism => "parallelism must be at least 1"
  | noMembersPerTask => "min_members_per_task must be at least 1"
  | unknownStrategy name => s!"unknown evaluator '{name}'"
  | notANumber key value => s!"{key} must be a number, got '{value}'"

/-- The failure of a call because of a fault. -/
def SettingsFault.failure (fault : SettingsFault) : Failure := .settings fault.message

/-- The strategy that a text names, whatever its case and the blanks around it. -/
def Strategy.ofText (s : String) : Except SettingsFault Strategy :=
  let name := Text.lower (Text.trim s)
  match Strategy.ofName? name with
  | some strategy => .ok strategy
  | none => .error (.unknownStrategy name)

namespace Settings

/-! ## Documents -/

open Document in
/-- Reads settings; those left out have their defaults. -/
def ofDocument? {δ : Type} [Document δ] (d : δ) : Option Settings := do
  match ← record? ["parallelism", "min_members_per_task", "evaluator", "operand_sources",
      "fetch_timeout_ms", "troubleshooter"] d with
  | [parallelism, least, strategy, sources, timeout, explain] =>
    let defaults : Settings := {}
    return {
      parallelism := ← fieldOr defaults.parallelism natural? parallelism
      minMembersPerTask := ← fieldOr defaults.minMembersPerTask natural? least
      strategy := ← fieldOr defaults.strategy (fun d => (name? d).bind Strategy.ofName?) strategy
      sources := ← fieldOr defaults.sources (listOf? text?) sources
      fetchTimeoutMs := ← fieldOr defaults.fetchTimeoutMs natural? timeout
      explain := ← fieldOr defaults.explain flag? explain
    }
  | _ => none

/-- Writes settings. -/
def toJson (s : Settings) : Json :=
  .object [
    ("parallelism", .int s.parallelism),
    ("min_members_per_task", .int s.minMembersPerTask),
    ("evaluator", .text s.strategy.name),
    ("operand_sources", .list (s.sources.map Json.text)),
    ("fetch_timeout_ms", .int s.fetchTimeoutMs),
    ("troubleshooter", .bool s.explain)]

/-! ## Checking and overriding -/

/-- Refuses settings under which no worker could do anything. -/
def check (s : Settings) : Except SettingsFault Settings :=
  if s.parallelism = 0 then .error .noParallelism
  else if s.minMembersPerTask = 0 then .error .noMembersPerTask
  else .ok s

/-- A number from the environment, with blanks allowed around it. -/
def number (key value : String) : Except SettingsFault Nat :=
  match Text.uint64? (Text.trimChars value.toList) with
  | some n => .ok n
  | none => .error (.notANumber key value)

/-- The variables of the environment that override settings. -/
def overriding : List String :=
  ["ROUTING_PARALLELISM", "ROUTING_EVALUATOR", "ROUTING_FETCH_TIMEOUT_MS"]

/-- Replaces the settings that the environment gives, and checks the result. -/
def override (s : Settings) (environment : String → Option String) :
    Except SettingsFault Settings := do
  let s ← match environment "ROUTING_PARALLELISM" with
    | some value => pure { s with parallelism := ← number "ROUTING_PARALLELISM" value }
    | none => pure s
  let s ← match environment "ROUTING_EVALUATOR" with
    | some value => pure { s with strategy := ← Strategy.ofText value }
    | none => pure s
  let s ← match environment "ROUTING_FETCH_TIMEOUT_MS" with
    | some value => pure { s with fetchTimeoutMs := ← number "ROUTING_FETCH_TIMEOUT_MS" value }
    | none => pure s
  s.check

/-! ## The engine -/

/-- The engine that settings describe. Limits of zero, which the check refuses, are taken for
one. -/
def engine (s : Settings) : Engine where
  strategy := s.strategy
  sources := .ofList s.sources
  fanout := .ofLimits s.parallelism s.minMembersPerTask

end Settings

end TeamRouting
