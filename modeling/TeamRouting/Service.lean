import TeamRouting.Settings

/-!
# The service

Answers requests: the catalog of the team is fetched from a source, and a run over it finds the
members. Catalogs belong to teams; one that turns out to be about another team is never used, and
every failure of a source comes out as data that is unavailable.

* `Request` — what is asked;
* `Source`, `Store` — where catalogs come from;
* `Service.fetch` — a catalog or the reason why there is none;
* `Service.find` — the answer.
-/

namespace TeamRouting

/-! ## Requests -/

/-- A request for the members to whom a booking may go. -/
structure Request where
  teamId : String
  orgId : String
  primary : Option (Query Operand) := none
  fallback : Option (Query Operand) := none
  bindings : Option Bindings := none
  /-- whether the outcome is explained, if the request says so -/
  explain : Option Bool := none
deriving DecidableEq

/-- An optional field, where `null` stands for absence. -/
def readOptional? {α : Type} (read : Json → Option α) : Option Json → Option (Option α)
  | none => some none
  | some .null => some none
  | some json => (read json).map some

open Document in
/-- Reads a request. -/
def Request.ofJson? (json : Json) : Option Request := do
  match ← record? ["teamId", "orgId", "primaryQueryValue", "fallbackQueryValue",
      "dynamicOperands", "troubleshooterEnabled"] json with
  | [some teamId, some orgId, primary, fallback, bindings, explain] =>
    return {
      teamId := ← text? teamId
      orgId := ← text? orgId
      primary := ← readOptional? Query.ofJson? primary
      fallback := ← readOptional? Query.ofJson? fallback
      bindings := ← readOptional? Bindings.ofDocument? bindings
      explain := ← readOptional? flag? explain
    }
  | _ => none

/-! ## Sources -/

/-- What a source answers. -/
inductive Fetched where
  | catalog (catalog : Catalog)
  | failure (failure : Failure)
  /-- no answer in time -/
  | nothing

/-- Where the catalog of a team comes from, by the ids of the team and its organization. -/
abbrev Source := String → String → Fetched

/-- Catalogs by team and organization. -/
structure Store where
  catalogs : Dictionary (String × String) Catalog := ∅
deriving DecidableEq, Inhabited

namespace Store

/-- Puts a catalog in place of the one that the team had before. -/
def register (store : Store) (catalog : Catalog) : Store :=
  ⟨store.catalogs.insert (catalog.teamId, catalog.orgId) catalog⟩

/-- The catalog of a team. -/
def find? (store : Store) (teamId orgId : String) : Option Catalog :=
  store.catalogs.find? (teamId, orgId)

/-- A store as a source. -/
def source (store : Store) : Source := fun teamId orgId =>
  match store.find? teamId orgId with
  | some catalog => .catalog catalog
  | none => .failure (.dataUnavailable teamId orgId "no catalog registered")

end Store

/-! ## Answers -/

/-- A service. -/
structure Service where
  engine : Engine
  fetchTimeoutMs : Nat
  explainByDefault : Bool
deriving DecidableEq

namespace Service

/-- The service that settings describe. -/
def ofSettings (s : Settings) : Service := ⟨s.engine, s.fetchTimeoutMs, s.explain⟩

/-- The catalog of a team, or the failure to have it. -/
def fetch (service : Service) (source : Source) (teamId orgId : String) :
    Except Failure Catalog :=
  match source teamId orgId with
  | .nothing =>
    let reason := "fetch timed out after " ++ toString service.fetchTimeoutMs ++ "ms"
    .error (.dataUnavailable teamId orgId reason)
  | .failure (.dataUnavailable team org reason) => .error (.dataUnavailable team org reason)
  | .failure other => .error (.dataUnavailable teamId orgId other.message)
  | .catalog catalog =>
    if catalog.teamId = teamId ∧ catalog.orgId = orgId then
      .ok catalog
    else
      let reason := s!"catalog returned for team {catalog.teamId} (org {catalog.orgId})"
      .error (.dataUnavailable teamId orgId reason)

/-- What a run is about for a request. -/
def input (service : Service) (request : Request) : MatchInput where
  primary := request.primary
  fallback := request.fallback
  bindings := request.bindings.getD {}
  explain := request.explain.getD service.explainByDefault

/-- An outcome that also tells of the fetching. -/
def withFetch (outcome : Outcome) : Outcome :=
  { outcome with timings := outcome.timings.insert Phase.fetch.name none }

/-- Answers a request. -/
def find (service : Service) (source : Source) (request : Request) (signal : Signal) :
    Except Failure Outcome :=
  match service.fetch source request.teamId request.orgId with
  | .error e => .error e
  | .ok catalog =>
    match service.engine.run catalog (service.input request) signal with
    | .error fault => .error (.misconfigured fault)
    | .ok outcome => .ok (withFetch outcome)

end Service

end TeamRouting
