import TeamRouting.Misconfiguration

/-!
# Failures

The ways in which a call can fail as a whole. What can be told to the caller without failing, such
as a booking without an answer, is a warning of the outcome instead.

* `Failure` — the ways;
* `Failure.message` — what is said about them.
-/

namespace TeamRouting

/-- A way in which a call can fail. -/
inductive Failure where
  /-- a tree does not suit the catalog -/
  | misconfigured (fault : Misconfiguration)
  /-- the catalog of a team could not be had -/
  | dataUnavailable (teamId orgId reason : String)
  /-- the evaluation of members broke off -/
  | evaluation (reason : String)
  /-- the settings of the engine are wrong -/
  | settings (reason : String)
  /-- a file could not be read or written -/
  | io (reason : String)
  /-- a JSON document does not hold what is wanted -/
  | json
  /-- a YAML document does not hold what is wanted -/
  | yaml
deriving DecidableEq, Inhabited

namespace Failure

/-- What is put before the text of a misconfiguration. -/
def misconfiguredText (text : String) : String := "Configuration error: " ++ text

/-- What is said about a failure. -/
def message : Failure → String
  | misconfigured fault => misconfiguredText fault.message
  | dataUnavailable teamId orgId reason =>
    s!"Attribute data unavailable for team {teamId} (org {orgId}): {reason}"
  | evaluation reason => "Evaluation task failed: " ++ reason
  | settings reason => "Engine configuration error: " ++ reason
  | io reason => reason
  | json => "the JSON document does not hold what is wanted"
  | yaml => "the YAML document does not hold what is wanted"

/-- Whether a failure is due to the tree itself. -/
def isMisconfiguration : Failure → Bool
  | misconfigured _ => true
  | _ => false

end Failure

end TeamRouting
