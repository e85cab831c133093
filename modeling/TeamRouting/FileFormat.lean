import TeamRouting.Json.Parser
import TeamRouting.Service
import TeamRouting.Yaml.Value

/-!
# File formats

The notations in which files are written. The name of a file tells its notation: files with the
extension `json` are JSON, all others YAML.

* `FileFormat.ofPath` — the notation of a file;
* `FileFormat.read` — reads a text in a notation;
* `Settings.ofText`, `Settings.load` — settings, which are always written in YAML.
-/

namespace TeamRouting

/-- A notation. -/
inductive FileFormat where
  | json
  | yaml
deriving DecidableEq, Inhabited

namespace FileFormat

/-! ## Names of files -/

/-- The characters behind the last occurrence of a mark; without an occurrence, all of them. -/
def behindLast (mark : Char) (cs : List Char) : List Char :=
  (cs.reverse.takeWhile (· != mark)).reverse

/-- The extension of a file: what follows the last point of its name, if there is something in
front of that point. -/
def extension? (path : String) : Option String :=
  let name := behindLast '/' path.toList
  let extension := behindLast '.' name
  if extension.length + 1 < name.length then some (String.ofList extension) else none

/-- The notation of a file. -/
def ofPath (path : String) : FileFormat :=
  if extension? path = some "json" then .json else .yaml

/-! ## Reading -/

/-- The failure to find what is wanted in a text. -/
def failure : FileFormat → Failure
  | json => .json
  | yaml => .yaml

/-- Reads a text, given what is wanted from a document of whatever notation. -/
def read {α : Type} (format : FileFormat) (wanted : {δ : Type} → [Document δ] → δ → Option α)
    (text : String) : Except Failure α :=
  let found :=
    match format with
    | json => (Json.scan? text).bind wanted
    | yaml => (Yaml.Node.ofText? text).bind wanted
  match found with
  | some a => .ok a
  | none => .error format.failure

end FileFormat

/-! ## Settings -/

namespace Settings

/-- A fault in settings as a failure of the call. -/
def orFailure {α : Type} : Except SettingsFault α → Except Failure α
  | .ok a => .ok a
  | .error fault => .error fault.failure

/-- The settings of a text, checked. -/
def ofText (text : String) : Except Failure Settings := do
  let settings ← FileFormat.yaml.read ofDocument? text
  orFailure settings.check

/-- The settings of a text, or else the usual ones, with what the environment overrides. -/
def load (text : Option String) (environment : String → Option String) :
    Except Failure Settings := do
  let settings ← match text with
    | some text => ofText text
    | none => pure {}
  orFailure (settings.override environment)

end Settings

end TeamRouting
