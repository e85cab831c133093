import TeamRouting.Catalog.Codec
import TeamRouting.CommandLine.Arguments
import TeamRouting.CommandLine.Environment
import TeamRouting.FileFormat
import TeamRouting.Json.Printer

/-!
# Sessions

What a command does, given the contents of the files that it names and the environment. Settings
come first, then the catalog, then the trees and the bindings. `evaluate` asks a service that knows
this one catalog; `validate` resolves and checks the tree without looking at members.

* `Folder` — the contents of files;
* `Report` — what comes of a session;
* `inspect` — the check of a tree by itself, without an engine;
* `EvaluateCommand.run`, `ValidateCommand.run` — the commands;
* `session` — from arguments to a report.
-/

namespace TeamRouting.CommandLine

/-! ## Files -/

/-- The contents of files by their paths; a file that cannot be read has none. -/
abbrev Folder := String → Option String

namespace Folder

/-- The contents of a file. -/
def contents (folder : Folder) (path : String) : Except Failure String :=
  match folder path with
  | some text => .ok text
  | none => .error (.io (path ++ " cannot be read"))

/-- What is wanted from a file, in the notation that its name tells. -/
def read {α : Type} (folder : Folder)
    (wanted : {δ : Type} → [Document δ] → δ → Option α) (path : String) : Except Failure α := do
  (FileFormat.ofPath path).read wanted (← folder.contents path)

/-- What is wanted from a file, if one is named. -/
def readAny {α : Type} (folder : Folder)
    (wanted : {δ : Type} → [Document δ] → δ → Option α) :
    Option String → Except Failure (Option α)
  | some path => (folder.read wanted path).map some
  | none => .ok none

/-- The settings of a file, or the usual ones, with what the environment overrides. -/
def settings (folder : Folder) (env : Environment) (path : Option String) :
    Except Failure Settings := do
  match path with
  | some path => Settings.load (some (← folder.contents path)) env.find?
  | none => Settings.load none env.find?

end Folder

/-! ## Reports -/

/-- What comes of a session. -/
inductive Report where
  /-- the outcome of `evaluate` -/
  | outcome (outcome : Outcome)
  /-- `validate` found nothing wrong with a tree of so many rules -/
  | valid (rules : Nat)
  /-- `validate` found something wrong with the tree -/
  | invalid (fault : Misconfiguration)
  /-- the command could not be carried out -/
  | failed (failure : Failure)
  /-- the arguments make no sense -/
  | misused
  | help
  | version

/-- How the program is called. -/
def usage : String :=
  "Usage: attribute-routing <COMMAND>\n\n" ++
  "Commands:\n" ++
  "  evaluate  Find the members a booking would be routed to\n" ++
  "  validate  Check a query tree against a catalog without evaluating members\n" ++
  "  help      Print this message\n\n" ++
  "Options:\n" ++
  "  -c, --catalog <CATALOG>    The attribute catalog\n" ++
  "  -q, --query <QUERY>        The primary query tree\n" ++
  "  -f, --fallback <FALLBACK>  The fallback query tree\n" ++
  "  -o, --operands <OPERANDS>  The dynamic operand bindings\n" ++
  "  -t, --troubleshoot         Attach a troubleshooter record to the outcome\n" ++
  "      --config <CONFIG>      The engine config\n" ++
  "  -h, --help                 Print this message\n" ++
  "  -V, --version              Print the version"

namespace Report

/-- The report of something that may fail. -/
def ofExcept : Except Failure Report → Report
  | .ok report => report
  | .error failure => failed failure

/-- The exit code: zero for success, one for a failure, two for arguments without sense. -/
def exitCode : Report → Nat
  | outcome _ => 0
  | valid _ => 0
  | invalid _ => 1
  | failed _ => 1
  | misused => 2
  | help => 0
  | version => 0

/-- What is written to standard output, if anything. -/
def output? : Report → Option String
  | outcome o => some o.toJson.pretty
  | valid rules => some s!"ok: {rules} rules"
  | help => some usage
  | version => some "attribute-routing 0.1.0"
  | _ => none

/-- What is written to standard error, if anything. -/
def complaint? : Report → Option String
  | invalid fault => some ("invalid: " ++ fault.message)
  | failed failure => some ("Error: " ++ failure.message)
  | misused => some usage
  | _ => none

end Report

/-! ## Commands -/

/-- The request of `evaluate`. -/
def EvaluateCommand.request (command : EvaluateCommand) (catalog : Catalog)
    (primary fallback : Option (Query Operand)) (bindings : Option Bindings) : Request where
  teamId := catalog.teamId
  orgId := catalog.orgId
  primary := primary
  fallback := fallback
  bindings := bindings
  explain := some command.troubleshoot

/-- Finds the members to whom a booking would go. -/
def EvaluateCommand.run (command : EvaluateCommand) (folder : Folder) (env : Environment) :
    Except Failure Outcome := do
  let settings ← folder.settings env command.config
  let catalog ← folder.read Catalog.ofDocument? command.catalog
  let primary ← folder.readAny Query.ofDocument? command.query
  let fallback ← folder.readAny Query.ofDocument? command.fallback
  let bindings ← folder.readAny Bindings.ofDocument? command.operands
  let store := Store.register {} catalog
  (Service.ofSettings settings).find store.source
    (command.request catalog primary fallback bindings) .never

/-- Resolves a tree with the sources that the settings name, and checks what it resolves to. -/
def inspect (settings : Settings) (catalog : Catalog) (bindings : Bindings)
    (query : Query Operand) : Except Misconfiguration Validation := do
  let resolution ← query.resolve (.ofList settings.sources) bindings
  resolution.tree.validate catalog

/-- Inspects a tree; the answer is the number of its rules. -/
def ValidateCommand.run (command : ValidateCommand) (folder : Folder) (env : Environment) :
    Except Failure (Except Misconfiguration Nat) := do
  let settings ← folder.settings env command.config
  let catalog ← folder.read Catalog.ofDocument? command.catalog
  let query ← folder.read Query.ofDocument? command.query
  let bindings ← folder.readAny Bindings.ofDocument? command.operands
  return (inspect settings catalog (bindings.getD {}) query).map (·.tree.ruleCount)

/-- Carries out a command. -/
def Command.run (folder : Folder) (env : Environment) : Command → Report
  | evaluate command => .ofExcept ((command.run folder env).map .outcome)
  | validate command =>
    .ofExcept ((command.run folder env).map fun
      | .ok rules => .valid rules
      | .error fault => .invalid fault)
  | help => .help
  | version => .version

/-- The file that may add variables to the environment. -/
def environmentFile : String := ".env"

/-- A whole session: the environment is extended, the arguments are read, and the command is
carried out. -/
def session (arguments : List String) (folder : Folder) (env : Environment) : Report :=
  match Command.ofArguments? arguments with
  | none => .misused
  | some command => command.run folder (env.extend ((folder environmentFile).getD ""))

end TeamRouting.CommandLine
