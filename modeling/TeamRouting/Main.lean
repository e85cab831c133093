import TeamRouting.CommandLine.Session

/-!
# The program

Reads the files that the command line names and the variables that matter, and prints what comes
of the session.
-/

namespace TeamRouting.CommandLine

/-- The contents of a file, if it can be read. -/
def contentsOf (path : String) : IO (Option String) := do
  try
    return some (← IO.FS.readFile path)
  catch _ =>
    return none

/-- The contents of files. -/
def folderOf (paths : List String) : IO Folder := do
  let contents ← paths.mapM fun path => return (path, ← contentsOf path)
  return fun path => (contents.find? (·.1 = path)).bind Prod.snd

/-- The variables among the given ones that are set. -/
def environmentOf (names : List String) : IO Environment := do
  let values ← names.mapM fun name => return (name, ← IO.getEnv name)
  return values.foldl (fun env entry => (entry.2.map (env.offer entry.1)).getD env) {}

end TeamRouting.CommandLine

open TeamRouting CommandLine

/-- Runs the program. -/
def main (arguments : List String) : IO UInt32 := do
  let named := ((Command.ofArguments? arguments).map Command.paths).getD []
  let folder ← folderOf (environmentFile :: named)
  let added := Environment.mentioned ((folder environmentFile).getD "")
  let report := session arguments folder (← environmentOf (Settings.overriding ++ added))
  if let some text := report.output? then
    IO.println text
  if let some text := report.complaint? then
    IO.eprintln text
  return report.exitCode.toUInt32
