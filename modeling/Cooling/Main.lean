import Cooling.Log.Filter
import Cooling.Startup

/-!
# The command line

Reads the settings file and the environment, then the three entity files, and runs the stages
of `Service.start`.  Once ready the process waits for the end of its standard input.
-/

namespace Cooling

/-- What comes of reading a file. -/
def readFile (path : String) : IO FileRead := do
  try
    return .ofBytes (← IO.FS.readBinFile path)
  catch e =>
    match e with
    | .noFileOrDirectory .. => return .absent
    | .inappropriateType .. => return .directory
    | e => return .unreadable (toString e)

/-- The environment variables that matter. -/
def readEnvironment : IO Environment := do
  let values ← Environment.names.mapM fun name => do return (name, ← IO.getEnv name)
  return .ofVariables fun name =>
    match values.lookup name with
    | some (some value) => .text value
    | _ => .unset

/-- The entity files of a directory. -/
def readFiles (dir : String) : IO Files := do
  let contents ← [Fan.fileName, Group.fileName, Event.fileName].mapM fun name => do
    let path := Files.path dir name
    return (path, ← readFile path)
  return fun path => (contents.lookup path).getD .absent

/-- Reads until the input ends. -/
partial def waitForEnd (input : IO.FS.Stream) : IO Unit := do
  unless (← input.getLine).isEmpty do waitForEnd input

end Cooling

open Cooling in
def main : IO UInt32 := do
  match Settings.load (← readFile Settings.fileName) (← readEnvironment) with
  | .error e =>
    IO.eprintln ((StartupError.settings e).report .brief)
    return 1
  | .ok settings =>
    let started := (Service.start settings (← readFiles settings.directory)).run
    let lines := List.filterMap (Log.line? settings.filter)
    (lines started.log).forM fun line => IO.println line
    match started.value with
    | .error e =>
      IO.eprintln (e.report .brief)
      return 1
    | .ok _ =>
      waitForEnd (← IO.getStdin)
      (lines [Service.stopped]).forM fun line => IO.println line
      return 0
