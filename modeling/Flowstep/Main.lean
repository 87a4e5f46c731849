import Flowstep.Invocation
import Flowstep.Project.Archive

/-!
The command line: compiles projects into directories, and runs them.
-/
namespace Flowstep.Main

open Run (Config Loaded Order)

def fail {α : Type} (message : String) : IO α := throw (IO.userError message)

def orFail {ε α : Type} (message : ε → String) : Except ε α → IO α
  | .ok a => pure a
  | .error e => fail (message e)

def readFile? (path : String) : IO (Option String) := do
  try return some (← IO.FS.readFile path)
  catch _ => return none

def readProject (path : String) : IO Project.Document := do
  match ← readFile? path with
  | none => fail ("reading project " ++ path)
  | some text =>
    match Project.Document.parse? text with
    | none => fail ("parsing project " ++ path)
    | some d => pure d

def compile (project out : String) (settings : Project.Settings) : IO Unit := do
  let bundle ← orFail (·.message) ((← readProject project).build settings .standard)
  IO.FS.createDirAll out
  for (name, text) in bundle.files.entries do
    IO.FS.writeFile (out ++ "/" ++ name) text
  IO.println ("Compiled " ++ toString bundle.units.size ++ " unit(s) of `" ++ bundle.name ++
    "` into " ++ out)

def readFiles (dir manifest : String) : IO Project.Files := do
  let stems := ((Json.Written.parse? manifest).bind Project.Bundle.read).map fun b =>
    b.units.values.map (·.stem)
  let names := (stems.getD []).flatMap fun stem => [Project.scriptName stem, Project.mapName stem]
  let mut files : Project.Files := (∅ : Dict String).insert Project.manifestName manifest
  for name in names do
    if let some text ← readFile? (dir ++ "/" ++ name) then files := files.write name text
  return files

def readBundle (path : String) (config : Config) : IO Project.Bundle := do
  match ← readFile? (path ++ "/" ++ Project.manifestName) with
  | some manifest => orFail (·.message) (Project.Bundle.load (← readFiles path manifest))
  | none => orFail (·.message) ((← readProject path).build config.settings .standard)

def readArgs : Option String → IO (Dict Script.Value)
  | none => pure ∅
  | some text =>
    match Json.parse? text with
    | some (.obj fields) => pure (fields.map .ofJson)
    | some other => fail ("--args must be a JSON object, got " ++ other.render)
    | none => fail "parsing --args"

def readLines : IO (List (Except String Order)) := do
  let text ← (← IO.getStdin).readToEnd
  return ((Text.lines text).filter fun line => !(Text.words line).isEmpty).map Order.ofLine

def runFuel : Nat := 1000000000000

-- Runs a project. No package is ever installed, so one that requires packages runs only if they
-- may be left out.
def run (project : String) (debug skipPackages : Bool) (args config : Option String) :
    IO Unit := do
  let config ← match config with
    | some file => orFail (·.message) (Config.load (← readFile? file))
    | none => pure {}
  let config := { config with debug := config.debug || debug }
  let args ← readArgs args
  let bundle ← readBundle project config
  if !skipPackages && !bundle.requirements.isEmpty then
    fail "packages are not installed here: use --skip-deps"
  let loaded ← orFail (·.message) (Loaded.ofBundle bundle)
  let lines ← if config.debug then readLines else pure []
  let orders := lines.filterMap Except.toOption
  match Run.rehearse config false loaded runFuel args { orders := some orders } with
  | .error _ => fail "the run was given up"
  | .ok (outcome, execution) =>
    for reply in Run.transcript lines execution.outside.answers.reverse do
      IO.eprintln reply
    IO.println (outcome.toJson.renderWide 0)
    match outcome with
    | .succeeded _ => return ()
    | .cancelled => fail "execution cancelled"
    | .failed report => fail report.reason

end Flowstep.Main

def main (args : List String) : IO UInt32 := do
  try
    match Flowstep.Invocation.parse? args with
    | some (.compile project out settings) => Flowstep.Main.compile project out settings
    | some (.run project debug skip args config) => Flowstep.Main.run project debug skip args config
    | none => Flowstep.Main.fail Flowstep.Invocation.usage
    return 0
  catch e =>
    IO.eprintln ("Error: " ++ toString e)
    return 1
