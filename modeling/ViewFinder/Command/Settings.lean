import ViewFinder.Command.Program
import ViewFinder.Json.Printer
import ViewFinder.Json.Reader

/-!
# The file of settings

The settings are kept in a JSON file: in the directory for configuration files if there is one, or
else in a directory of their own in the home directory. A file that is damaged or describes other
settings than there are counts as if it were not there. Two variables of the environment override
what the file says of the connection.
-/

namespace ViewFinder

namespace Fault

/-- Does the fault mean that a file of settings is damaged? -/
def spoilsSettings : Fault → Bool
  | .unreadable .json | .wrongKind | .fileExists | .fileMissing | .isDirectory | .notADirectory => true
  | _ => false

end Fault

namespace Config

open Command

/-- The settings that the text of a file describes, the defaults if the file is damaged. -/
def ofFile (text : Except Fault String) : Except Fault Config :=
  let config := do ofValue (← (Json.read (← text)).mapError .unreadable)
  match config with
  | .ok config => .ok config
  | .error e => if e.spoilsSettings then .ok {} else .error e

/-- The value of a variable that is set and not empty. -/
def given? (name : String) : Program (Option String) := do
  return (← Program.demand (.environment name)).filter (!·.isEmpty)

/-- The home directory. A tilde would stand for it itself. -/
def home : Program Path := do
  let home := (← given? "HOME").getD "/"
  if home.startsWith "~" then throw Fault.noHome
  return Path.ofText home

/-- The file of settings. -/
def file : Program Path := do
  let shared ←
    match ← given? "XDG_CONFIG_HOME" with
    | some directory => pure (Path.ofText directory)
    | none => pure ((← home).child ".config")
  let directory ←
    if ← Program.demand (.exists shared) then pure (shared.child "couchquery")
    else pure ((← home).child ".couchquery")
  return directory.child "config.json"

/-- The settings with those of the environment. -/
def withEnvironment (c : Config) : Program Config := do
  return c.applyEnvironment (← Program.demand (.environment "COUCHQUERY_URL"))
    (← Program.demand (.environment "COUCHQUERY_DATABASE"))

/-- The settings in a file, the defaults if there is none, with those of the environment. -/
def load (path : Path) : Program Config := do
  let config ←
    if ← Program.demand (.exists path) then ofFile (← Program.demand (.read path)) else pure {}
  config.withEnvironment

/-- Writes the settings to a file, as far as they have a JSON form. -/
def save (c : Config) (path : Path) : Program Unit := do
  Program.demandOk (.makeDirectory path.parent)
  let draft := (c.toValue.map Json.printIndented).toOption.getD { complete := false }
  Program.demandOk (.write path (String.ofList draft.text))
  unless draft.complete do throw Fault.wrongKind

end Config

end ViewFinder
