import ViewFinder.Command.Arguments
import ViewFinder.Files.Path

/-!
# Invocations

An `Invocation` is what the arguments of the command line ask for. They are read in two steps
(`readGroup`, `Invocation.read`), for the settings are prepared in between: first the options that
all commands share and the name of the command, then what follows the name.
-/

namespace ViewFinder.Command

/-- How a command ends. -/
inductive Exit where
  | success
  | failure
  /-- The user asked for help. -/
  | help
  /-- The arguments are refused. -/
  | refused (why : UsageError)
  deriving DecidableEq, Inhabited

namespace Exit

/-- The status that the command line ends with. -/
def code : Exit → Nat
  | .success | .help => 0
  | .failure => 1
  | .refused _ => 2

end Exit

/-- Which documents a command is about, and how they are found. -/
structure Selection where
  /-- The name of the document type. -/
  entity : String
  /-- The conditions, as they are written. -/
  conditions : List String := []
  keys : List String := []
  order : Value := .null
  limit : Value := .null
  offset : Value := .null
  descending : Bool := false
  slow : Bool := false
  raw : Bool := false
  stale : Bool := false
  /-- The declared properties of the type. -/
  properties : List String := []
  deriving Inhabited

/-- What the command line is asked to do. -/
inductive Invocation where
  /-- Shows what the store can do. -/
  | info
  /-- Shows documents, as JSON or under the names of the fields that are given. -/
  | find (s : Selection) (json : Bool) (fields : List String)
  /-- Shows the number of documents. -/
  | count (s : Selection)
  /-- Shows the views of a type. -/
  | showDesign (entity : String)
  /-- Writes the views of a type to a file. -/
  | exportDesign (entity : String) (file : Path)
  /-- Adds the views of a file to those of a type. -/
  | importDesign (entity : String) (file : Path)
  | showSettings
  /-- Writes a file of settings; one that is there is replaced only by force. -/
  | initSettings (force : Bool)
  deriving Inhabited

/-! ## The options of the commands -/

namespace Switches

/-- The options that all commands share. -/
def shared : Switches :=
  [⟨"--url", none, true⟩, ⟨"--database", some 'd', true⟩, ⟨"--store-version", none, true⟩,
    ⟨"--verbose", some 'v', false⟩, help]

/-- The options that select documents for counting. -/
def forCount : Switches :=
  [⟨"--where", some 'w', true⟩, ⟨"--use-key", some 'k', true⟩, ⟨"--limit", some 'n', true⟩,
    ⟨"--offset", none, true⟩, ⟨"--slow", none, false⟩, ⟨"--property", some 'p', true⟩, help]

/-- The options that select and show documents. -/
def forFind : Switches :=
  [⟨"--order", some 'o', true⟩, ⟨"--desc", none, false⟩, ⟨"--raw", none, false⟩,
    ⟨"--stale", none, false⟩, ⟨"--field", some 'f', true⟩, ⟨"--json", none, false⟩] ++ forCount

/-- The options for making a file of settings. -/
def forInit : Switches := [⟨"--force", none, false⟩, help]

end Switches

/-! ## Reading arguments -/

/-- The arguments of a command. -/
def readArguments (ss : Switches) (endAtOperand : Bool) (args : List String) :
    Except Exit Arguments :=
  match Arguments.parse ss endAtOperand args with
  | .error why => .error (.refused why)
  | .ok a => if a.has Switches.help.long then .error .help else .ok a

/-- The options before the name of a command, the name, which must be one of those given, and the
arguments that follow it. -/
def readGroup (ss : Switches) (names : List String) (args : List String) :
    Except Exit (Arguments × String × List String) := do
  let a ← readArguments ss true args
  match a.operands with
  | [] => throw (.refused .missingCommand)
  | name :: rest =>
    if names.contains name then return (a, name, rest) else throw (.refused (.unknownCommand name))

/-- A reading of arguments that ends the command if they are refused. -/
def orRefused {α : Type} : Except UsageError α → Except Exit α
  | .ok a => .ok a
  | .error why => .error (.refused why)

namespace Selection

/-- The selection that options and an operand describe. -/
def ofArguments (a : Arguments) : Except Exit Selection := do
  let entity ← orRefused (a.operandsFor ["ENTITY"])
  return {
    entity := entity.headD ""
    conditions := a.values "--where"
    keys := a.values "--use-key"
    order := a.text "--order"
    limit := ← orRefused (a.integer "--limit")
    offset := ← orRefused (a.integer "--offset")
    descending := a.has "--desc"
    slow := a.has "--slow"
    raw := a.has "--raw"
    stale := a.has "--stale"
    properties := a.values "--property" }

end Selection

namespace Invocation

/-- The commands of the command line. -/
def commands : List String := ["info", "find", "count", "design", "config"]

/-- What is asked for by arguments that follow the name of a type. -/
def readNamed (args : List String) (names : List String) : Except Exit (List String) := do
  orRefused ((← readArguments [Switches.help] false args).operandsFor names)

/-- What the arguments after `design` ask for. -/
def readDesign (args : List String) : Except Exit Invocation := do
  let (_, name, rest) ← readGroup [Switches.help] ["show", "export", "import"] args
  if name == "show" then return .showDesign ((← readNamed rest ["ENTITY"]).headD "")
  else
    let names := ["ENTITY", if name == "export" then "OUTPUT" else "SOURCE"]
    match ← readNamed rest names with
    | [entity, file] =>
      let file := Path.ofText file
      return if name == "export" then .exportDesign entity file else .importDesign entity file
    | _ => throw (.refused .missingCommand)

/-- What the arguments after `config` ask for. -/
def readConfig (args : List String) : Except Exit Invocation := do
  let (_, name, rest) ← readGroup [Switches.help] ["show", "init"] args
  let a ← readArguments (if name == "init" then Switches.forInit else [Switches.help]) false rest
  let _ ← orRefused (a.operandsFor [])
  return if name == "init" then .initSettings (a.has "--force") else .showSettings

/-- What the arguments after the name of a command ask for. -/
def read (name : String) (args : List String) : Except Exit Invocation :=
  match name with
  | "info" => do
    let _ ← readNamed args []
    return .info
  | "find" => do
    let a ← readArguments Switches.forFind false args
    return .find (← Selection.ofArguments a) (a.has "--json") (a.values "--field")
  | "count" => do return .count (← Selection.ofArguments (← readArguments Switches.forCount false args))
  | "design" => readDesign args
  | "config" => readConfig args
  | name => .error (.refused (.unknownCommand name))

end Invocation

end ViewFinder.Command
