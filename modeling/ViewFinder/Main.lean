import ViewFinder.Command.Action
import ViewFinder.Store.Web
import ViewFinder.Text.LineEnd

/-!
# The command line

The outer layer: it meets the demands of a program with the files, variables and streams of the
process. It opens no connection to a server itself. Each message to the server is one line of JSON on
standard output, and the reply to it is read as one line of JSON from standard input, so that
whatever runs the command line carries them. What is shown to the user goes to standard error.
-/

namespace ViewFinder.CommandLine

open Command

/-- The fault that a failure of the file system is. -/
def faultOf : IO.Error → Fault
  | .alreadyExists .. => .fileExists
  | .inappropriateType .. => .isDirectory
  | .noFileOrDirectory .. | .noSuchThing .. => .fileMissing
  | e => .store (toString e)

/-- An action on files, the failure of which is an answer. -/
def tryIO {α : Type} (action : IO α) : IO (Except Fault α) := do
  match ← action.toBaseIO with
  | .ok a => return .ok a
  | .error e => return .error (faultOf e)

/-- A line of JSON on standard output. -/
def sendLine (v : Value) : IO Unit := do
  let output ← IO.getStdout
  match Json.print v with
  | .ok line =>
    output.putStrLn line
    output.flush
  | .error _ => return

/-- A message as JSON. -/
def encodeMessage (m : Store.Message) : Value :=
  .dict ([(.str "method", .str m.method), (.str "path", .str m.path)] ++
    (m.query.map fun q => (.str "params", .dict q)).toList ++
    (m.body.map fun b => (.str "json", b)).toList)

/-- The reply that a line of JSON describes. -/
def decodeReply (line : String) : Store.Reply :=
  match Json.read (Text.ofString line) with
  | .ok (.dict es) =>
    match Entries.get? es "status", Entries.get? es "body" with
    | some (.int status), some (.str body) => .received status body
    | _, _ => .failed (Entries.getD es "error").text
  | _ => .failed "no response"

/-- The answer to a request of a database. -/
def answer (database : String) (r : Store.Request) : IO Store.Answer := do
  match Store.Web.message database r with
  | .error e => return .error e
  | .ok m =>
    sendLine (encodeMessage m)
    let reply := decodeReply (← (← IO.getStdin).getLine)
    return (Store.Web.answer { database, replies := [reply] } r).1

/-- Shows a line to the user. -/
def displayLine (line : String) : IO Unit := IO.eprintln (Text.toString line)

/-- Shows something to the user. -/
def display : Output → IO Unit
  | .line v => displayLine v.text
  | .json v => displayLine (String.ofList (Json.printIndented v).text)
  | .table title columns rows => do
    displayLine title.text
    for cells in columns :: rows do
      displayLine ("\t".intercalate cells)

/-- Writes a text to a file, unless it has halves of characters. -/
def writeFile (path : Path) (text : String) : IO (Except Fault Unit) :=
  match Text.chars? text.toList with
  | some cs => tryIO (IO.FS.writeFile (Text.toString path.text) (String.ofList cs))
  | none => return .error (.unpaired text)

/-- Connects to the database that the settings name. -/
def connect (c : ConnectionConfig) : IO (Except Fault String) := do
  match c.target with
  | .error e => return .error e
  | .ok (client, database) =>
    sendLine (.dict [(.str "base_url", .str client.baseUrl), (.str "timeout", client.timeout)])
    return .ok database

/-- Meets a demand. The state is the name of the database that is connected. -/
def perform {β : Type} (database : String) : Demand β → IO (β × String)
  | .environment name => do return ((← IO.getEnv name).map Text.ofString, database)
  | .exists path => do
    return (← ((← IO.currentDir) / Text.toString path.text).pathExists, database)
  | .read path => do
    let read ← tryIO (IO.FS.readFile (Text.toString path.text))
    return (read.map fun text => Text.unifyLineEnds (Text.ofString text), database)
  | .write path text => do return (← writeFile path text, database)
  | .makeDirectory path => do
    return (← tryIO (IO.FS.createDirAll (Text.toString path.text)), database)
  | .connect connection => do
    match ← connect connection with
    | .ok database => return (.ok (), database)
    | .error e => return (.error e, database)
  | .request r => do return (← answer database r, database)
  | .disconnect => return ((), database)
  | .show output => do return (← display output, database)

/-- Carries out a program. -/
def carryOut {α : Type} (database : String) : Program α → IO (Except Fault α)
  | .done result => return result
  | .ask d next => do
    let (b, database) ← perform database d
    carryOut database (next b)

end ViewFinder.CommandLine

/-- The command line. -/
def main (args : List String) : IO UInt32 := do
  match ← ViewFinder.CommandLine.carryOut "" (ViewFinder.Command.run none (args.map ViewFinder.Text.ofString)) with
  | .ok exit =>
    match exit with
    | .refused why => ViewFinder.CommandLine.displayLine s!"Error: {why.message}"
    | _ => pure ()
    return UInt32.ofNat exit.code
  | .error e =>
    ViewFinder.CommandLine.displayLine s!"Error: {e.message}"
    return 1
