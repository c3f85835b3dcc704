import ViewFinder.Command.Invocation
import ViewFinder.Command.Settings
import ViewFinder.Database
import ViewFinder.Design.Exchange

/-!
# What the commands do

`Command.run` is the command line: it reads the arguments, prepares the settings and carries out what
is asked for. Faults of the store and of what the user wrote are reported; others end the program.
-/

namespace ViewFinder.Command

open Program

/-! ## Faults -/

/-- An error as it is shown. -/
def errorLine (text : String) : String := "[bold red]Error:[/bold red] " ++ text

/-- The lines that report a fault; none for one that is not reported. -/
def report? (e : Fault) : Option (List String) :=
  match e with
  | .notFound _ => some [errorLine s!"Not found: {e.message}"]
  | .conflict _ =>
    some [errorLine s!"Conflict: {e.message}",
      "[yellow]Tip: Another process changed the document, try again[/yellow]"]
  | .failure .. => some [errorLine s!"Store request failed: {e.message}"]
  | .unreadable .tooDeep => none
  | .refused _ | .unreadable _ | .unpaired _ => some [errorLine s!"Invalid input: {e.message}"]
  | .unsupported .. | .readOnly _ | .readOnlyReported _ | .answer _ | .store _ =>
    some [errorLine e.message]
  | _ => none

/-- Shows lines one after the other. -/
def sayAll : List String → Program Unit
  | [] => return
  | line :: rest => do
    say line
    sayAll rest

/-- Carries out a program, and reports a fault that ends it. -/
def reporting (p : Program Exit) : Program Exit := do
  match ← p.attempt with
  | .ok exit => return exit
  | .error e =>
    match report? e with
    | some lines =>
      sayAll lines
      return .failure
    | none => throw e

/-! ## The database -/

/-- Opens the database of the settings, carries out a dialogue and closes the connection. -/
def withDatabase {α : Type} (c : Config) (body : Database → Dialogue α) : Program α := do
  demandOk (.connect c.connection)
  let database ← talk (Database.open c.connection.version c.query.allowAdHoc.truthy)
  let result ← (talk (body database)).attempt
  demand .disconnect
  result

/-- The document type of a name. -/
def entityType (c : Config) (name : String) (properties : List String) : EntityType :=
  { name := .str name, properties, discriminatorField := c.query.discriminatorField }

/-- The design document of a type, which must be there. -/
def loadDesign (c : Config) (name : String) : Program DesignDocument :=
  withDatabase c fun database => do
    match ← (← database.finder (entityType c name [])).designDocument with
    | some design => return design
    | none => throw (.refused (.noDesign name))

/-! ## Finding and counting -/

/-- The conditions that texts describe; of two for one field the last counts. -/
def conditionsOf (conditions : Entries) : List String → Except Fault Entries
  | [] => .ok conditions
  | text :: rest => do
    let (name, v) ← Condition.parse text
    conditionsOf (Entries.set conditions name v) rest

namespace Selection

/-- The options of the query. -/
def options (s : Selection) : Except Fault Options := do
  return {
    conditions := .dict (← conditionsOf [] s.conditions)
    useKey := if s.keys.isEmpty then .null else .list (s.keys.map .str)
    order := s.order
    limit := s.limit
    offset := s.offset
    descending := .bool s.descending
    slow := .bool s.slow
    raw := .bool s.raw
    updateIndex := .bool !s.stale }

end Selection

/-- The names of attributes in the order in which they are first seen, without those that are
internal. -/
def attributeNames (seen : List String) : List Value → Except Fault (List String)
  | [] => .ok seen
  | .str name :: rest =>
    attributeNames (if name.startsWith "_" || seen.contains name then seen else seen ++ [name]) rest
  | _ :: _ => .error .noMember

/-- How many columns a table of documents has besides the id, if no fields are given. -/
def defaultColumns : Nat := 6

/-- The documents that records are. -/
def documentsOf (records : List Record) : Except Fault (List Document) :=
  records.mapM fun
    | .document d => .ok d
    | _ => .error .noMember

/-- Shows documents as a table with a column for the id and one for each field. -/
def showDocuments (documents : List Document) (fields : List String) : Program Exit := do
  if documents.isEmpty then say "[yellow]No documents found[/yellow]"
  else
    let fields ←
      if fields.isEmpty then do
        let seen ← attributeNames [] (documents.flatMap fun d => d.attributes.map (·.1))
        pure (seen.take defaultColumns)
      else pure fields
    let row (d : Document) : List String :=
      d.id.text :: fields.map fun name => (d.getD (.str name) (.str "")).text
    «show» (.table (.str "Documents") (Name.idField :: fields) (documents.map row))
    say s!"\n[dim]{documents.length} documents[/dim]"
  return .success

namespace Action

/-- Finds documents and shows them. -/
def find (c : Config) (s : Selection) (json : Bool) (fields : List String) : Program Exit := do
  let options ← s.options
  let result ← withDatabase c fun database => do
    (← database.finder (entityType c s.entity s.properties)).findWith options
  match result with
  | .raw v => «show» (.json v)
  | .records records =>
    let documents ← documentsOf records
    if json then «show» (.json (.list (documents.map fun d => .dict d.attributes)))
    else return ← showDocuments documents fields
  return .success

/-- Counts documents and shows their number. -/
def count (c : Config) (s : Selection) : Program Exit := do
  let options ← s.options
  let total ← withDatabase c fun database => do
    (← database.finder (entityType c s.entity s.properties)).countWith options
  «show» (.line total)
  return .success

/-! ## The store and its design documents -/

/-- Shows the version of the store and what it can do. -/
def info (c : Config) : Program Exit := do
  let profile ← withDatabase c fun database => return database.profile
  let title := s!"{c.connection.url.text}/{c.connection.database.text}"
  let rows := profile.summary.map fun (name, v) => [name.text, v.text]
  «show» (.table (.str title) ["Capability", "Value"] rows)
  return .success

/-- Shows the views of a type. -/
def showDesign (c : Config) (name : String) : Program Exit := do
  let design ← loadDesign c name
  let rows := (← design.views.sorted).map fun (name, view) =>
    [name.text, if view.reduce.truthy then "yes" else "no"]
  «show» (.table design.docId ["View", "Reduce"] rows)
  return .success

/-- Writes the views of a type to a file. -/
def exportDesign (c : Config) (name : String) (file : Path) : Program Exit := do
  let design ← loadDesign c name
  demandOk (.write file (← design.exportYaml))
  say s!"[green]Exported {design.views.length} views to {file.text}[/green]"
  return .success

/-- Adds the views of a file to those of a type. -/
def importDesign (c : Config) (name : String) (file : Path) : Program Exit := do
  if !(← demand (.exists file)) then
    say s!"[red]Error: File not found: {file.text}[/red]"
    return .failure
  let views ← Views.importYaml (← demandOk (.read file))
  let added ← withDatabase c fun database => do
    let f ← database.finder (entityType c name [])
    Registry.ensureAll f.designName (views.map (·.2))
  say s!"[green]Added {added} of {views.length} views[/green]"
  return .success

/-! ## Settings -/

/-- The settings with asterisks in place of the password. -/
def hidePassword (c : Config) : Config :=
  if c.connection.password.truthy then
    { c with connection := { c.connection with password := .str "***" } }
  else c

/-- Shows the file of settings and the settings. -/
def showSettings (c : Config) : Program Exit := do
  let settings ← (hidePassword c).toValue
  say s!"[dim]{(← Config.file).text}[/dim]"
  let printed := Json.print settings
  «show» (.json (← printed.bind fun text => (Json.read text).mapError .unreadable))
  return .success

/-- Writes a file with the default settings. -/
def initSettings (force : Bool) : Program Exit := do
  let file ← Config.file
  if (← demand (.exists file)) && !force then
    say s!"[yellow]Configuration already exists at {file.text}[/yellow]"
    return .failure
  ({} : Config).save file
  say s!"[green]Created default configuration at {file.text}[/green]"
  return .success

end Action

/-! ## The command line -/

namespace Invocation

/-- Carries out what is asked for. -/
def run (c : Config) : Invocation → Program Exit
  | .info => reporting (Action.info c)
  | .find s json fields => reporting (Action.find c s json fields)
  | .count s => reporting (Action.count c s)
  | .showDesign name => reporting (Action.showDesign c name)
  | .exportDesign name file => reporting (Action.exportDesign c name file)
  | .importDesign name file => reporting (Action.importDesign c name file)
  | .showSettings => Action.showSettings c
  | .initSettings force => Action.initSettings force

end Invocation

/-- A setting, or what an option says in its place unless that is empty. -/
def override (a : Arguments) (long : String) (v : Value) : Value := (a.text long).orElse v

/-- The settings that apply: those given or those of the file, with what the options say of the
connection. -/
def prepare (given : Option Config) (a : Arguments) : Program Config := do
  let c ←
    match given with
    | some c => pure c
    | none => do Config.load (← Config.file)
  let connection :=
    { c.connection with
      url := override a "--url" c.connection.url
      database := override a "--database" c.connection.database
      version := override a "--store-version" c.connection.version }
  if a.has "--verbose" || c.command.verbose.truthy then
    say "[bold green]Verbose mode enabled.[/bold green]"
  return { c with connection }

/-- The command line. -/
def run (given : Option Config) (args : List String) : Program Exit := do
  match readGroup Switches.shared Invocation.commands args with
  | .error exit => return exit
  | .ok (a, name, rest) =>
    let c ← prepare given a
    match Invocation.read name rest with
    | .error exit => return exit
    | .ok invocation => invocation.run c

end ViewFinder.Command
