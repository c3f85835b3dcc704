import ViewFinder.Value.Access
import ViewFinder.Name

/-!
# Configuration

The settings of the program: how to reach the store, how to query it and how the command line
behaves. They are read from a dictionary whose sections and fields must have known names; the values
are taken as they are.
-/

namespace ViewFinder

/-- How to reach the store. -/
structure ConnectionConfig where
  url : Value := .str "http://localhost:5984"
  database : Value := .null
  username : Value := .null
  password : Value := .null
  /-- In seconds. -/
  timeout : Value := .float (.ofInt 30)
  /-- The version of the store; null to ask the store. -/
  version : Value := .null
  deriving Inhabited

/-- How to query the store. -/
structure QueryConfig where
  discriminatorField : Value := .str Name.defaultDiscriminatorField
  /-- Are queries without a stored view permitted? -/
  allowAdHoc : Value := .bool true
  deriving Inhabited

/-- How the command line behaves. -/
structure CommandConfig where
  verbose : Value := .bool false
  color : Value := .bool true
  deriving Inhabited

/-- The settings of the program. -/
structure Config where
  connection : ConnectionConfig := {}
  query : QueryConfig := {}
  command : CommandConfig := {}
  deriving Inhabited

namespace Value

mutual

/-- A value with ranges and versions as dictionaries of their parts, which no key can be. -/
def plain : Value → Except Fault Value
  | .range low high => do return .dict [(.str "start", ← plain low), (.str "end", ← plain high)]
  | .version v =>
    .ok (.dict [(.str "major", .int v.major), (.str "minor", .int v.minor),
      (.str "patch", .int v.patch)])
  | .list items => (plainItems items).map .list
  | .tuple items => (plainItems items).map .tuple
  | .dict entries => (plainEntries entries).map .dict
  | v => .ok v

/-- The values with ranges and versions as dictionaries of their parts. -/
def plainItems : List Value → Except Fault (List Value)
  | [] => .ok []
  | v :: vs => do return (← plain v) :: (← plainItems vs)

/-- The entries with ranges and versions as dictionaries of their parts. -/
def plainEntries : List (Value × Value) → Except Fault (List (Value × Value))
  | [] => .ok []
  | (k, v) :: rest => do
    let key ← plain k
    let value ← plain v
    if key.hashable then return (key, value) :: (← plainEntries rest) else throw .wrongKind

end

end Value

/-- Sets fields by name, unchecked but for the names. -/
def setFields {α : Type} (set? : α → String → Value → Option α) (a : α) : Entries → Except Fault α
  | [] => .ok a
  | (.str name, v) :: rest =>
    match set? a name v with
    | some a => setFields set? a rest
    | none => .error .wrongKind
  | _ :: _ => .error .wrongKind

namespace ConnectionConfig

/-- Sets the field of a name. -/
def set? (c : ConnectionConfig) (name : String) (v : Value) : Option ConnectionConfig :=
  match name with
  | "url" => some { c with url := v }
  | "database" => some { c with database := v }
  | "username" => some { c with username := v }
  | "password" => some { c with password := v }
  | "timeout" => some { c with timeout := v }
  | "version" => some { c with version := v }
  | _ => none

/-- The fields under their names. -/
def toEntries (c : ConnectionConfig) : Entries :=
  [(.str "url", c.url), (.str "database", c.database), (.str "username", c.username),
    (.str "password", c.password), (.str "timeout", c.timeout), (.str "version", c.version)]

end ConnectionConfig

namespace QueryConfig

/-- Sets the field of a name. -/
def set? (c : QueryConfig) (name : String) (v : Value) : Option QueryConfig :=
  match name with
  | "discriminator_field" => some { c with discriminatorField := v }
  | "allow_ad_hoc" => some { c with allowAdHoc := v }
  | _ => none

/-- The fields under their names. -/
def toEntries (c : QueryConfig) : Entries :=
  [(.str "discriminator_field", c.discriminatorField), (.str "allow_ad_hoc", c.allowAdHoc)]

end QueryConfig

namespace CommandConfig

/-- Sets the field of a name. -/
def set? (c : CommandConfig) (name : String) (v : Value) : Option CommandConfig :=
  match name with
  | "verbose" => some { c with verbose := v }
  | "color" => some { c with color := v }
  | _ => none

/-- The fields under their names. -/
def toEntries (c : CommandConfig) : Entries := [(.str "verbose", c.verbose), (.str "color", c.color)]

end CommandConfig

namespace Config

/-- The entries of a section, none if it is left out. -/
def sectionOf (data : Entries) (name : String) : Except Fault Entries :=
  match data.get? name with
  | none => .ok []
  | some (.dict es) => .ok es
  | some _ => .error .wrongKind

/-- The settings that a dictionary describes. -/
def ofValue (v : Value) : Except Fault Config := do
  let data ← v.entries
  return {
    connection := ← setFields ConnectionConfig.set? {} (← sectionOf data "connection")
    query := ← setFields QueryConfig.set? {} (← sectionOf data "query")
    command := ← setFields CommandConfig.set? {} (← sectionOf data "cli") }

/-- The settings as a dictionary. -/
def toValue (c : Config) : Except Fault Value := do
  return .dict [(.str "connection", .dict (← Value.plainEntries c.connection.toEntries)),
    (.str "query", .dict (← Value.plainEntries c.query.toEntries)),
    (.str "cli", .dict (← Value.plainEntries c.command.toEntries))]

/-- The settings with those of the environment, which come first where they are not empty. -/
def applyEnvironment (c : Config) (url database : Option String) : Config :=
  let given (v : Option String) : Option Value := (v.filter (!·.isEmpty)).map .str
  { c with
    connection :=
      { c.connection with
        url := (given url).getD c.connection.url
        database := (given database).getD c.connection.database } }

end Config

end ViewFinder
