import ViewFinder.Finder
import ViewFinder.Config
import ViewFinder.Store.Web

/-!
# Databases

A `Database` is what is known of an open store: its capabilities, found out once, and one finder for
each document type.
-/

namespace ViewFinder

open Store

/-- An open store. -/
structure Database where
  profile : Profile
  allowAdHoc : Bool := true
  /-- The finders under the names of their types. -/
  finders : List (Value × Finder) := []

namespace Database

/-- Opens a store. Its version is asked for, unless one is given. -/
def «open» (version : Value) (allowAdHoc : Bool) : Dialogue Database := do
  let version ← if version.isNull then Dialogue.request .serverVersion else pure version
  return { profile := ← Profile.ofValue version, allowAdHoc }

/-- The finder of a type: the one made for the first type of its name. -/
def finder (d : Database) (e : EntityType) : Except Fault Finder :=
  if !e.name.hashable then .error .wrongKind
  else
    match d.finders.find? (·.1.sameKey e.name) with
    | some (_, f) => .ok f
    | none => Finder.ofType e d.profile d.allowAdHoc

/-- The database with a finder as it is now. -/
def put (d : Database) (f : Finder) : Database :=
  let name := f.entityType.name
  { d with finders := (name, f) :: d.finders.filter (!·.1.sameKey name) }

/-- Carries out an operation of the finder of a type over a link of any kind, and keeps what the
finder learns. -/
def run {α σ : Type} (d : Database) (answer : σ → Request → Answer × σ) (s : σ) (e : EntityType)
    (operation : Finder → Dialogue α) : Except Fault α × Database × σ :=
  match d.finder e with
  | .error fault => (.error fault, d, s)
  | .ok f =>
    let (result, knownViews, s) := (operation f).run answer f.knownViews s
    (result, d.put { f with knownViews }, s)

end Database

namespace ConnectionConfig

/-- An address without slashes at its end. -/
def trimSlashes (url : String) : String :=
  String.ofList (url.toList.reverse.dropWhile (· == '/')).reverse

/-- The connection to make for a database at an address. -/
def clientOf (url timeout : Value) (auth : Option (Value × Value)) : Except Fault Client :=
  match url with
  | .str url => .ok { baseUrl := trimSlashes url, timeout, auth }
  | _ => .error .noMember

/-- The connection and the database that the settings name. -/
def target (c : ConnectionConfig) : Except Fault (Client × String) := do
  unless c.database.truthy do throw (.refused .noDatabase)
  let auth := if c.username.truthy then some (c.username, c.password.orElse (.str "")) else none
  return (← clientOf c.url c.timeout auth, c.database.text)

end ConnectionConfig

end ViewFinder
