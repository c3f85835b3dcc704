import ViewFinder.Query.Execution
import ViewFinder.Record
import ViewFinder.Count

/-!
# Finders

A `Finder` finds, counts and loads the documents of one type. Each operation compiles its options to
a view, sends the query and turns the rows into records. Views of the caller's own can be queried
too, and be given a name with options that then apply each time.
-/

namespace ViewFinder

open Store

/-- A view of the caller's own with the options that apply whenever it is queried. -/
structure NamedView where
  definition : ViewDefinition
  defaults : Entries := []
  deriving Inhabited

/-- Access to the documents of one type. -/
structure Finder where
  entityType : EntityType
  /-- The name of the design document of the type. -/
  designName : String
  profile : Profile
  allowAdHoc : Bool := true
  /-- The views of the caller's own under their names. -/
  named : List (Value × NamedView) := []
  /-- The names of the views last seen in the design document. -/
  knownViews : List Value := []

namespace Result

/-- The first record, if there is one; of a raw response its own first item. -/
def first? : Result → Except Fault (Option Record)
  | .records rs => .ok rs.head?
  | .raw v =>
    if !v.truthy then .ok none
    else
      match v with
      | .dict es =>
        match Entries.find? es (.int 0) with
        | some v => .ok (some (.value v))
        | none => .error .noEntry
      | .list (v :: _) | .tuple (v :: _) => .ok (some (.value v))
      | .str s => .ok ((Text.letters s).head?.map fun letter => .value (.str letter))
      | _ => .error .wrongKind

end Result

namespace Record

/-- Is the record null? -/
def isNull : Record → Bool
  | .value v => v.isNull
  | _ => false

end Record

namespace Finder

/-- The finder of a type, which must have a name for its design document. -/
def ofType (e : EntityType) (profile : Profile) (allowAdHoc : Bool) : Except Fault Finder := do
  return { entityType := e, designName := ← e.designName, profile, allowAdHoc }

variable (f : Finder)

/-- What the queries of the finder go by. -/
def setting : Setting :=
  { profile := f.profile, designName := f.designName, allowAdHoc := f.allowAdHoc }

/-- Sends a query and turns the response into what the options ask for. -/
def execute (q : CompiledQuery) (o : Options) : Dialogue Result := do
  let response ← q.execute f.setting
  f.entityType.materialize response o.raw o.readonly o.order

/-! ## Finding -/

/-- The documents that match. -/
def findWith (o : Options) : Dialogue Result := do
  f.execute (← Query.find f.entityType f.profile o) o

/-- The documents that match the options a value describes. -/
def find (options : Value) : Dialogue Result := do f.findWith (← Options.ofValue options)

/-- The first matching document by the order of keys, or the last one. -/
def endWith (o : Options) (descending : Bool) : Dialogue (Option Record) := do
  let o := { o with limit := .int 1 }
  let o := if descending then { o with descending := .bool true } else o
  (← f.findWith o).first?

/-- The first matching document. -/
def first (options : Value) : Dialogue (Option Record) := do
  f.endWith (← Options.ofValue options) false

/-- The last matching document. -/
def last (options : Value) : Dialogue (Option Record) := do
  f.endWith (← Options.ofValue options) true

/-! ## Loading by id -/

/-- Do the attributes have exactly the values of the conditions? -/
def meets (attributes : Entries) : Entries → Bool
  | [] => true
  | (name, v) :: rest =>
    (attributes.getD (Document.fieldName name)).equal v && meets attributes rest

/-- The document of an id, which must be of the type and meet the conditions. -/
def getWith (id : Value) (o : Options) : Dialogue Record := do
  let raw ← Dialogue.request (.get id)
  let missing := Fault.notFound (.ofType f.entityType.name.text id.text)
  unless ← f.entityType.accepts raw do throw missing
  let record ← f.entityType.instantiate raw
  unless meets (← raw.entries) (← o.conditions.entries) do throw missing
  if o.readonly.truthy then record.markReadonly else return record

/-- The document of an id; only conditions and read-only mark are taken from the options. -/
def get (id options : Value) : Dialogue Record := do f.getWith id (← Options.ofValue options)

/-- The documents of several ids, in the order in which the ids first appear. -/
def getMany (ids options : Value) : Dialogue Result := do
  let ids := Value.distinct Value.sameItem ((← ids.items).filter (!·.isNull))
  match ids with
  | [] => throw (.notFound (.noId f.entityType.name.text))
  | [id] => return .records [← f.get id options]
  | ids =>
    let o ← Options.ofValue options
    f.findWith { o with conditions := .dict [(.str Name.idField, .list ids)], useKey := .null }

/-- Is there a document of an id, or one that meets conditions? -/
def «exists» (idOrConditions : Value) : Dialogue Bool :=
  match idOrConditions with
  | .dict conditions => do
    match ← f.first (.dict [(.str "conditions", .dict conditions)]) with
    | some record => return !record.isNull
    | none => return false
  | id =>
    Dialogue.recover (fun e => if e.isNotFound then return false else throw e) do
      let _ ← f.get id .null
      return true

/-! ## Counting -/

/-- The number of documents that match, seen through the window of the options. -/
def countWith (o : Options) : Dialogue Value := do
  let q ← Query.count f.entityType f.profile { o with limit := .null, offset := .null }
  let response ← q.execute f.setting
  let n ← if q.reduced.truthy then Count.reduced response else Count.rows response
  Count.capped (.int n) o.limit o.offset

/-- The number of documents that match the options a value describes. -/
def count (options : Value) : Dialogue Value := do f.countWith (← Options.ofValue options)

/-! ## Views of the caller's own -/

/-- Queries a view of the caller's own, which is stored under its name when first used. -/
def customView (view : ViewDefinition) (options : Value) : Dialogue Result := do
  let o ← Options.ofValue options
  f.execute (← Query.custom f.entityType f.profile view.name view.map view.reduce o) o

/-- Names that cannot be given as options of a named view, being those of its parts. -/
def reservedDefaults : List String := ["self", "name", "map_source", "reduce_source"]

/-- Gives a view of the caller's own a name, and options for each time it is queried. -/
def defineView (view : ViewDefinition) (defaults : Entries) : Except Fault Finder := do
  let taken (key : Value) : Bool :=
    match key with
    | .str name => reservedDefaults.contains name
    | _ => true
  if defaults.any fun e => taken e.1 then throw .wrongKind
  let _ ← Options.ofValue (.dict defaults)
  if !view.name.hashable then throw .wrongKind
  return { f with named := put f.named view.name ⟨view, defaults⟩ }
where
  /-- Puts a view under a name; one that is there keeps its place. -/
  put : List (Value × NamedView) → Value → NamedView → List (Value × NamedView)
    | [], name, view => [(name, view)]
    | (n, v) :: rest, name, view =>
      if n.sameKey name then (n, view) :: rest else (n, v) :: put rest name view

/-- The view defined under a name. -/
def namedView? (name : Value) : Option NamedView := (f.named.find? (·.1.sameKey name)).map (·.2)

/-- Queries the view defined under a name. The options replace its own, entry by entry. -/
def view (name options : Value) : Dialogue Result := do
  if !name.hashable then throw .wrongKind
  let some named := f.namedView? name
    | throw (.notFound (.definition name.text f.entityType.name.text))
  let options := named.defaults.merge (← (options.orElse (.dict [])).toEntries)
  f.customView named.definition (.dict options)

/-- The stored design document of the type, if there is one. -/
def designDocument : Dialogue (Option DesignDocument) := Registry.load f.designName

/-- Makes sure that the design document has a view; was it written for that? -/
def ensure (view : ViewDefinition) : Dialogue Bool := Registry.ensure f.designName view

end Finder

end ViewFinder
