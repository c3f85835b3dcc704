import ViewFinder.Value.Access

/-!
# Design documents

A design document holds the views of one document type under their names. On the wire it is a
document like

    {"_id": "_design/person", "_rev": "3-…", "views": {"find_by_age": {"map": "…", "reduce": "…"}}}

Views are added to it and never removed.
-/

namespace ViewFinder

/-- A named map function with an optional reduce function. -/
structure ViewDefinition where
  name : Value
  map : Value
  /-- Null if there is none. -/
  reduce : Value := .null
  deriving Inhabited

namespace ViewDefinition

/-- The stored form. -/
def body (v : ViewDefinition) : Value :=
  .dict ((.str "map", v.map) :: if v.reduce.truthy then [(.str "reduce", v.reduce)] else [])

/-- The view that a stored form describes; it must have a map function. -/
def ofBody (name body : Value) : Except Fault ViewDefinition := do
  let map ← body.member "map"
  if map.truthy then return ⟨name, map, ← body.member "reduce"⟩
  else throw (.refused (.viewWithoutMap name.text))

/-- Equality of definitions. -/
def equal (v w : ViewDefinition) : Bool :=
  v.name.sameItem w.name && v.map.sameItem w.map && v.reduce.sameItem w.reduce

end ViewDefinition

/-- Views under their names, in the order of insertion. -/
abbrev Views := List (Value × ViewDefinition)

namespace Views

/-- The view under a name. -/
def find? (views : Views) (name : Value) : Option ViewDefinition :=
  (List.find? (fun e => e.1.sameKey name) views).map (·.2)

/-- Puts a view under a name: one that is there is replaced in its place. -/
def insert : Views → Value → ViewDefinition → Views
  | [], name, view => [(name, view)]
  | (n, v) :: rest, name, view =>
    if n.sameKey name then (n, view) :: rest else (n, v) :: insert rest name view

/-- The views that stored bodies describe. -/
def ofBodies : Entries → Except Fault Views
  | [] => .ok []
  | (name, body) :: rest => do
    let view ← ViewDefinition.ofBody name body
    return (name, view) :: (← ofBodies rest)

/-- The stored bodies. -/
def toBodies (views : Views) : Entries := views.map fun (name, view) => (name, view.body)

/-- Do two collections hold equal views under equal names? -/
def equal (views others : Views) : Bool :=
  views.length == others.length &&
    views.all fun (name, view) => ((find? others name).map view.equal).getD false

end Views

/-- The views stored for one document type. -/
structure DesignDocument where
  docId : Value
  views : Views := []
  /-- Null if it has not been stored. -/
  rev : Value := .null
  deriving Inhabited

namespace DesignDocument

/-- What precedes the name in the id of a design document. -/
def idPrefix : String := "_design/"

/-- The part of an id after its first slash, the whole of one without a slash. -/
def nameOfId (id : List Char) : List Char :=
  match id.dropWhile (· != '/') with
  | _ :: rest => rest
  | [] => id

/-- The name of the design document. -/
def name (d : DesignDocument) : Except Fault String :=
  match d.docId with
  | .str s => .ok (String.ofList (nameOfId s.toList))
  | _ => .error .noMember

/-- Is there a view of the name? -/
def hasView (d : DesignDocument) (name : Value) : Bool := (d.views.find? name).isSome

/-- Adds a view under its own name, in place of one that is there. -/
def addView (d : DesignDocument) (view : ViewDefinition) : DesignDocument :=
  { d with views := d.views.insert view.name view }

/-- The stored form. -/
def toValue (d : DesignDocument) : Value :=
  .dict ([(.str "_id", d.docId), (.str "views", .dict d.views.toBodies)] ++
    if d.rev.truthy then [(.str "_rev", d.rev)] else [])

/-- The design document that a stored form describes. -/
def ofValue (v : Value) : Except Fault DesignDocument := do
  let bodies ← ((← v.member "views").orElse (.dict [])).entries
  let views ← Views.ofBodies bodies
  return { docId := ← v.required "_id", views, rev := ← v.member "_rev" }

end DesignDocument

end ViewFinder
