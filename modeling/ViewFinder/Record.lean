import ViewFinder.Document
import ViewFinder.Value.Part

/-!
# Records

A `Record` is what a raw document becomes for the caller, by the factory of its type. `materialize`
turns the response of a view into records, and `Record.sort` orders them by a field as the store
orders its indexes, with those that lack the field last.
-/

namespace ViewFinder

/-- What a document read from the store becomes. -/
inductive Record where
  | document (d : Document)
  | value (v : Value)
  | object (attributes : Entries)
  deriving Inhabited

namespace Record

/-- Marks a record read-only; only documents can be. The attribute of an object that has the name of the
mark cannot be carried out. -/
def markReadonly : Record → Except Fault Record
  | .document d => .ok (.document d.markReadonly)
  | .object attributes =>
    .error (if (attributes.get? "mark_readonly").isSome then .wrongKind else .noMember)
  | .value _ => .error .noMember

mutual

/-- The place of a value in the order of records; what JSON does not order goes by its literal
text. -/
def place : Value → Collation
  | .null => .null
  | .bool b => .truth b
  | .int n => .number (.ofInt n)
  | .float x => .number (.ofBinary64 x)
  | .str s => .text s
  | .list vs => .list (places vs)
  | .tuple vs => .list (places vs)
  | v => .other v.literal

/-- The places of a list of values. -/
def places : List Value → List Collation
  | [] => []
  | v :: vs => place v :: places vs

end

/-- The place that a part of a value gives it. -/
def placeOfPart : Option Part → Collation
  | some (.value v) => place v
  | some (.operation text) => .other ("<" ++ text)
  | none => .null

/-- The place that an attribute of an object gives it. -/
def placeOfAttribute (attributes : Entries) (name : String) : Collation :=
  if name == "__dict__" then place (.dict attributes)
  else if name == "__class__" then .other "<"
  else
    match attributes.get? name with
    | some v => place v
    | none => if name == "__hash__" || Part.common.contains name then .other "<" else .null

/-- The place of a record by one of its fields, that of null if it lacks the field. -/
def sortPlace (field : Value) : Record → Except Fault Collation
  | .document d => .ok (place (d.getD field .null))
  | .value (.dict es) =>
    if field.hashable then .ok (place ((Entries.find? es field).getD .null)) else .error .wrongKind
  | .object attributes =>
    match field with
    | .str name => .ok (placeOfAttribute attributes name)
    | _ => .error .wrongKind
  | .value v =>
    match field with
    | .str name => .ok (placeOfPart (v.part? name))
    | _ => .error .wrongKind

/-- Does a record at the first place come strictly before one at the second? Null comes after all
else. -/
def precedes (a b : Collation) : Bool :=
  match a, b with
  | .null, _ => false
  | _, .null => true
  | a, b => a.less b

/-- The records in ascending order of a field, stable, those that lack it last. -/
def sort (records : List Record) (field : Value) : Except Fault (List Record) := do
  let placed ← records.mapM fun r => (r.sortPlace field).map (·, r)
  return (Sorting.sortOrdered (fun a => a.1.isOrdered) (fun a b => precedes a.1 b.1) placed).map (·.2)

end Record

namespace EntityType

/-- What the factory of the type makes of a raw document. -/
def instantiate (e : EntityType) (raw : Value) : Except Fault Record :=
  match e.factory with
  | .document => (Document.ofValue raw (some e)).map .document
  | .mapping => (raw.toEntries).map fun es => .value (.dict es)
  | .object => (raw.toAttributes).map .object
  | .identity => (raw.required Name.idField).map .value

/-- The records of the rows of a response. -/
def records (e : EntityType) (response : Value) : Except Fault (List Record) := do
  let rows ← ((← response.member? "rows").getD (.list [])).items
  rows.mapM fun row => do e.instantiate (← row.required "value")

end EntityType

/-- What a query gives back: a raw response, or records. -/
inductive Result where
  | raw (response : Value)
  | records (rs : List Record)
  deriving Inhabited

namespace EntityType

/-- What the response of a view becomes: itself if asked for, else records, read-only if asked for,
and sorted by a field if the query or the type names one. -/
def materialize (e : EntityType) (response raw readonly order : Value) : Except Fault Result := do
  if raw.truthy then return .raw response
  let records ← e.records response
  let records ← if readonly.truthy then records.mapM Record.markReadonly else pure records
  let order := order.orElse e.defaultSort
  return .records (← if order.truthy then Record.sort records order else pure records)

end EntityType

end ViewFinder
