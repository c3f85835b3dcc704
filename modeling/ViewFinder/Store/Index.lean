import ViewFinder.Store.MapFunction
import ViewFinder.Json.Printer
import ViewFinder.Window

/-!
# Indexes

An index is the list of rows that a map function emits, in the collation order of their keys and,
among equal keys, of the document ids. `Index.answer` gives the response to a view request: the rows
that the parameters select, counted if there is a reduce step, else cut to the window asked for.
-/

namespace ViewFinder

namespace Collation

mutual

/-- The place of a JSON value; an object goes by its text with sorted keys. -/
def ofValue : Value → Except Fault Collation
  | .null => .ok .null
  | .bool b => .ok (.truth b)
  | .int n => .ok (.number (.ofInt n))
  | .float x => .ok (.number (.ofBinary64 x))
  | .str s => .ok (.text s)
  | .list vs => (ofValues vs).map .list
  | .tuple vs => (ofValues vs).map .list
  | v => (Json.printSorted v).map .other

/-- The places of a list of values. -/
def ofValues : List Value → Except Fault (List Collation)
  | [] => .ok []
  | v :: vs => do return (← ofValue v) :: (← ofValues vs)

end

end Collation

namespace Store

/-- A row of an index. -/
structure Row where
  id : String
  key : Value
  document : Value
  /-- The place of the key. -/
  place : Collation
  deriving Inhabited

namespace Row

/-- The row as it is sent. -/
def toValue (r : Row) : Value :=
  .dict [(.str "id", .str r.id), (.str "key", r.key), (.str "value", r.document)]

/-- Does the first row come before the second, by key and then by id? -/
def precedes (r s : Row) : Bool :=
  match r.place.compare? s.place with
  | some .lt => true
  | some .eq => Text.before r.id s.id
  | _ => false

end Row

namespace Index

/-- What the id of a design document starts with. -/
def designPrefix : String := "_design/"

/-- The key that a map function emits for a document, with its id, if it emits one. -/
def keyOf? (e : Emission) (id : Value) (document : Value) :
    Except Fault (Option (String × List Value)) := do
  let .str id := id | throw .noMember
  if id.startsWith designPrefix then return none
  let attributes ← document.entries
  if !(attributes.getD e.field).equal e.value then return none
  return some (id, e.keyFields.map (attributes.getD ·))

/-- The keys that a map function emits for some documents, each with id and document. -/
def keys (e : Emission) : Entries → Except Fault (List (String × List Value × Value))
  | [] => .ok []
  | (id, document) :: rest => do
    let key ← keyOf? e id document
    let others ← keys e rest
    return (key.map fun (id, key) => (id, key, document)).toList ++ others

/-- The rows of emitted keys, in the order of the documents. -/
def emitted (e : Emission) (documents : Entries) : Except Fault (List Row) := do
  (← keys e documents).mapM fun (id, key, document) =>
    return { id, key := .list key, document, place := .list (← Collation.ofValues key) }

/-- The rows in the order of the index. -/
def ordered (rows : List Row) : List Row :=
  Sorting.sortOrdered (fun r => r.place.isOrdered) Row.precedes rows

/-- The rows that a map function gives for some documents. -/
def ofDocuments (source : Value) (documents : Entries) : Except Fault (List Row) := do
  let e ← Emission.ofSource source
  return ordered (← emitted e documents)

/-- The rows with a key. -/
def withKey (rows : List Row) (key : Value) : List Row := rows.filter (·.key.equal key)

/-- The rows on one side of a bound. -/
def bounded (bound : Option Value) (within : Collation → Collation → Bool) (rows : List Row) :
    Except Fault (List Row) :=
  match bound with
  | none => .ok rows
  | some v => do
    let place ← Collation.ofValue v
    return rows.filter fun r => within place r.place

/-- The rows of a walk through the index, forwards or backwards, between the bounds asked for. -/
def walk (params : Entries) (rows : List Row) : Except Fault (List Row) := do
  let descending := (params.getD "descending").truthy
  let rows := if descending then rows.reverse else rows
  let rows := match params.get? "key" with
    | some key => withKey rows key
    | none => rows
  let onward := fun (bound place : Collation) => bound.atMost place
  let back := fun (bound place : Collation) => place.atMost bound
  let rows ← bounded (params.get? "startkey") (if descending then back else onward) rows
  bounded (params.get? "endkey") (if descending then onward else back) rows

/-- The rows that the parameters select: those of each key in turn if there are several, else those
of a walk. -/
def select (params : Entries) (rows : List Row) : Except Fault (List Row) :=
  match params.get? "keys" with
  | some keys => do return (← keys.items).flatMap (withKey rows)
  | none => walk params rows

/-- The row of a reduce step. -/
def countRow (key : Value) (n : Nat) : Value := .dict [(.str "key", key), (.str "value", .int n)]

/-- The rows of a reduce step over the selected rows: one for each key asked for, or one for all;
none where nothing was selected. -/
def reduced (params : Entries) (rows selected : List Row) : Except Fault (List Value) :=
  match params.get? "keys", (params.getD "group").truthy with
  | some keys, true => do
    return (← keys.items).filterMap fun key =>
      match withKey rows key with
      | [] => none
      | matched => some (countRow key matched.length)
  | _, _ => .ok (if selected.isEmpty then [] else [countRow .null selected.length])

/-- Is the reduce step of a view to be run? -/
def runsReduce (reduce : Value) (params : Entries) : Bool :=
  reduce.truthy && !((params.get? "reduce").map Value.isFalse).getD false

/-- The limit that the parameters set, under either of its names. -/
def limit? (params : Entries) : Except Fault (Option Int) :=
  match (params.get? "limit").getD (params.getD "count") with
  | .null => .ok none
  | v => (v.toInteger).map some

/-- The response to a request for a view over some documents. -/
def answer (documents : Entries) (map reduce : Value) (params : Entries) : Except Fault Value := do
  let rows ← ofDocuments map documents
  let selected ← select params rows
  if runsReduce reduce params then
    return .dict [(.str "rows", .list (← reduced params rows selected))]
  else
    let skip ← ((params.get? "skip").getD (.int 0)).toInteger
    let limit ← limit? params
    return Window.response rows.length skip ((Window.cut skip limit selected).map Row.toValue)

end Index

end Store

end ViewFinder
