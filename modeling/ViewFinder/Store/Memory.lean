import ViewFinder.Store.Dialogue
import ViewFinder.Store.Index

/-!
# A store in memory

A store that holds its documents in memory, in the order of insertion, and answers view requests
from the map functions in its design documents. A save must name the revision that it replaces; the
new revision counts one generation up.
-/

namespace ViewFinder.Store

/-- What a save gives back: the store's response, and the document as it is stored. -/
structure Saved where
  response : Value
  document : Value
  deriving Inhabited

/-- A store in memory. -/
structure Memory where
  version : Value := .str "0.9.0"
  /-- The documents under their ids. -/
  documents : Entries := []
  /-- How many ids have been made up. -/
  made : Nat := 0
  deriving Inhabited

namespace Memory

variable (m : Memory)

/-- The document of an id. -/
def find? (id : Value) : Except Fault (Option Value) :=
  if id.hashable then .ok (Entries.find? m.documents id) else .error .wrongKind

/-- Puts a document into the store as its first revision, under an id made up if it has none. -/
def add (document : Entries) : Except Fault (Value × Memory) :=
  let (document, made) :=
    match Entries.get? document "_id" with
    | some _ => (document, m.made)
    | none => (Entries.set document "_id" (.str s!"doc{m.made + 1}"), m.made + 1)
  let id := Entries.getD document "_id"
  let document := Value.dict (Entries.set document "_rev" (.str "1-seed"))
  if id.hashable then
    .ok (document, { m with made, documents := Entries.insert m.documents id document })
  else .error .wrongKind

/-- Takes a document out of the store; was it there? -/
def remove (id : Value) : Bool × Memory :=
  ((Entries.find? m.documents id).isSome,
    { m with documents := List.filter (fun e => !e.1.sameKey id) m.documents })

/-- The document of an id. -/
def get (id : Value) : Except Fault Value := do
  match ← m.find? id with
  | some document => return document
  | none => throw (.notFound (.document id.text))

/-- The generation of a revision, the number before its hyphen. -/
def generation (rev : Value) : Except Fault Int :=
  match rev with
  | .str s => Text.readInteger (String.ofList (s.toList.takeWhile (· != '-')))
  | _ => .error .noMember

/-- The revision that a save gives to a document, which must name the revision it replaces. -/
def nextRevision (id : Value) (existing : Option Value) (document : Value) :
    Except Fault String := do
  match existing with
  | none => return "1-mem"
  | some existing =>
    if !(← existing.member "_rev").equal (← document.member "_rev") then
      throw (.conflict (.document id.text))
    let n ← generation (← existing.required "_rev")
    return s!"{n + 1}-mem"

/-- Stores a document under its id. -/
def save (document : Value) : Except Fault (Saved × Memory) := do
  let id ← document.required "_id"
  let rev ← nextRevision id (← m.find? id) document
  let stored := Value.dict (Entries.set (← document.entries) "_rev" (.str rev))
  let response := Value.dict [(.str "ok", .bool true), (.str "id", id), (.str "rev", .str rev)]
  return (⟨response, stored⟩, { m with documents := Entries.insert m.documents id stored })

/-- The names of the design document and the view in a path. -/
def viewAt? (path : String) : Option (String × String) :=
  match (path.toList.splitOn '/').map String.ofList with
  | "_design" :: design :: _ :: view :: _ => some (design, view)
  | "_design" :: _ => none
  | _ :: design :: view :: _ => some (design, view)
  | _ => none

/-- The body stored for a view in a design document, if it has one. -/
def bodyOf? (design : Value) (view : String) : Except Fault (Option Value) := do
  match (← design.member? "views").getD (.dict []) with
  | .dict bodies => return Entries.get? bodies view
  | .list names | .tuple names | .set names | .frozenset names =>
    if (Value.str view).among names then throw .wrongKind else return none
  | .str s => if (Condition.splitFirst view.toList s.toList).isSome then throw .wrongKind else return none
  | _ => throw .wrongKind

/-- The response to a request for a stored view. -/
def view (path : String) (params : Entries) : Except Fault Value := do
  let some (design, view) := viewAt? path | throw .noSuchPart
  let missing := Fault.notFound (.view path)
  let some design := Entries.get? m.documents (Index.designPrefix ++ design) | throw missing
  let some body ← bodyOf? design view | throw missing
  let map ← body.required "map"
  Index.answer m.documents map (← body.member "reduce") params

/-- The response to a request that names no stored view. -/
def adHoc (map reduce : Value) (params : Entries) : Except Fault Value :=
  Index.answer m.documents map reduce params

/-- The answer to a request, and the store afterwards. -/
def answer (r : Request) : Answer × Memory :=
  match r with
  | .serverVersion => (.ok m.version, m)
  | .get id => (m.get id, m)
  | .save document =>
    match m.save document with
    | .ok (saved, after) => (.ok saved.response, after)
    | .error e => (.error e, m)
  | .view path params => (m.view path params, m)
  | .adHoc _ map reduce params => (m.adHoc map reduce params, m)

end Memory

end ViewFinder.Store
