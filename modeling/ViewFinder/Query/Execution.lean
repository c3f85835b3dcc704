import ViewFinder.Query.Compiled
import ViewFinder.Registry
import ViewFinder.Window

/-!
# Carrying out queries

A compiled query is sent to its view. When the store does not find the view, it is registered and the
query sent once more, and no more than that. A query without a stored view goes to the store as it
is, if that is permitted. A query with fallback keys is sent once for each of them, and the rows are
put together without those of documents that came up before.
-/

namespace ViewFinder

open Store

/-- What queries of one document type go by. -/
structure Setting where
  profile : Profile
  /-- The design document that views are registered in. -/
  designName : String
  /-- Are queries without a stored view permitted? -/
  allowAdHoc : Bool := true

namespace CompiledQuery

/-- The definition of the view of a query. -/
def view (q : CompiledQuery) : ViewDefinition := ⟨q.viewName, q.mapSource, q.reduceSource⟩

/-- The path of the view of a query. -/
def viewPath (q : CompiledQuery) (p : Profile) : String := p.viewPath q.designName q.viewName.text

/-- Sends a query to its view, which is registered if it is missing. -/
def executeIndexed (q : CompiledQuery) (s : Setting) : Dialogue Value := do
  let request := Request.view (q.viewPath s.profile) q.params
  match ← Dialogue.attempt request with
  | .error (.notFound _) =>
    let _ ← Registry.ensure s.designName q.view
    Dialogue.request request
  | answer => answer

/-- Sends a query without a stored view. -/
def executeAdHoc (q : CompiledQuery) (s : Setting) : Dialogue Value := do
  unless s.allowAdHoc do
    throw (.unsupported "ad-hoc queries" (String.ofList s.profile.version.text))
  Dialogue.request (.adHoc s.profile.adHocPath q.mapSource q.reduceSource q.params)

/-- Sends a query, with or without its view. -/
def executeOne (q : CompiledQuery) (s : Setting) : Dialogue Value :=
  if q.slow.truthy then q.executeAdHoc s else q.executeIndexed s

/-- The rows that are no rows of documents seen before, and all ids seen then. Rows without an id are
all kept. -/
def freshRows (seen : List Value) : List Value → Except Fault (List Value × List Value)
  | [] => .ok ([], seen)
  | row :: rest => do
    let id ← row.member "id"
    if id.isNull then
      let (rows, seen) ← freshRows seen rest
      return (row :: rows, seen)
    else if !id.hashable then throw .wrongKind
    else if seen.any (·.sameKey id) then freshRows seen rest
    else
      let (rows, seen) ← freshRows (id :: seen) rest
      return (row :: rows, seen)

/-- The rows of a response, none if it does not mention any. -/
def rowsOf (response : Value) : Except Fault (List Value) := do
  ((← response.member? "rows").getD (.list [])).items

/-- Sends queries one after the other and puts the fresh rows together. -/
def gather (s : Setting) (seen : List Value) : List CompiledQuery → Dialogue (List Value)
  | [] => return []
  | q :: rest => do
    let response ← q.executeOne s
    let (rows, seen) ← freshRows seen (← rowsOf response)
    return rows ++ (← gather s seen rest)

/-- A parameter as an integer, if it is there. -/
def integerParam? (params : Entries) (name : String) : Except Fault (Option Int) :=
  match params.get? name with
  | some v => (v.toInteger).map some
  | none => .ok none

/-- Sends a query once for each fallback key. The window applies to the rows of all together. -/
def executePerKey (q : CompiledQuery) (s : Setting) : Dialogue Value := do
  let limit ← integerParam? q.params s.profile.limitParam
  let skip ← integerParam? q.params Profile.offsetParam
  let unpaged (q : CompiledQuery) : CompiledQuery :=
    { q with params := (q.params.erase s.profile.limitParam).erase Profile.offsetParam }
  let rows ← gather s [] ((← q.perKey).map unpaged)
  let skip := skip.getD 0
  let rows := Window.cut skip limit rows
  return Window.response rows.length skip rows

/-- The response to a query. -/
def execute (q : CompiledQuery) (s : Setting) : Dialogue Value :=
  if q.fallbackKeys.truthy then q.executePerKey s else q.executeOne s

end CompiledQuery

end ViewFinder
