import ViewFinder.Json.Printer

/-!
# View parameters in a request

A view request carries its parameters in the query string, keys as JSON and all else as text; a list
of keys goes into the body.
-/

namespace ViewFinder.Store

/-- The parameters that are sent as JSON. -/
def jsonParams : List String := ["key", "startkey", "endkey"]

/-- The text of a parameter in the query string. -/
def paramText (name v : Value) : Except Fault String :=
  if (jsonParams.map Value.str).any (·.sameKey name) then Json.print v
  else
    match v with
    | .bool true => .ok "true"
    | .bool false => .ok "false"
    | v => .ok v.text

/-- Splits the parameters, in order, into the query string and the keys for the body. -/
def splitParams : Entries → Except Fault (Entries × Option Value)
  | [] => .ok ([], none)
  | (name, v) :: rest =>
    if name.equal (.str "keys") then do
      let (query, keys) ← splitParams rest
      return (query, keys.or (some v))
    else do
      let text ← paramText name v
      let (query, keys) ← splitParams rest
      return ((name, .str text) :: query, keys)

/-- The body that carries a list of keys. -/
def keysBody (keys : Option Value) : Entries :=
  match keys with
  | some keys => [(.str "keys", keys)]
  | none => []

/-- The query string and the body of a view request; no body without a list of keys. -/
def encodeParams (params : Value) : Except Fault (Entries × Option Value) := do
  let (query, keys) ← splitParams (← params.entries)
  return (query, if keys.isSome then some (.dict (keysBody keys)) else none)

end ViewFinder.Store
