import ViewFinder.Json.Printer
import ViewFinder.Capability
import ViewFinder.Entity
import ViewFinder.Options

/-!
# Compiled queries

A store answers queries by key only: an exact key, a range of keys or a list of exact keys, each on
an index (a view) that emits the key. `Query.find` and `Query.count` choose the fields of the key,
name the view after them, write its map function and encode the condition values into view
parameters. For costs between 4 and 9 and weights between 1 and 3 the view emits `[cost, weight]`
and is asked for `startkey` `[4, 1]` and `endkey` `[9, 3]`.
-/

namespace ViewFinder

/-- A query ready to send to a store. -/
structure CompiledQuery where
  /-- The design document that holds the view. -/
  designName : String
  viewName : Value
  mapSource : Value
  reduceSource : Value := .null
  /-- The parameters of the request. -/
  params : Entries := []
  /-- The keys to ask for one by one, where a store cannot take several. -/
  fallbackKeys : Value := .list []
  /-- Query without the stored view. -/
  slow : Value := .bool false
  /-- The answer is the output of the reduce function and not rows. -/
  reduced : Value := .bool false
  deriving Inhabited

namespace CompiledQuery

/-- The query for one exact key. -/
def withKey (q : CompiledQuery) (key : Value) : CompiledQuery :=
  { q with params := q.params.set "key" key, fallbackKeys := .list [] }

/-- One query for each fallback key, in order. -/
def perKey (q : CompiledQuery) : Except Fault (List CompiledQuery) := do
  return (← q.fallbackKeys.items).map q.withKey

end CompiledQuery

namespace Query

/-! ## Views -/

/-- The prefix of views that find documents. -/
def findPrefix : String := "find"

/-- The prefix of views that count documents. -/
def countPrefix : String := "count"

/-- The reduce function that counts. -/
def countReduce : String := "function(keys, values) \x7b\n  return values.length;\n\x7d"

/-- The name of the view keyed on some fields. -/
def viewName (fields : List String) (operation : String) : String :=
  operation ++ "_by_" ++ "_and_".intercalate fields

/-- The map function that emits the fields of every document of a type. -/
def mapFunction (e : EntityType) (fields : List String) : Except Fault String := do
  let key := ", ".intercalate (fields.map ("doc." ++ ·))
  let value ← Json.print e.discriminatorValue
  return "function(doc) \x7b\n  if(doc." ++ e.discriminatorField.text ++ " == " ++ value ++
    ") \x7b\n    emit([" ++ key ++ "], doc);\n  \x7d\n\x7d"

/-! ## Key fields -/

/-- Puts a name into an ordered list without repetition. -/
def insertName (name : String) : List String → List String
  | [] => [name]
  | other :: rest =>
    if Text.before name other then name :: other :: rest
    else if name == other then other :: rest
    else other :: insertName name rest

/-- The names in ascending order without repetition. -/
def sortNames (names : List String) : List String := names.foldr insertName []

/-- The names that a query gives for its key. -/
def givenNames (o : Options) : Except Fault (List Value) :=
  if o.useKey.truthy then
    match o.useKey with
    | .str s => .ok [.str s]
    | v => v.items
  else (o.conditions.entries).map (·.map (·.1))

/-- The fields that make up the key: those of `use_key`, else those of the conditions, else the
default of the type. -/
def searchFields (e : EntityType) (o : Options) : Except Fault (List String) := do
  let names := sortNames ((← givenNames o).map fun v => Name.normalizeField v.text)
  return if names.isEmpty then [e.defaultKeyField] else names

/-! ## Key values -/

/-- The conditions under the stored names of their fields, ordered by these. -/
def sortedConditions (conditions : Entries) : List (String × Value) :=
  Value.sortByName (conditions.map fun (name, v) => (Name.normalizeField name.text, v))

/-- The values that a condition accepts. -/
def choices (v : Value) : Except Fault (List Value) :=
  if Condition.isDiscrete v then Condition.members v else .ok [v]

/-- Every way to choose one of each, the last varying fastest. -/
def combinations {α : Type} : List (List α) → List (List α)
  | [] => [[]]
  | options :: rest => options.flatMap fun c => (combinations rest).map (c :: ·)

/-- One exact key for each combination of the acceptable values, without repetition. -/
def expandKeys (values : List Value) : Except Fault (List Value) := do
  return Value.distinct Value.sameItem ((combinations (← values.mapM choices)).map .list)

/-- The lower bound of a condition value. -/
def lowBound : Value → Value
  | .range low _ => low
  | v => v

/-- The upper bound of a condition value. -/
def highBound : Value → Value
  | .range _ high => high
  | v => v

/-- A value as a key: a list stays, a tuple becomes one, any other value makes a list of one. -/
def asKey : Value → Value
  | .list vs => .list vs
  | .tuple vs => .list vs
  | v => .list [v]

/-- The parameter under which keys for one request each are kept until the query is built. -/
def fallbackParam : String := "_fallback_keys"

/-- The parameters that select the documents matched by the conditions. -/
def conditionParams (p : Profile) (values : List Value) : Except Fault Entries := do
  if values.any Condition.isRange then
    return [(.str "startkey", .list (values.map lowBound)),
      (.str "endkey", .list (values.map highBound))]
  else if values.any Condition.isDiscrete then
    let keys ← expandKeys values
    return [(.str (if p.multiKey then "keys" else fallbackParam), .list keys)]
  else if values.isEmpty then return []
  else return [(.str "key", .list values)]

/-- Adds a parameter unless it is null or there already. -/
def addAbsent (params : Entries) (name : String) (v : Value) : Entries :=
  if v.isNull || (params.get? name).isSome then params else params.set name v

/-- Adds a parameter if a condition holds. -/
def addIf (condition : Bool) (params : Entries) (name : String) (v : Value) : Entries :=
  if condition then params.set name v else params

/-- The further parameters of a query. A list of keys that the store cannot take in one request is
turned into keys for one request each. -/
def extraParams (p : Profile) (params : Entries) (extra : Entries) : Except Fault Entries :=
  match extra.get? "keys" with
  | some keys =>
    if p.multiKey then .ok (params.merge extra)
    else do
      let keys := (← keys.items).map asKey
      return (params.set fallbackParam (.list keys)).merge (extra.erase "keys")
  | none => .ok (params.merge extra)

/-- The parameters for the window of rows, the direction and the age of the index. -/
def pagingParams (p : Profile) (o : Options) : Except Fault Entries := do
  let params := addIf (!o.limit.isNull) [] p.limitParam o.limit
  let params := addIf o.offset.truthy params Profile.offsetParam o.offset
  let params := addIf o.descending.truthy params "descending" (.bool true)
  let params := addIf (!o.updateIndex.truthy) params p.staleParam.1 (.str p.staleParam.2)
  extraParams p params (← o.extra.toEntries)

/-- Exchanges the bounds of a key range: a store that walks an index backwards takes them from high
to low. -/
def swapBounds (params : Entries) : Entries :=
  let low := params.getD "startkey"
  let high := params.getD "endkey"
  let params := (params.erase "startkey").erase "endkey"
  let params := addIf (!high.isNull) params "startkey" high
  addIf (!low.isNull) params "endkey" low

/-- Makes a bound a key. -/
def boundAsKey (params : Entries) (name : String) : Entries :=
  match params.get? name with
  | some v => params.set name (asKey v)
  | none => params

/-- The parameters that select the documents of a query, in the window it asks for. -/
def searchValues (p : Profile) (o : Options) : Except Fault Entries := do
  let conditions ← o.conditions.entries
  let params ← conditionParams p ((sortedConditions conditions).map (·.2))
  let params := addAbsent params "startkey" o.startkey
  let params := addAbsent params "endkey" o.endkey
  let params := params.merge (← pagingParams p o)
  let params : Entries := params.filter (!·.2.isNull)
  let params := if (params.getD "descending").truthy then swapBounds params else params
  return boundAsKey (boundAsKey params "startkey") "endkey"

/-! ## Queries -/

/-- Takes the keys for one request each out of the parameters. -/
def takeFallback (params : Entries) : Value × Entries :=
  ((params.get? fallbackParam).getD (.list []), params.erase fallbackParam)

/-- The query of the view keyed on some fields. -/
def build (e : EntityType) (o : Options) (operation : String) (fields : List String)
    (reduce : Value) (params : Entries) (reduced : Bool) : Except Fault CompiledQuery := do
  let (fallbackKeys, params) := takeFallback params
  return {
    designName := ← e.designName
    viewName := .str (viewName fields operation)
    mapSource := .str (← mapFunction e fields)
    reduceSource := reduce
    params, fallbackKeys
    slow := o.slow
    reduced := .bool reduced }

/-- The query that finds documents. Where counting goes through a reduce step the view carries it,
so that finding and counting share one index, and it is switched off here. -/
def find (e : EntityType) (p : Profile) (o : Options) : Except Fault CompiledQuery := do
  let fields ← searchFields e o
  let params ← searchValues p o
  if p.reduceCounting then
    build e o findPrefix fields (.str countReduce) (params.set "reduce" (.bool false)) false
  else build e o findPrefix fields .null params false

/-- The query that counts documents: the find view with its reduce step on, grouped when several keys
are asked for. Older stores get a view of their own, whose rows are counted. -/
def count (e : EntityType) (p : Profile) (o : Options) : Except Fault CompiledQuery := do
  let fields ← searchFields e o
  let params ← searchValues p o
  if p.reduceCounting then
    let params := addIf (params.get? "keys").isSome params "group" (.bool true)
    build e o findPrefix fields (.str countReduce) params true
  else build e o countPrefix fields .null params false

/-- The query of a view that the caller supplies. -/
def custom (e : EntityType) (p : Profile) (name map reduce : Value) (o : Options) :
    Except Fault CompiledQuery := do
  let params ← searchValues p o
  let (fallbackKeys, params) := takeFallback params
  let switchedOff := ((params.get? "reduce").map Value.isFalse).getD false
  return {
    designName := ← e.designName
    viewName := name
    mapSource := map
    reduceSource := reduce
    params, fallbackKeys
    slow := o.slow
    reduced := .bool (reduce.truthy && !switchedOff) }

end Query

end ViewFinder
