import ViewFinder.Condition

/-!
# Query options

`Options` is everything a caller can say about a query. Callers give options as a dictionary
(`Options.ofValue`), where some have an older name too and view parameters may be given bare or
inside `extra`. The values are kept as they are given; what uses an option refuses a value it
cannot use.
-/

namespace ViewFinder

/-- Everything a caller can say about a query. -/
structure Options where
  /-- Field to exact value, range or discrete set. -/
  conditions : Value := .dict []
  /-- The fields of the key, in place of those of the conditions. -/
  useKey : Value := .null
  /-- The field to sort the documents by once they are there. -/
  order : Value := .null
  limit : Value := .null
  offset : Value := .null
  /-- Walk the index backwards. -/
  descending : Value := .bool false
  readonly : Value := .bool false
  /-- Answer the store's response in place of documents. -/
  raw : Value := .bool false
  /-- False lets the store answer from an index that is not up to date. -/
  updateIndex : Value := .bool true
  /-- Query without a stored view. -/
  slow : Value := .bool false
  startkey : Value := .null
  endkey : Value := .null
  /-- Further view parameters. -/
  extra : Value := .dict []
  deriving Inhabited

namespace Options

/-- The parameters that are handed on to the store as they are. -/
def viewParameters : List String :=
  ["group", "group_level", "include_docs", "startkey_docid", "endkey_docid", "inclusive_end", "keys",
    "reduce"]

/-- The names of the options. -/
def names : List String :=
  ["conditions", "use_key", "order", "limit", "offset", "descending", "readonly", "raw",
    "update_index", "slow", "startkey", "endkey", "extra"]

/-- The current name of an option that has an older one. -/
def currentName (name : String) : String :=
  if name == "return_json" then "raw"
  else if name == "skip" then "offset"
  else if name == "count" then "limit"
  else name

/-- The current name of an option, given as the key of a dictionary. -/
def currentKey : Value → Value
  | .str name => .str (currentName name)
  | key => key

/-- Does the key name a view parameter? -/
def isViewParameter (key : Value) : Bool := viewParameters.any fun name => (Value.str name).sameKey key

/-- Gives the option of a name a value; none if there is no such option. -/
def set? (o : Options) (name : String) (v : Value) : Option Options :=
  match name with
  | "conditions" => some { o with conditions := v }
  | "use_key" => some { o with useKey := v }
  | "order" => some { o with order := v }
  | "limit" => some { o with limit := v }
  | "offset" => some { o with offset := v }
  | "descending" => some { o with descending := v }
  | "readonly" => some { o with readonly := v }
  | "raw" => some { o with raw := v }
  | "update_index" => some { o with updateIndex := v }
  | "slow" => some { o with slow := v }
  | "startkey" => some { o with startkey := v }
  | "endkey" => some { o with endkey := v }
  | "extra" => some { o with extra := v }
  | _ => none

/-- The options as a dictionary with one entry for each. -/
def toEntries (o : Options) : Entries :=
  [(.str "conditions", o.conditions), (.str "use_key", o.useKey), (.str "order", o.order),
    (.str "limit", o.limit), (.str "offset", o.offset), (.str "descending", o.descending),
    (.str "readonly", o.readonly), (.str "raw", o.raw), (.str "update_index", o.updateIndex),
    (.str "slow", o.slow), (.str "startkey", o.startkey), (.str "endkey", o.endkey),
    (.str "extra", o.extra)]

/-- Replaces options by name, unchecked but for the names. -/
def replace (o : Options) : Entries → Except Fault Options
  | [] => .ok o
  | (.str name, v) :: rest =>
    match o.set? name v with
    | some o => replace o rest
    | none => .error .wrongKind
  | _ :: _ => .error .wrongKind

/-- Is the value one of those that ask for a slow query by the older option `view_type`? -/
def asksSlow (v : Value) : Bool := v.among [.str "slow", .str "ad_hoc"]

/-- Takes one entry of a dictionary of options. The options and the further view parameters are
gathered apart. -/
def takeEntry (acc : Options × Entries) (key value : Value) : Except Fault (Options × Entries) :=
  let (o, extra) := acc
  let key := currentKey key
  if key.equal (.str "view_type") then .ok ({ o with slow := .bool (asksSlow value) }, extra)
  else if key.equal (.str "update") then .ok ({ o with updateIndex := .bool value.truthy }, extra)
  else if key.equal (.str "extra") then do
    return (o, Entries.merge extra (← (value.orElse (.dict [])).toEntries))
  else if isViewParameter key then .ok (o, Entries.insert extra key value)
  else
    match o.set? key.text value, key with
    | some o, .str _ => .ok (o, extra)
    | _, _ => .error (.refused (.unknownOption key.text))

/-- Takes the entries of a dictionary of options, one after the other. -/
def takeEntries (acc : Options × Entries) : Entries → Except Fault (Options × Entries)
  | [] => .ok acc
  | (key, value) :: rest => do takeEntries (← takeEntry acc key value) rest

/-- The keys that name no view parameter. -/
def unknownParameters (extra : Entries) : List Value :=
  (extra.map (·.1)).filter (!isViewParameter ·)

/-- Checks the view parameters: all must be known. -/
def checkExtra (extra : Entries) : Except Fault Unit :=
  match unknownParameters extra with
  | [] => .ok ()
  | unknown =>
    match Value.sorted? unknown with
    | none => .error .wrongKind
    | some sorted =>
      match sorted.mapM (fun | .str s => some s | _ => none) with
      | some names => .error (.refused (.unknownParameters names))
      | none => .error .wrongKind

/-- The options that a dictionary describes. Nothing, and whatever counts as false, describes the
defaults. -/
def ofValue (v : Value) : Except Fault Options := do
  let given ← if v.truthy then v.entries else pure []
  let (o, extra) ← takeEntries ({}, []) given
  checkExtra extra
  let conditions ← (o.conditions.orElse (.dict [])).toEntries
  return { o with conditions := .dict conditions, extra := .dict extra }

end Options

end ViewFinder
