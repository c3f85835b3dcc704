import ViewFinder.Value.Access

/-!
# What a store version can do

Releases of the store differ in their view requests. A `Profile` is the version of the connected
store, and its functions answer everything that depends on it: whether counting goes through a
reduce step, whether one request can look up several keys, how parameters are named and where views
are found.
-/

namespace ViewFinder

/-- The capabilities of a store, all decided by its version. -/
structure Profile where
  version : Version
  deriving DecidableEq

namespace Profile

/-- The version assumed when none is given. -/
def defaultVersion : Value := .str "0.9.0"

/-- The profile of the version that a value reads as. -/
def ofValue (v : Value) : Except Fault Profile := (Version.ofValue (v.orElse defaultVersion)).map .mk

variable (p : Profile)

/-- Can a find view double as a count view by leaving its reduce step on? -/
def reduceCounting : Bool := p.version.releaseAbove 0 8

/-- Can one request look up several exact keys? -/
def multiKey : Bool := p.version.releaseAbove 0 8

/-- The parameter that limits the number of rows. -/
def limitParam : String := if p.version.releaseBelow 0 9 then "count" else "limit"

/-- The parameter that skips rows. -/
def offsetParam : String := "skip"

/-- The parameter, with its value, that lets the store answer from an index that is not up to
date. -/
def staleParam : String × String :=
  if p.version.releaseBelow 0 10 then ("update", "false") else ("stale", "ok")

/-- The path of a stored view. -/
def viewPath (design view : String) : String :=
  if p.version.releaseBelow 0 9 then s!"_view/{design}/{view}" else s!"_design/{design}/_view/{view}"

/-- The path of queries that name no stored view. -/
def adHocPath : String := if p.version.releaseBelow 0 9 then "_slow_view" else "_temp_view"

/-- The names of the parts of every profile. -/
def commonFeatures : List String :=
  ["version", "limit_param", "offset_param", "stale_param", "ad_hoc_path", "view_path", "supports",
    "summary", "from_version"]

/-- The names of what every record with named parts answers to: its making, its text, its
comparisons and the description of its parts. -/
def recordFeatures : List String :=
  ["__annotations__", "__class__", "__dataclass_fields__", "__dataclass_params__", "__delattr__",
    "__dict__", "__dir__", "__doc__", "__eq__", "__format__", "__ge__", "__getattribute__",
    "__getstate__", "__gt__", "__hash__", "__init__", "__init_subclass__", "__le__", "__lt__",
    "__match_args__", "__module__", "__ne__", "__new__", "__reduce__", "__reduce_ex__", "__repr__",
    "__setattr__", "__sizeof__", "__str__", "__subclasshook__"]

/-- Does the profile have a feature of the name? -/
def supports (feature : String) : Bool :=
  if feature == "reduce_counting" then p.reduceCounting
  else if feature == "multi_key" then p.multiKey
  else commonFeatures.contains feature || recordFeatures.contains feature

/-- The capabilities by name. -/
def summary : Entries :=
  [(.str "version", .str (String.ofList p.version.text)),
    (.str "reduce_counting", .bool p.reduceCounting),
    (.str "multi_key", .bool p.multiKey),
    (.str "limit_param", .str p.limitParam),
    (.str "stale_param", .str s!"{p.staleParam.1}={p.staleParam.2}"),
    (.str "ad_hoc_path", .str p.adHocPath)]

end Profile

end ViewFinder
