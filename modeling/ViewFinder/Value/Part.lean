import ViewFinder.Value.Print

/-!
# Parts of values

Records can be sorted by any of their parts, and a plain value has parts too: a number its real and its
imaginary part, a range its bounds, a version its numbers. Besides them it answers to the names of the
operations on its kind, which have no value but a text (`Part.operation`).
-/

namespace ViewFinder

/-- What a value has under a name. -/
inductive Part where
  | value (v : Value)
  /-- An operation, by the text that tells it from others. -/
  | operation (text : String)
  deriving Inhabited

namespace Part

/-- The operations on every value. -/
def common : List String :=
  ["__delattr__", "__dir__", "__eq__", "__format__", "__ge__", "__getattribute__", "__getstate__",
    "__gt__", "__init__", "__init_subclass__", "__le__", "__lt__", "__ne__", "__new__", "__reduce__",
    "__reduce_ex__", "__repr__", "__setattr__", "__sizeof__", "__str__", "__subclasshook__"]

/-- The operations on integers and truth values. -/
def onIntegers : List String :=
  ["as_integer_ratio", "bit_count", "bit_length", "conjugate", "from_bytes", "to_bytes"]

/-- The operations on floating-point numbers. -/
def onFloats : List String := ["as_integer_ratio", "conjugate", "fromhex", "hex", "is_integer"]

/-- The operations on texts. -/
def onTexts : List String :=
  ["capitalize", "casefold", "center", "count", "encode", "endswith", "expandtabs", "find", "format",
    "format_map", "index", "isalnum", "isalpha", "isascii", "isdecimal", "isdigit", "isidentifier",
    "islower", "isnumeric", "isprintable", "isspace", "istitle", "isupper", "join", "ljust", "lower",
    "lstrip", "maketrans", "partition", "removeprefix", "removesuffix", "replace", "rfind", "rindex",
    "rjust", "rpartition", "rsplit", "rstrip", "split", "splitlines", "startswith", "strip",
    "swapcase", "title", "translate", "upper", "zfill"]

/-- The operations on tuples. -/
def onTuples : List String := ["count", "index"]

/-- The operations on lists. -/
def onLists : List String :=
  ["append", "clear", "copy", "count", "extend", "index", "insert", "pop", "remove", "reverse", "sort"]

/-- The operations on sets that cannot change. -/
def onFrozenSets : List String :=
  ["copy", "difference", "intersection", "isdisjoint", "issubset", "issuperset",
    "symmetric_difference", "union"]

/-- The operations on sets. -/
def onSets : List String :=
  onFrozenSets ++ ["add", "clear", "difference_update", "discard", "intersection_update", "pop",
    "remove", "symmetric_difference_update", "update"]

/-- The operations on the members of a kind that can be gone through. -/
def onCollections : List String := ["__contains__", "__iter__", "__len__"]

/-- The operations that every record with named parts has for itself. -/
def ofRecords : List String :=
  ["__delattr__", "__eq__", "__hash__", "__init__", "__repr__", "__setattr__"]

end Part

namespace Value

/-- The operations on the kind of a value, besides those on every value. -/
def operations : Value → List String
  | .bool _ | .int _ => Part.onIntegers
  | .float _ => Part.onFloats
  | .str _ => Part.onTexts ++ Part.onCollections
  | .tuple _ => Part.onTuples ++ Part.onCollections
  | .list _ => Part.onLists ++ Part.onCollections
  | .set _ => Part.onSets ++ Part.onCollections
  | .frozenset _ => Part.onFrozenSets ++ Part.onCollections
  | .version _ => ["parse"]
  | _ => []

/-- The operations on a range or a version whose text shows the value itself. -/
def ownOperations : Value → List String
  | .range .. => Part.ofRecords
  | .version _ => ["as_tuple", "__ge__", "__gt__", "__le__", "__lt__", "__str__"] ++ Part.ofRecords
  | _ => []

/-- The text of the kind of a value, which puts the kinds in order. -/
def kindText : Value → String
  | .null => "NoneType"
  | .bool _ => "bool"
  | .version _ => "capability version"
  | .range .. => "condition range"
  | .dict _ => "dict"
  | .float _ => "float"
  | .frozenset _ => "frozenset"
  | .int _ => "int"
  | .list _ => "list"
  | .set _ => "set"
  | .str _ => "str"
  | .tuple _ => "tuple"

/-- Are there keys of the kind of the value? -/
def isHashableKind : Value → Bool
  | .list _ | .set _ | .dict _ => false
  | _ => true

/-- What describes the kind of a value, if anything does. -/
def description? : Value → Option String
  | .null => none
  | .version _ => some "A version of a store"
  | .tuple _ => some "Built-in immutable sequence"
  | .list _ => some "Built-in mutable sequence"
  | .float _ => some "Floating-point number"
  | .range .. => some "Inclusive range"
  | v => some v.kindText

/-- The parts of a value that are values, by their names. -/
def parts : Value → List (String × Value)
  | .bool b =>
    let n : Int := if b then 1 else 0
    [("real", .int n), ("imag", .int 0), ("numerator", .int n), ("denominator", .int 1)]
  | .int n => [("real", .int n), ("imag", .int 0), ("numerator", .int n), ("denominator", .int 1)]
  | .float x => [("real", .float x), ("imag", .float (.ofInt 0))]
  | .range low high =>
    [("start", low), ("end", high), ("__dict__", .dict [(.str "start", low), (.str "end", high)]),
      ("__match_args__", .tuple [.str "start", .str "end"]), ("__module__", .str "conditions")]
  | .version v =>
    let numbers : Entries :=
      [(.str "major", .int v.major), (.str "minor", .int v.minor), (.str "patch", .int v.patch)]
    (numbers.map fun (name, n) => (name.text, n)) ++
      [("release", .tuple [.int v.major, .int v.minor]), ("__dict__", .dict numbers),
        ("__match_args__", .tuple (numbers.map (·.1))), ("__module__", .str "capabilities")]
  | _ => []

/-- What a value has under a name. The text of an operation that does not show the value is that of the
kind, after those that do. -/
def part? (name : String) (v : Value) : Option Part :=
  match v.parts.lookup name with
  | some w => some (.value w)
  | none =>
    if name == "__doc__" then (v.description?).map fun s => .value (.str s)
    else if name == "__class__" then some (.operation v.kindText)
    else if v.ownOperations.contains name then some (.operation v.literal)
    else if name == "__hash__" && !v.isHashableKind then none
    else if v.operations.contains name || name == "__hash__" || Part.common.contains name then
      some (.operation ("~" ++ v.kindText))
    else none

end Value

end ViewFinder
