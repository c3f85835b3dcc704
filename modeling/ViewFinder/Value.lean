import ViewFinder.Version
import ViewFinder.Number.Quantity

/-!
# Values

Documents, keys and options hold loosely typed values: those of JSON, and besides them tuples,
sets, ranges and versions, which callers may put into conditions. Integers and floating-point
numbers are told apart, for they print differently. A dictionary keeps its entries in the order of
insertion.
-/

namespace ViewFinder

/-- A loosely typed value. -/
inductive Value where
  | null
  | bool (b : Bool)
  | int (n : Int)
  | float (x : Binary64)
  | str (s : String)
  | list (items : List Value)
  | tuple (items : List Value)
  | set (members : List Value)
  | frozenset (members : List Value)
  /-- The inclusive range between two bounds. -/
  | range (low high : Value)
  | version (v : Version)
  | dict (entries : List (Value × Value))
  deriving Inhabited

/-- The entries of a dictionary, in the order of insertion. -/
abbrev Entries := List (Value × Value)

namespace Value

/-- The number that a value stands for in comparisons and arithmetic; a truth value counts as 0 or
1. -/
def quantity? : Value → Option Quantity
  | .bool b => some (.ofInt (if b then 1 else 0))
  | .int n => some (.ofInt n)
  | .float x => some (.ofBinary64 x)
  | _ => none

/-- Does a value count as true? Nothing, zero and whatever is empty do not. -/
def truthy : Value → Bool
  | .null => false
  | .bool b => b
  | .int n => n != 0
  | .float x => !x.isZero
  | .str s => !s.isEmpty
  | .list items | .tuple items | .set items | .frozenset items => !items.isEmpty
  | .range .. | .version _ => true
  | .dict entries => !entries.isEmpty

/-- Is the value null? -/
def isNull : Value → Bool
  | .null => true
  | _ => false

/-- Is the value exactly the truth value false? -/
def isFalse : Value → Bool
  | .bool false => true
  | _ => false

/-- The first value unless it counts as false, else the second. -/
def orElse (v w : Value) : Value := if v.truthy then v else w

end Value

end ViewFinder
