import ViewFinder.Value.Equal
import ViewFinder.Sorting.Runs
import ViewFinder.Text.CodePoint

/-!
# Orders on values

`Value.less?` is the order of values of one kind: numbers, texts, lists and tuples item by item,
sets by strict inclusion, versions. It is partial: values of different kinds are not comparable.

`Collation` is the total order of JSON values in an index: null, then truth values, numbers, texts,
lists item by item, and all else by a text.
-/

namespace ViewFinder

namespace Value

/-- The order of two numbers, by their exact values. -/
def numberLess? (v w : Value) : Option Bool :=
  match v.quantity?, w.quantity? with
  | some q, some r => some (q.less r)
  | _, _ => none

mutual

/-- Is the first value strictly smaller? None if the kinds are not comparable. -/
def less? : Value → Value → Option Bool
  | .str s, .str t => some (Text.before s t)
  | .str s, .version v => versionLess (Version.ofLoose? (.str s)) (some (.ok v))
  | .version v, w => versionLess (some (.ok v)) (Version.ofLoose? w)
  | .list xs, .list ys => lessItems? xs ys
  | .tuple xs, .tuple ys => lessItems? xs ys
  | .set xs, .set ys => some (xs.length < ys.length && allAmong xs ys)
  | .set xs, .frozenset ys => some (xs.length < ys.length && allAmong xs ys)
  | .frozenset xs, .set ys => some (xs.length < ys.length && allAmong xs ys)
  | .frozenset xs, .frozenset ys => some (xs.length < ys.length && allAmong xs ys)
  | .float x, .version v => versionLess (Version.ofLoose? (.float x)) (some (.ok v))
  | v, w => numberLess? v w
where
  /-- The order of two values that read as versions. -/
  versionLess (v w : Option (Except Nat Version)) : Option Bool :=
    match v, w with
    | some (.ok v), some (.ok w) => some (v.compare w == .lt)
    | _, _ => none

/-- The order of two lists: the first two items that differ decide, else the lengths. -/
def lessItems? : List Value → List Value → Option Bool
  | [], ys => some (!ys.isEmpty)
  | _ :: _, [] => some false
  | x :: xs, y :: ys => if x.sameItem y then lessItems? xs ys else less? x y

end

/-- The values in ascending order; none if two are to be compared that are not comparable. -/
def sorted? (vs : List Value) : Option (List Value) := Sorting.byRuns? less? vs

end Value

/-- The place of a value in an index: rank by kind first, then by value. -/
inductive Collation where
  | null
  | truth (b : Bool)
  | number (q : Quantity)
  | text (s : String)
  | list (items : List Collation)
  | other (s : String)
  deriving Inhabited

namespace Collation

mutual

/-- Has the place an order with every other one? A NaN has none. -/
def isOrdered : Collation → Bool
  | .number (.nan _) => false
  | .list items => allOrdered items
  | _ => true

/-- Have all places an order with every other one? -/
def allOrdered : List Collation → Bool
  | [] => true
  | c :: cs => c.isOrdered && allOrdered cs

end

/-- The rank of the kind. -/
def rank : Collation → Nat
  | .null => 0
  | .truth _ => 1
  | .number _ => 2
  | .text _ => 3
  | .list _ => 4
  | .other _ => 5

mutual

/-- The order of two places; none when two things decide of which one is a NaN. -/
def compare? : Collation → Collation → Option Ordering
  | .null, .null => some .eq
  | .truth a, .truth b => some (Ord.compare a b)
  | .number q, .number r => if q.isSameNaN r then some .eq else q.compare? r
  | .text s, .text t => some (Text.order s t)
  | .list xs, .list ys => compareItems? xs ys
  | .other s, .other t => some (Text.order s t)
  | a, b => some (Ord.compare a.rank b.rank)

/-- The order of two lists of places: the first two that differ decide, else the lengths. -/
def compareItems? : List Collation → List Collation → Option Ordering
  | [], [] => some .eq
  | [], _ :: _ => some .lt
  | _ :: _, [] => some .gt
  | x :: xs, y :: ys =>
    match compare? x y with
    | some .eq => compareItems? xs ys
    | decided => decided

end

/-- Strictly before. -/
def less (a b : Collation) : Bool := compare? a b == some .lt

/-- Before or at the same place. -/
def atMost (a b : Collation) : Bool :=
  match compare? a b with
  | some .lt | some .eq => true
  | _ => false

end Collation

end ViewFinder
