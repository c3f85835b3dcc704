import ViewFinder.Value.Access

/-!
# Windows

A window is the part of a list that an offset and a limit cut out. Both may be negative: a position
before the start counts from the end.
-/

namespace ViewFinder.Window

/-- The position in a list of `length` items that an integer stands for. -/
def position (length : Nat) (i : Int) : Nat :=
  if i < 0 then (length + i).toNat else min i.toNat length

/-- The items from one position up to another. -/
def slice {α : Type} (start stop : Int) (items : List α) : List α :=
  let start := position items.length start
  (items.take (position items.length stop)).drop start

/-- The items from a position on, at most `limit` of them if there is a limit. -/
def cut {α : Type} (skip : Int) (limit : Option Int) (items : List α) : List α :=
  match limit with
  | none => items.drop (position items.length skip)
  | some n => slice skip (skip + n) items

/-- The answer that holds the rows of a window. -/
def response (total : Nat) (skip : Int) (rows : List Value) : Value :=
  .dict [(.str "total_rows", .int total), (.str "offset", .int skip), (.str "rows", .list rows)]

end ViewFinder.Window
