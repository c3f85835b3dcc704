import ViewFinder.Value.Access

/-!
# Counting

`Count.reduced` adds up the output of a reduce step, `Count.rows` counts rows, and `Count.capped`
gives the number of matches as seen through a window: with `N` matches, an offset and a limit it is
`min limit (max (N - offset) 0)`.
-/

namespace ViewFinder.Count

/-- The rows of a response, none if it has no list of them. -/
def rowsOf (response : Value) : Except Fault Value := do
  return (← response.member "rows").orElse (.list [])

/-- The number in one row of a reduce response. -/
def ofRow (row : Value) : Except Fault Int := do ((← row.member "value").orElse (.int 0)).toInteger

/-- Adds up the numbers of rows. -/
def sumRows : List Value → Except Fault Int
  | [] => .ok 0
  | row :: rows => do
    let n ← ofRow row
    return n + (← sumRows rows)

/-- The count in a reduce response. A store skips the reduce step when nothing matched, and a grouped
response has a row for each key. -/
def reduced (response : Value) : Except Fault Int := do sumRows (← (← rowsOf response).items)

/-- The number of rows of a response. -/
def rows (response : Value) : Except Fault Int := do return (← (← rowsOf response).size : Nat)

/-- A number less an integer. -/
def minus (v : Value) (n : Int) : Except Fault Value :=
  match v with
  | .bool b => .ok (.int ((if b then 1 else 0) - n))
  | .int m => .ok (.int (m - n))
  | .float x =>
    match Binary64.ofInt n with
    | .infinity _ => .error .beyondRange
    | y => .ok (.float (x.sub y))
  | _ => .error .wrongKind

/-- The number, or the integer if that is larger. -/
def atLeast (v : Value) (n : Int) : Value :=
  match v.quantity? with
  | some q => if q.less (.ofInt n) then .int n else v
  | none => v

/-- The number, or the integer if that is smaller. -/
def atMost (v : Value) (n : Int) : Value :=
  match v.quantity? with
  | some q => if (Quantity.ofInt n).less q then .int n else v
  | none => v

/-- A count seen through a window: the offset is taken off, but not below zero, then the limit caps
what is left. -/
def capped (count limit offset : Value) : Except Fault Value :=
  if limit.isNull && offset.isNull then .ok count
  else do
    let rest ← minus count (← (offset.orElse (.int 0)).toInteger)
    let rest := atLeast rest 0
    if limit.isNull then return rest else return atMost rest (← limit.toInteger)

end ViewFinder.Count
