import ViewFinder.Sorting

/-!
# Sorting where some elements are not ordered

Where every two elements are ordered all stable sorts agree. Where some are not, because a NaN is
neither before nor after a number, the outcome depends on what is compared with what, and this module
fixes that: a list is cut into runs that go up or down, short runs are made longer by binary insertion,
and neighbouring runs are merged, those first that lie deepest in the halving of the whole.
`Sorting.byRuns?` fails where a comparison does that is made.
-/

namespace ViewFinder.Sorting

variable {α : Type} (before? : α → α → Option Bool)

/-! ## Runs -/

/-- The elements that go on in a direction after the last one, and those that follow. -/
def goOn? (down : Bool) (last : α) : List α → Option (List α × List α)
  | [] => some ([], [])
  | a :: rest => do
    if (← before? a last) == down then
      let (run, rest) ← goOn? down a rest
      return (a :: run, rest)
    else return ([], a :: rest)

/-- The run at the start of a list, turned round if it goes down, and what follows it. -/
def run? : List α → Option (List α × List α)
  | a :: b :: rest => do
    let down ← before? b a
    let (run, rest) ← goOn? before? down b rest
    return (if down then (a :: b :: run).reverse else a :: b :: run, rest)
  | short => some (short, [])

/-- The place of an element in a run between two places, found by halving. -/
def place? (a : α) (run : List α) : Nat → Nat → Nat → Option Nat
  | 0, low, _ => some low
  | fuel + 1, low, high =>
    if low < high then do
      let middle := low + (high - low) / 2
      if ← before? a (← run[middle]?) then place? a run fuel low middle
      else place? a run fuel (middle + 1) high
    else some low

/-- Puts elements into a run, one after the other. -/
def extend? (run : List α) : List α → Option (List α)
  | [] => some run
  | a :: rest => do
    let place ← place? before? a run (run.length + 1) 0 run.length
    extend? (run.take place ++ a :: run.drop place) rest

/-- The least length of a run in a list of a length: a list of fewer than 64 elements is one run. -/
def leastRun : Nat → Bool → Nat → Nat
  | 0, _, n => n
  | fuel + 1, odd, n =>
    if n < 64 then (if odd then n + 1 else n) else leastRun fuel (odd || n % 2 == 1) (n / 2)

/-! ## Merging -/

/-- Three steps in one direction are no more than a start: the number of elements that one run must
give in a row before more than one at a time are looked for. -/
def leastStreak : Nat := 7

/-- How far to leap upwards from a place, while a test holds: the greatest leap at which it held, and
the next one. -/
def leapUp? (test : α → Option Bool) (a : Array α) (hint limit : Nat) :
    Nat → Nat → Nat → Option (Nat × Nat)
  | 0, last, leap => some (last, leap)
  | fuel + 1, last, leap => do
    if leap < limit then
      if ← test (← a[hint + leap]?) then leapUp? test a hint limit fuel leap (2 * leap + 1)
      else return (last, leap)
    else return (last, min leap limit)

/-- How far to leap downwards from a place, while a test does not hold. -/
def leapDown? (test : α → Option Bool) (a : Array α) (hint limit : Nat) :
    Nat → Nat → Nat → Option (Nat × Nat)
  | 0, last, leap => some (last, leap)
  | fuel + 1, last, leap => do
    if leap < limit then
      if ← test (← a[hint - leap]?) then return (last, leap)
      else leapDown? test a hint limit fuel leap (2 * leap + 1)
    else return (last, min leap limit)

/-- The first place between two at which a test does not hold, found by halving. -/
def boundary? (test : α → Option Bool) (a : Array α) : Nat → Nat → Nat → Option Nat
  | 0, _, high => some high
  | fuel + 1, low, high => do
    if low < high then
      let middle := low + (high - low) / 2
      if ← test (← a[middle]?) then boundary? test a fuel (middle + 1) high
      else boundary? test a fuel low middle
    else return high

/-- The number of elements at the start of a run of which a test holds, looked for from a place. -/
def leap? (test : α → Option Bool) (a : Array α) (hint : Nat) : Option Nat := do
  if ← test (← a[hint]?) then
    let (last, leap) ← leapUp? test a hint (a.size - hint) (a.size + 1) 0 1
    boundary? test a (a.size + 1) (hint + last + 1) (hint + leap)
  else
    let (last, leap) ← leapDown? test a hint (hint + 1) (a.size + 1) 0 1
    boundary? test a (a.size + 1) (hint + 1 - leap) (hint - last)

/-- The number of elements of a run that come no later than an element. -/
def notAfter? (key : α) (a : Array α) (hint : Nat) : Option Nat :=
  leap? (fun x => (before? key x).map (!·)) a hint

/-- The number of elements of a run that come before an element. -/
def earlier? (key : α) (a : Array α) (hint : Nat) : Option Nat := leap? (before? · key) a hint

/-- How a merge goes on: one element at a time, with the number that each run has given in a row, or
several at a time. -/
inductive Pace where
  | steps (first second : Nat)
  | leaps

/-- Merges two runs from the start, with what has been merged, and the streak that makes for leaps. -/
def mergeUp? : Nat → Pace → Nat → Array α → Array α → Array α → Option (Array α × Nat)
  | 0, _, streak, done, a, b => some (done ++ a ++ b, streak)
  | fuel + 1, .steps first second, streak, done, a, b => do
    let x ← a[0]?
    let y ← b[0]?
    if ← before? y x then
      let done := done.push y
      let b := b.extract 1 b.size
      if b.isEmpty then return (done ++ a, streak)
      else if second + 1 ≥ streak then mergeUp? fuel .leaps (streak + 1) done a b
      else mergeUp? fuel (.steps 0 (second + 1)) streak done a b
    else
      let done := done.push x
      let a := a.extract 1 a.size
      if a.size == 1 then return (done ++ b ++ a, streak)
      else if first + 1 ≥ streak then mergeUp? fuel .leaps (streak + 1) done a b
      else mergeUp? fuel (.steps (first + 1) 0) streak done a b
  | fuel + 1, .leaps, streak, done, a, b => do
    let streak := if streak > 1 then streak - 1 else streak
    let first ← notAfter? before? (← b[0]?) a 0
    let done := done ++ a.extract 0 first
    let a := a.extract first a.size
    if first > 0 && a.size == 1 then return (done ++ b ++ a, streak)
    if a.isEmpty then return (done ++ b, streak)
    let done := done.push (← b[0]?)
    let b := b.extract 1 b.size
    if b.isEmpty then return (done ++ a, streak)
    let second ← earlier? before? (← a[0]?) b 0
    let done := done ++ b.extract 0 second
    let b := b.extract second b.size
    if b.isEmpty then return (done ++ a, streak)
    let done := done.push (← a[0]?)
    let a := a.extract 1 a.size
    if a.size == 1 then return (done ++ b ++ a, streak)
    if first ≥ leastStreak || second ≥ leastStreak then mergeUp? fuel .leaps streak done a b
    else mergeUp? fuel (.steps 0 0) (streak + 1) done a b

/-- Merges two runs from the end, with what has been merged, and the streak that makes for leaps. -/
def mergeDown? : Nat → Pace → Nat → Array α → Array α → Array α → Option (Array α × Nat)
  | 0, _, streak, done, a, b => some (a ++ b ++ done, streak)
  | fuel + 1, .steps first second, streak, done, a, b => do
    let x ← a.back?
    let y ← b.back?
    if ← before? y x then
      let done := #[x] ++ done
      let a := a.pop
      if a.isEmpty then return (b ++ done, streak)
      else if first + 1 ≥ streak then mergeDown? fuel .leaps (streak + 1) done a b
      else mergeDown? fuel (.steps (first + 1) 0) streak done a b
    else
      let done := #[y] ++ done
      let b := b.pop
      if b.size == 1 then return (b ++ a ++ done, streak)
      else if second + 1 ≥ streak then mergeDown? fuel .leaps (streak + 1) done a b
      else mergeDown? fuel (.steps 0 (second + 1)) streak done a b
  | fuel + 1, .leaps, streak, done, a, b => do
    let streak := if streak > 1 then streak - 1 else streak
    let kept ← notAfter? before? (← b.back?) a (a.size - 1)
    let first := a.size - kept
    let done := a.extract kept a.size ++ done
    let a := a.extract 0 kept
    if a.isEmpty then return (b ++ done, streak)
    let done := #[← b.back?] ++ done
    let b := b.pop
    if b.size == 1 then return (b ++ a ++ done, streak)
    let kept ← earlier? before? (← a.back?) b (b.size - 1)
    let second := b.size - kept
    let done := b.extract kept b.size ++ done
    let b := b.extract 0 kept
    if second > 0 && b.size == 1 then return (b ++ a ++ done, streak)
    if b.isEmpty then return (a ++ done, streak)
    let done := #[← a.back?] ++ done
    let a := a.pop
    if a.isEmpty then return (b ++ done, streak)
    if first ≥ leastStreak || second ≥ leastStreak then mergeDown? fuel .leaps streak done a b
    else mergeDown? fuel (.steps 0 0) (streak + 1) done a b

/-- Merges two neighbouring runs. What stays where it is at either end is left alone, and the shorter
rest is the one that makes room. -/
def merge? (streak : Nat) (a b : Array α) : Option (Array α × Nat) := do
  let fuel := 2 * (a.size + b.size) + 2
  let skip ← notAfter? before? (← b[0]?) a 0
  let start := a.extract 0 skip
  let a := a.extract skip a.size
  if a.isEmpty then return (start ++ b, streak)
  let kept ← earlier? before? (← a.back?) b (b.size - 1)
  let rest := b.extract kept b.size
  let b := b.extract 0 kept
  if b.isEmpty then return (start ++ a ++ rest, streak)
  let (merged, streak) ←
    if a.size ≤ b.size then do
      let y ← b[0]?
      let b := b.extract 1 b.size
      if b.isEmpty then pure (#[y] ++ a, streak)
      else if a.size == 1 then pure (#[y] ++ b ++ a, streak)
      else mergeUp? before? fuel (.steps 0 0) streak #[y] a b
    else do
      let x ← a.back?
      let a := a.pop
      if a.isEmpty then pure (b ++ #[x], streak)
      else if b.size == 1 then pure (b ++ a ++ #[x], streak)
      else mergeDown? before? fuel (.steps 0 0) streak #[x] a b
  return (start ++ merged ++ rest, streak)

/-! ## The order of merges -/

/-- A run that waits to be merged: where it starts, its elements, and how deep in the halving of the
whole list the boundary to the next run lies. -/
structure Waiting (α : Type) where
  start : Nat
  items : Array α
  depth : Nat := 0

/-- How deep in the halving of a list the boundary between two neighbouring runs lies: the first
halving that puts their middles, given doubled, on different sides. -/
def depthOf (size : Nat) : Nat → Nat → Nat → Nat → Nat
  | 0, depth, _, _ => depth
  | fuel + 1, depth, a, b =>
    if a ≥ size then depthOf size fuel (depth + 1) (2 * (a - size)) (2 * (b - size))
    else if b ≥ size then depth + 1
    else depthOf size fuel (depth + 1) (2 * a) (2 * b)

/-- Merges the waiting runs, the last one first, whose boundaries lie deeper than a depth. -/
def mergeDeeper? (depth : Nat) : Nat → Nat → List (Waiting α) → Option (List (Waiting α) × Nat)
  | fuel + 1, streak, b :: a :: rest =>
    if a.depth > depth then do
      let (items, streak) ← merge? before? streak a.items b.items
      mergeDeeper? depth fuel streak ({ a with items, depth := 0 } :: rest)
    else some (b :: a :: rest, streak)
  | _, streak, waiting => some (waiting, streak)

/-- Merges all waiting runs, the last one first, unless the one before is the shorter partner. -/
def mergeAll? : Nat → Nat → List (Waiting α) → Option (Array α)
  | _, _, [] => some #[]
  | _, _, [a] => some a.items
  | 0, _, a :: _ => some a.items
  | fuel + 1, streak, c :: b :: rest => do
    match rest with
    | a :: rest =>
      if a.items.size < c.items.size then
        let (items, streak) ← merge? before? streak a.items b.items
        mergeAll? fuel streak (c :: { a with items } :: rest)
      else
        let (items, streak) ← merge? before? streak b.items c.items
        mergeAll? fuel streak ({ b with items } :: a :: rest)
    | [] =>
      let (items, streak) ← merge? before? streak b.items c.items
      mergeAll? fuel streak [{ b with items }]

/-- Cuts the rest of a list into runs and merges them as they come. -/
def runs? (size least : Nat) : Nat → Nat → List (Waiting α) → Nat → List α → Option (Array α)
  | 0, streak, waiting, _, _ => mergeAll? before? waiting.length streak waiting
  | _, streak, waiting, _, [] => mergeAll? before? waiting.length streak waiting
  | fuel + 1, streak, waiting, start, l => do
    let (run, rest) ← run? before? l
    let missing := least - run.length
    let run ← extend? before? run (rest.take missing)
    let rest := rest.drop missing
    let (waiting, streak) ← match waiting with
      | [] => pure ([], streak)
      | last :: _ =>
        let a := 2 * last.start + last.items.size
        let depth := depthOf size (size + 64) 0 a (a + last.items.size + run.length)
        let (waiting, streak) ← mergeDeeper? before? depth waiting.length streak waiting
        pure (match waiting with
          | last :: before => { last with depth } :: before
          | [] => [], streak)
    runs? size least fuel streak ({ start, items := run.toArray } :: waiting) (start + run.length) rest

/-- The elements in ascending order, as far as they have one; none where a comparison fails. -/
def byRuns? (l : List α) : Option (List α) :=
  (runs? before? l.length (leastRun l.length false l.length) (l.length + 1) leastStreak [] 0 l).map
    Array.toList

/-- The elements in ascending order, as far as they have one. -/
def byRuns (before : α → α → Bool) (l : List α) : List α :=
  (byRuns? (fun a b => some (before a b)) l).getD l

/-- The elements in ascending order, stable, if all of them are `ordered`; else in that order as far as
they have one. -/
def sortOrdered (ordered : α → Bool) (before : α → α → Bool) (l : List α) : List α :=
  if l.all ordered then sort before l else byRuns before l

end ViewFinder.Sorting
