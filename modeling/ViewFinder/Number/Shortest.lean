import ViewFinder.Number.Binary64

/-!
# The shortest decimal text of a floating-point number

`shortestDigits` finds the fewest decimal digits that read back as the same number: of the decimal
grids from coarse to fine, the first one with a point inside the interval of reals that round to
the number, and of two such points the nearer. `Binary64.text` lays the digits out: positional
between `10 ^ (-4)` and `10 ^ 16`, with an exponent of at least two digits beyond.
-/

namespace ViewFinder

/-- The reals that round to a positive number, as the fractions `low / den` and `high / den` around
`mid / den`; the ends belong to it when the mantissa is even. -/
structure RoundingInterval where
  low : Nat
  mid : Nat
  high : Nat
  den : Nat
  closed : Bool

namespace RoundingInterval

/-- The interval of `m * 2 ^ e`. Below a power of two the neighbour is half as far. -/
def ofFinite (m : Nat) (e : Int) : RoundingInterval :=
  let below := if m == power 2 52 && e > Binary64.leastExponent then 1 else 2
  let up := power 2 e.toNat
  { low := (4 * m - below) * up
    mid := 4 * m * up
    high := (4 * m + 2) * up
    den := 4 * power 2 (-e).toNat
    closed := m % 2 == 0 }

/-- Does `c * 10 ^ k` round to the number? -/
def contains (i : RoundingInterval) (c : Nat) (k : Int) : Bool :=
  let x := c * power 10 k.toNat * i.den
  let scale := power 10 (-k).toNat
  if i.closed then i.low * scale ≤ x && x ≤ i.high * scale
  else i.low * scale < x && x < i.high * scale

/-- The grid point of `10 ^ k` that rounds to the number and is nearest to it; of two equally near
ones the even one. -/
def hit? (i : RoundingInterval) (k : Int) : Option Nat :=
  let unit := power 10 k.toNat * i.den
  let mid := i.mid * power 10 (-k).toNat
  let below := mid / unit
  let rest := mid % unit
  match i.contains below k, i.contains (below + 1) k with
  | true, true =>
    some (if 2 * rest < unit || (2 * rest == unit && below % 2 == 0) then below else below + 1)
  | true, false => some below
  | false, true => some (below + 1)
  | false, false => none

/-- The first grid with a hit, going down from `10 ^ k`. -/
def firstHit (i : RoundingInterval) : Nat → Int → Nat × Int
  | 0, k => (i.mid / i.den, k)
  | fuel + 1, k =>
    match i.hit? k with
    | some c => (c, k)
    | none => firstHit i fuel (k - 1)

end RoundingInterval

/-- The fewest digits `c` and the exponent `k` such that `c * 10 ^ k` reads back as `m * 2 ^ e`. -/
def shortestDigits (m : Nat) (e : Int) : Nat × Int :=
  let start := ((m.log2 : Int) + e) * 30103 / 100000 + 2
  (RoundingInterval.ofFinite m e).firstHit 24 start

/-- The decimal digits of a natural number. -/
def decimalDigits (n : Nat) : List Char := Nat.toDigits 10 n

/-- The decimal text of an integer. -/
def decimalInt (n : Int) : List Char :=
  if n < 0 then '-' :: decimalDigits n.natAbs else decimalDigits n.natAbs

namespace Binary64

/-- Lays out the digits of `c * 10 ^ k`. -/
def layout (c : Nat) (k : Int) : List Char :=
  let digits := decimalDigits c
  let point : Int := digits.length + k
  if -4 < point && point ≤ 16 then
    if 0 ≤ k then digits ++ List.replicate k.toNat '0' ++ ['.', '0']
    else if 0 < point then digits.take point.toNat ++ '.' :: digits.drop point.toNat
    else '0' :: '.' :: (List.replicate (-point).toNat '0' ++ digits)
  else
    let fraction := if digits.length == 1 then [] else '.' :: digits.drop 1
    let exponent := point - 1
    let size := decimalDigits exponent.natAbs
    let size := if size.length == 1 then '0' :: size else size
    digits.take 1 ++ fraction ++ 'e' :: (if exponent < 0 then '-' else '+') :: size

/-- The shortest decimal text that reads back as the number. -/
def text : Binary64 → List Char
  | .nan _ => ['n', 'a', 'n']
  | .infinity negative => if negative then ['-', 'i', 'n', 'f'] else ['i', 'n', 'f']
  | .finite negative m e =>
    let body := if m == 0 then ['0', '.', '0'] else
      let (c, k) := shortestDigits m e
      layout c k
    if negative then '-' :: body else body

end Binary64

end ViewFinder
