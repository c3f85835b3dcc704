import ViewFinder.Number.Binary64

/-!
# Exact numeric comparison

Integers and binary floating-point numbers are compared by their exact values, never by rounding
one to the other. `Quantity` is the common form: a dyadic number `m * 2 ^ e`, an infinity or NaN.
-/

namespace ViewFinder

/-- An exact numeric value. -/
inductive Quantity where
  | nan (payload : Nat)
  | infinity (negative : Bool)
  | dyadic (mantissa : Int) (exponent : Int)
  deriving DecidableEq, Inhabited

namespace Quantity

/-- The exact value of an integer. -/
def ofInt (n : Int) : Quantity := .dyadic n 0

/-- The exact value of a floating-point number. -/
def ofBinary64 : Binary64 → Quantity
  | .nan p => .nan p
  | .infinity n => .infinity n
  | .finite n m e => .dyadic (Binary64.signed n m) e

/-- The order of two dyadic numbers, over their common power of two. -/
def compareDyadic (m e m' e' : Int) : Ordering :=
  let k := min e e'
  compare (m * power 2 (e - k).toNat) (m' * power 2 (e' - k).toNat)

/-- The order of two values; none when one of them is NaN. -/
def compare? : Quantity → Quantity → Option Ordering
  | .nan _, _ | _, .nan _ => none
  | .infinity a, .infinity b => some (compare b a)
  | .infinity a, .dyadic .. => some (if a then .lt else .gt)
  | .dyadic .., .infinity b => some (if b then .gt else .lt)
  | .dyadic m e, .dyadic m' e' => some (compareDyadic m e m' e')

/-- The very same NaN? -/
def isSameNaN : Quantity → Quantity → Bool
  | .nan p, .nan q => p == q
  | _, _ => false

/-- Equal values; NaN equals nothing. -/
def equal (a b : Quantity) : Bool := compare? a b == some .eq

/-- Strictly smaller; NaN is not comparable. -/
def less (a b : Quantity) : Bool := compare? a b == some .lt

end Quantity

end ViewFinder
