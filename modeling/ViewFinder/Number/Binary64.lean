/-!
# Binary floating-point numbers

`Binary64` is the 64-bit binary format as exact data: a finite number is a sign, a mantissa and a
power of two. Every operation is exact arithmetic followed by one rounding (`ofRatio`), to the
nearest representable number and to the even mantissa on a tie.
-/

namespace ViewFinder

/-- The power of a base. -/
abbrev power (base exponent : Nat) : Nat := Nat.pow base exponent

/-- A number of the 64-bit binary format. A finite one has the value `± mantissa * 2 ^ exponent`. One
that is not a number carries a payload by which it can be told from others. -/
inductive Binary64 where
  | nan (payload : Nat)
  | infinity (negative : Bool)
  | finite (negative : Bool) (mantissa : Nat) (exponent : Int)
  deriving DecidableEq, Inhabited

namespace Binary64

/-- The least exponent: the step between the smallest numbers is `2 ^ (-1074)`. -/
def leastExponent : Int := -1074

/-- The greatest exponent of a mantissa of 53 bits. -/
def greatestExponent : Int := 971

/-- A zero of the given sign. -/
def zero (negative : Bool) : Binary64 := .finite negative 0 leastExponent

/-- `n / d` to the nearest integer, a half going to the even neighbour. -/
def roundHalfEven (n d : Nat) : Nat :=
  let q := n / d
  let r := n % d
  if 2 * r > d || (2 * r == d && q % 2 == 1) then q + 1 else q

/-- The exponent at which `num / den` has a mantissa of 53 bits, or the least one. -/
def mantissaExponent (num den : Nat) : Int :=
  let e : Int := (num.log2 : Int) - den.log2 - 52
  let q := if 0 ≤ e then num / (den * power 2 e.toNat) else num * power 2 (-e).toNat / den
  max leastExponent (if q < power 2 52 then e - 1 else e)

/-- The number nearest to `± num / den`: the even mantissa on a tie, infinity beyond the range. -/
def ofRatio (negative : Bool) (num den : Nat) : Binary64 :=
  if num == 0 || den == 0 then zero negative
  else
    let e := mantissaExponent num den
    let m := if 0 ≤ e then roundHalfEven num (den * power 2 e.toNat)
      else roundHalfEven (num * power 2 (-e).toNat) den
    let (m, e) := if m == power 2 53 then (power 2 52, e + 1) else (m, e)
    if e > greatestExponent then .infinity negative else .finite negative m e

/-- The number nearest to `± digits * 10 ^ exponent`. Exponents far outside the range are settled
without computing the power. -/
def ofDecimal (negative : Bool) (digits : Nat) (exponent : Int) : Binary64 :=
  if digits == 0 then zero negative
  else
    let magnitude : Int := (digits.log2 : Int) * 30103 / 100000 + exponent
    if magnitude > 400 then .infinity negative
    else if magnitude < -400 then zero negative
    else if 0 ≤ exponent then ofRatio negative (digits * power 10 exponent.toNat) 1
    else ofRatio negative digits (power 10 (-exponent).toNat)

/-- The number nearest to an integer. -/
def ofInt (n : Int) : Binary64 := ofRatio (n < 0) n.natAbs 1

/-- The integer part, dropping the fraction; none for infinities and NaN. -/
def truncate? : Binary64 → Option Int
  | .finite negative m e =>
    let magnitude : Nat := if 0 ≤ e then m * power 2 e.toNat else m / power 2 (-e).toNat
    some (if negative then -(magnitude : Int) else magnitude)
  | _ => none

/-- Is the number a zero, of either sign? -/
def isZero : Binary64 → Bool
  | .finite _ m _ => m == 0
  | _ => false

/-- The signed mantissa of a finite number. -/
def signed (negative : Bool) (m : Nat) : Int := if negative then -(m : Int) else m

/-- The number of the opposite sign. -/
def neg : Binary64 → Binary64
  | .nan p => .nan p
  | .infinity n => .infinity !n
  | .finite n m e => .finite (!n) m e

/-- Sum, rounded once. Two zeros of one sign keep it, any other sum of zero is positive. -/
def add : Binary64 → Binary64 → Binary64
  | .nan p, _ | _, .nan p => .nan p
  | .infinity a, .infinity b => if a == b then .infinity a else .nan 0
  | .infinity a, _ => .infinity a
  | _, .infinity b => .infinity b
  | .finite na ma ea, .finite nb mb eb =>
    let e := min ea eb
    let total := signed na ma * power 2 (ea - e).toNat + signed nb mb * power 2 (eb - e).toNat
    if total == 0 then zero (na && nb)
    else if 0 ≤ e then ofRatio (total < 0) (total.natAbs * power 2 e.toNat) 1
    else ofRatio (total < 0) total.natAbs (power 2 (-e).toNat)

/-- Difference, rounded once. -/
def sub (a b : Binary64) : Binary64 := add a b.neg

/-- Product with an integer, rounded once. -/
def scale (a : Binary64) (n : Nat) : Binary64 :=
  match a with
  | .nan p => .nan p
  | .infinity s => if n == 0 then .nan 0 else .infinity s
  | .finite s m e =>
    if 0 ≤ e then ofRatio s (m * n * power 2 e.toNat) 1 else ofRatio s (m * n) (power 2 (-e).toNat)

end Binary64

end ViewFinder
