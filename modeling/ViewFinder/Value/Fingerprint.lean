import ViewFinder.Value.Equal

/-!
# Fingerprints

Equal keys have equal fingerprints (`Value.fingerprint`), words of 64 bits. That of a number is its
residue modulo a prime, whatever its kind; those of tuples and sets are mixed from the fingerprints of
their items, and a range or a version has that of the tuple of its parts. Nothing depends on the
fingerprints of texts but that different texts have different ones.

`Value.setOf` gives the members of a set in the order in which a set goes through them: that of a
table with a place for each fingerprint.
-/

namespace ViewFinder

namespace Fingerprint

/-- The prime modulus of numbers, `2 ^ 61 - 1`. -/
def modulus : Nat := 2305843009213693951

/-- The fingerprint of a residue with a sign; that of -1 is taken by -2. -/
def signed (negative : Bool) (residue : Nat) : UInt64 :=
  if negative then (if residue == 1 then 0 - 2 else 0 - UInt64.ofNat residue)
  else UInt64.ofNat residue

/-- The fingerprint of an integer. -/
def ofInt (n : Int) : UInt64 := signed (n < 0) (n.natAbs % modulus)

/-- The fingerprint of a floating-point number. A power of two counts modulo the prime, of which
`2 ^ 61` is 1. -/
def ofBinary64 : Binary64 → UInt64
  | .nan payload => UInt64.ofNat (0x9E3779B97F4A7C15 * (payload + 1))
  | .infinity negative => if negative then 0 - 314159 else 314159
  | .finite negative m e => signed negative (m * power 2 (e % 61).toNat % modulus)

/-- The fingerprint of a text. -/
def ofText (s : String) : UInt64 :=
  if s.isEmpty then 0
  else s.toList.foldl (fun h c => (h ^^^ UInt64.ofNat c.toNat) * 0x100000001B3)
    (0xCBF29CE484222325 : UInt64)

/-- The word turned left by 31 bits. -/
def turn (h : UInt64) : UInt64 := (h <<< 31) ||| (h >>> 33)

/-- The fingerprint of a tuple whose items have the given ones. -/
def ofTuple (items : List UInt64) : UInt64 :=
  let mixed := items.foldl
    (fun acc h => turn (acc + h * 14029467366897019727) * 11400714785074694791) 2870177450012600261
  let h := mixed + (UInt64.ofNat items.length ^^^ ((2870177450012600261 : UInt64) ^^^ (3527539 : UInt64)))
  if h == 0 - 1 then 1546275796 else h

/-- Spreads the bits of a fingerprint. -/
def spread (h : UInt64) : UInt64 := ((h ^^^ (89869747 : UInt64)) ^^^ (h <<< 16)) * 3644798167

/-- The fingerprint of a set whose members have the given ones, in any order. -/
def ofMembers (members : List UInt64) : UInt64 :=
  let h := members.foldl (fun acc h => acc ^^^ spread h) (0 : UInt64)
  let h := h ^^^ (UInt64.ofNat (members.length + 1) * 1927868237)
  let h := h ^^^ ((h >>> 11) ^^^ (h >>> 25))
  let h := h * 69069 + 907133923
  if h == 0 - 1 then 590923713 else h

end Fingerprint

namespace Value

mutual

/-- The number that equal keys share. -/
def fingerprint : Value → UInt64
  | .null => 0xFCA86420
  | .bool b => if b then 1 else 0
  | .int n => Fingerprint.ofInt n
  | .float x => Fingerprint.ofBinary64 x
  | .str s => Fingerprint.ofText s
  | .tuple items => Fingerprint.ofTuple (fingerprints items)
  | .set members => Fingerprint.ofMembers (fingerprints members)
  | .frozenset members => Fingerprint.ofMembers (fingerprints members)
  | .range low high => Fingerprint.ofTuple [low.fingerprint, high.fingerprint]
  | .version v =>
    Fingerprint.ofTuple [Fingerprint.ofInt v.major, Fingerprint.ofInt v.minor, Fingerprint.ofInt v.patch]
  | .list items => Fingerprint.ofTuple (fingerprints items)
  | .dict entries => Fingerprint.ofTuple [UInt64.ofNat entries.length]

/-- The fingerprints of a list of values. -/
def fingerprints : List Value → List UInt64
  | [] => []
  | v :: vs => v.fingerprint :: fingerprints vs

end

mutual

/-- Is the fingerprint one that only the value decides? Those of null, texts and NaN are arbitrary. -/
def isSettled : Value → Bool
  | .bool _ | .int _ | .version _ => true
  | .float (.nan _) => false
  | .float _ => true
  | .str s => s.isEmpty
  | .tuple items | .frozenset items => allSettled items
  | .range low high => low.isSettled && high.isSettled
  | _ => false

/-- Are all fingerprints decided by the values? -/
def allSettled : List Value → Bool
  | [] => true
  | v :: vs => v.isSettled && allSettled vs

end

end Value

/-! ## The order of sets -/

/-- The places of a set, a power of two of them, each empty or taken by a member. -/
structure SetTable where
  places : List (Option Value)
  taken : Nat := 0

namespace SetTable

/-- An empty table. -/
def empty (size : Nat) : SetTable := { places := List.replicate size none }

/-- How many places after the first one are tried before going elsewhere. -/
def nearby : Nat := 9

/-- The first empty place from one on, among as many as given. -/
def emptyFrom? (places : List (Option Value)) (place count : Nat) : Option Nat :=
  (((places.drop place).take count).findIdx? Option.isNone).map (place + ·)

/-- The place for a new member with a fingerprint: the first empty one near its place, else near the
next place of a sequence that all bits of the fingerprint decide. -/
def placeFor (places : List (Option Value)) : Nat → Nat → UInt64 → Nat
  | 0, place, _ => place
  | fuel + 1, place, bits =>
    let mask := places.length - 1
    let count := if place + nearby ≤ mask then nearby + 1 else 1
    match emptyFrom? places place count with
    | some place => place
    | none =>
      let bits := bits >>> 5
      placeFor places fuel ((place * 5 + 1 + bits.toNat) % places.length) bits

/-- Puts a new member into the table. -/
def put (t : SetTable) (v : Value) : SetTable :=
  let h := v.fingerprint
  let place := placeFor t.places (t.places.length + 16) (h.toNat % t.places.length) h
  { places := t.places.set place (some v), taken := t.taken + 1 }

/-- The members in the order of their places. -/
def members (t : SetTable) : List Value := t.places.filterMap fun p => p

/-- The least power of two, from `size` on, that is greater than a number. -/
def sizeAbove (count : Nat) : Nat → Nat → Nat
  | 0, size => size
  | fuel + 1, size => if count < size then size else sizeAbove count fuel (2 * size)

/-- Adds a new member. A table that is three fifths full gives way to one four times as large as its
members need. -/
def add (t : SetTable) (v : Value) : SetTable :=
  let t := t.put v
  if t.taken * 5 < (t.places.length - 1) * 3 then t
  else
    let wanted := if t.taken > 50000 then 2 * t.taken else 4 * t.taken
    t.members.foldl put (empty (sizeAbove wanted wanted.log2 8))

end SetTable

namespace Value

/-- The members of the set of some values, in its order. Where fingerprints are arbitrary so is the
order, and that of the values is kept. -/
def setOf (vs : List Value) : List Value :=
  let distinct := Value.distinct Value.sameKey vs
  if allSettled distinct then (distinct.foldl SetTable.add (SetTable.empty 8)).members else distinct

end Value

end ViewFinder
