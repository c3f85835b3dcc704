import ViewFinder.Text.CodePoint

/-!
# Encodings of bytes

The bytes of a JSON text can be UTF-8, UTF-16 or UTF-32, the latter two in either order of bytes. As
the text starts with characters of ASCII the zeros among its first bytes tell which
(`Encoding.guess`). `Encoding.decode?` reads the two wide encodings.
-/

namespace ViewFinder.Text

/-- An encoding of characters as bytes. -/
inductive Encoding where
  | utf8
  | utf16 (bigEndian : Bool)
  | utf32 (bigEndian : Bool)
  deriving DecidableEq, Inhabited

namespace Encoding

/-- The encoding that the zeros among the first bytes tell. -/
def guess (bytes : List Nat) : Encoding :=
  match bytes with
  | a :: b :: c :: d :: _ =>
    if a == 0 then (if b == 0 then .utf32 true else .utf16 true)
    else if b == 0 then (if c == 0 && d == 0 then .utf32 false else .utf16 false)
    else .utf8
  | [a, b] => if a == 0 then .utf16 true else if b == 0 then .utf16 false else .utf8
  | _ => .utf8

/-- The number that bytes write, in either order. -/
def number (bigEndian : Bool) (bytes : List Nat) : Nat :=
  (if bigEndian then bytes else bytes.reverse).foldl (fun n b => 256 * n + b) 0

/-- The numbers of two bytes each. -/
def units? (bigEndian : Bool) : List Nat → Option (List Nat)
  | [] => some []
  | a :: b :: rest => (units? bigEndian rest).map (number bigEndian [a, b] :: ·)
  | _ => none

/-- The code points of units of two bytes. Two halves in a row are one character. -/
def joinUnits : List Nat → List Nat
  | [] => []
  | [n] => [n]
  | n :: m :: rest =>
    if isHigh n && isLow m then joinPair n m :: joinUnits rest else n :: joinUnits (m :: rest)

/-- The code points of four bytes each. -/
def widePoints? (bigEndian : Bool) : List Nat → Option (List Nat)
  | [] => some []
  | a :: b :: c :: d :: rest =>
    let n := number bigEndian [a, b, c, d]
    if n > 0x10FFFF then none else (widePoints? bigEndian rest).map (n :: ·)
  | _ => none

/-- The text that bytes of a wide encoding stand for. -/
def decode? (e : Encoding) (bytes : List Nat) : Option (List Char) :=
  match e with
  | .utf8 => none
  | .utf16 bigEndian => (units? bigEndian bytes).map fun units => ofPoints (joinUnits units)
  | .utf32 bigEndian => (widePoints? bigEndian bytes).map ofPoints

end Encoding

end ViewFinder.Text
