import ViewFinder.Text.Blank
import ViewFinder.Text.Digit

/-!
# Integers on the command line

The value of an option that takes an integer is written in the digits of ASCII. Blanks around it, a sign,
zeros at its beginning, single underscores between digits and a fraction of zeros are allowed:
`+1_000.00` is one thousand. `readInteger?` gives the integer.
-/

namespace ViewFinder.Command

/-- The text before its point, if there is one. Only zeros may follow that. -/
def beforePoint? (s : List Char) : Option (List Char) :=
  match s.span (· != '.') with
  | (whole, []) => some whole
  | (whole, _ :: fraction) => if fraction.all (· == '0') then some whole else none

/-- The text without the zeros at its beginning, and the underscores between them. The last of these
characters is kept if no other follows. -/
def dropZeros (s : List Char) : List Char :=
  if s.head? != some '0' then s
  else
    match s.dropWhile fun c => c == '0' || c == '_' with
    | [] => s.getLast?.toList
    | rest => rest

/-- The digits of a text that has single underscores between some of them. -/
def ungrouped? : List Char → Option (List Char)
  | [] => none
  | [c] => if c.isDigit then some [c] else none
  | c :: '_' :: rest => if c.isDigit then (ungrouped? rest).map (c :: ·) else none
  | c :: rest => if c.isDigit then (ungrouped? rest).map (c :: ·) else none

/-- The natural number that a text writes. -/
def readNatural? (s : List Char) : Option Nat := do
  let digits ← ungrouped? (dropZeros (← beforePoint? s))
  if digits.length ≤ Text.maxDigits then some (Text.decimalValue digits) else none

/-- The integer that a text writes. -/
def readInteger? (s : String) : Option Int :=
  match Text.trimNumber s.toList with
  | '-' :: rest => (readNatural? rest).map fun n => -(n : Int)
  | '+' :: rest => (readNatural? rest).map Int.ofNat
  | rest => (readNatural? rest).map Int.ofNat

end ViewFinder.Command
