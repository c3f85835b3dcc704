import ViewFinder.Value.Access
import ViewFinder.Json.Reader
import ViewFinder.Text.Lower
import ViewFinder.Yaml.Tag

/-!
# Numbers of YAML

Integers are written in bases 2, 8, 10, 16 and 60, floating-point numbers in bases 10 and 60, with
underscores anywhere. A text that does not read is a fault.
-/

namespace ViewFinder.Yaml.Number

/-- The quoted text, as messages name it. -/
def literal (s : List Char) : List Char := Text.quoted s

/-- The value of a digit of any script, or of a letter, in a base. -/
def digit? (base : Nat) (c : Char) : Option Nat :=
  ((Json.hexValue? c).or (Text.digitValue? c)).filter (· < base)

/-- The letter that names a base after a zero. -/
def baseLetter (base : Nat) : Char := if base == 2 then 'b' else if base == 8 then 'o' else 'x'

/-- The text without a zero and the letter of the base at its start. -/
def dropBase (base : Nat) (s : List Char) : List Char :=
  match s with
  | '0' :: c :: rest => if c.toLower == baseLetter base then rest else s
  | s => s

/-- The number that a text writes in a base: there may be blanks around it, a sign and the letter of
the base. -/
def inBase (base : Nat) (s : List Char) : Except Fault Int :=
  let body := Text.trimNumber s
  let digits := dropBase base (Tag.dropSign body)
  match digits, digits.foldlM (fun n c => (digit? base c).map (base * n + ·)) 0 with
  | _ :: _, some n => .ok (if body.head? == some '-' then -(n : Int) else n)
  | _, _ => .error (.unreadable (.notAnInteger (String.ofList ((literal s).take 200)) base))

/-- The number whose groups, the last one first, are written in base sixty. -/
def ofSixtieths : List Int → Int
  | [] => 0
  | n :: rest => n + 60 * ofSixtieths rest

/-- An integer without sign and underscores. -/
def unsignedInt (s : List Char) : Except Fault Int :=
  match s with
  | [] => .error .noSuchPart
  | ['0'] => .ok 0
  | '0' :: 'b' :: rest => inBase 2 rest
  | '0' :: 'x' :: rest => inBase 16 rest
  | '0' :: _ => inBase 8 s
  | s =>
    if s.contains ':' then do
      let groups ← (s.splitOn ':').mapM fun g => Text.readInteger (String.ofList g)
      return ofSixtieths groups.reverse
    else Text.readInteger (String.ofList s)

/-- Is there a minus sign? -/
def isNegative (s : List Char) : Bool := s.head? == some '-'

/-- The text without underscores; there must be something else. -/
def dropUnderscores (s : List Char) : Except Fault (List Char) :=
  match s.filter (· != '_') with
  | [] => .error .noSuchPart
  | s => .ok s

/-- An integer. -/
def int (s : List Char) : Except Fault Int := do
  let s ← dropUnderscores s
  let n ← unsignedInt (Tag.dropSign s)
  return if isNegative s then -n else n

/-- The digit of any script as the one of ASCII. -/
def plainDigit (c : Char) : Char := ((Text.digitValue? c).map fun n => Char.ofNat (48 + n)).getD c

/-- A decimal number without sign: digits, perhaps a point, perhaps an exponent. -/
def decimal? (s : List Char) : Option Binary64 :=
  let (whole, rest) := (s.map plainDigit).span Char.isDigit
  let (fraction, rest) :=
    match rest with
    | '.' :: rest => rest.span Char.isDigit
    | rest => ([], rest)
  let digits := Text.decimalValue (whole ++ fraction)
  if whole.isEmpty && fraction.isEmpty then none
  else
    match rest with
    | [] => some (Binary64.ofDecimal false digits (-(fraction.length : Int)))
    | rest =>
      match Json.exponent? rest with
      | some (e, []) => some (Binary64.ofDecimal false digits (e - fraction.length))
      | _ => none

/-- The number of a sign. -/
def withSign (negative : Bool) (x : Binary64) : Binary64 := if negative then x.neg else x

/-- A number in base ten, or the name of one that is not finite. -/
def baseTen (s : List Char) : Except Fault Binary64 :=
  let body := Text.trimNumber s
  let negative := isNegative body
  let magnitude := Tag.dropSign body
  let named (words : List String) : Bool := (words.map String.toList).contains magnitude
  if named ["inf", "infinity"] then .ok (withSign negative (.infinity false))
  else if named ["nan"] then .ok (.nan 2)
  else
    match decimal? magnitude with
    | some x => .ok (withSign negative x)
    | none => .error (.unreadable (.notAFloat (String.ofList (literal s))))

/-- The sum of groups, the last one first, each sixty times the one before it. The power of sixty is
rounded like any number, and must be in the range. -/
def sumSixtieths (base : Nat) (total : Binary64) : List Binary64 → Except Fault Binary64
  | [] => .ok total
  | x :: rest =>
    match (Binary64.ofInt base).truncate? with
    | some rounded => sumSixtieths (60 * base) (total.add (x.scale rounded.toNat)) rest
    | none => .error .beyondRange

/-- A floating-point number without sign, underscores and capitals. -/
def unsignedFloat (s : List Char) : Except Fault Binary64 :=
  if s == ".inf".toList then .ok (.infinity false)
  else if s == ".nan".toList then .ok (.nan 1)
  else if s.contains ':' then do
    let groups ← (s.splitOn ':').mapM baseTen
    sumSixtieths 1 (.zero false) groups.reverse
  else baseTen s

/-- A floating-point number. -/
def float (s : List Char) : Except Fault Binary64 := do
  let s ← dropUnderscores s
  let x ← unsignedFloat (Tag.dropSign (Text.lower s))
  return withSign (isNegative s) x

end ViewFinder.Yaml.Number
