import ViewFinder.Value.Access
import ViewFinder.Text.Encoding
import ViewFinder.Text.Utf8

/-!
# Reading JSON

`Json.read` reads a text that holds exactly one JSON value with blanks around it. Besides the
grammar of JSON the names `NaN`, `Infinity` and `-Infinity` are accepted; a repeated member of an
object keeps its place and takes the last value; an unpaired half of a surrogate pair is kept. A
number with a fraction or an exponent is a floating-point number, another an integer, which may have
at most `Text.maxDigits` digits.
-/

namespace ViewFinder.Json

/-- A step of the reader: what it read and the rest of the text. -/
abbrev Step (α : Type) := Except Unreadable (α × List Char)

/-- A blank between tokens. -/
def isSpace (c : Char) : Bool := c == ' ' || c == '\t' || c == '\n' || c == '\r'

/-- The text without blanks at its start. -/
def skipSpace (s : List Char) : List Char := s.dropWhile isSpace

/-- The value of a hexadecimal digit. -/
def hexValue? (c : Char) : Option Nat :=
  if '0' ≤ c && c ≤ '9' then some (c.toNat - 48)
  else if 'a' ≤ c && c ≤ 'f' then some (c.toNat - 87)
  else if 'A' ≤ c && c ≤ 'F' then some (c.toNat - 55)
  else none

/-- The UTF-16 unit written by four hexadecimal digits. -/
def unit? (a b c d : Char) : Option Nat := do
  return (((← hexValue? a) * 16 + (← hexValue? b)) * 16 + (← hexValue? c)) * 16 + (← hexValue? d)

/-- The character that a letter stands for after a backslash. -/
def shortEscape? : Char → Option Char
  | '"' => some '"'
  | '\\' => some '\\'
  | '/' => some '/'
  | 'b' => some '\x08'
  | 'f' => some '\x0c'
  | 'n' => some '\n'
  | 'r' => some '\r'
  | 't' => some '\t'
  | _ => none

/-- A part of a string: a character that stands for itself, or a UTF-16 unit given by an escape. -/
inductive Piece where
  | char (c : Char)
  | unit (n : Nat)
  deriving DecidableEq

/-- The text of the pieces of a string. Two escapes that form a surrogate pair are one character; a
first half is held back until the next piece. -/
def joinPieces : Option Nat → List Piece → List Char
  | none, [] => []
  | some high, [] => Text.ofPoint high
  | none, .char c :: rest => c :: joinPieces none rest
  | some high, .char c :: rest => Text.ofPoint high ++ c :: joinPieces none rest
  | none, .unit n :: rest =>
    if Text.isHigh n then joinPieces (some n) rest else Text.ofPoint n ++ joinPieces none rest
  | some high, .unit n :: rest =>
    if Text.isLow n then Text.ofPoint (Text.joinPair high n) ++ joinPieces none rest
    else if Text.isHigh n then Text.ofPoint high ++ joinPieces (some n) rest
    else Text.ofPoint high ++ (Text.ofPoint n ++ joinPieces none rest)

/-- Puts a piece before the pieces of the rest of a string. -/
def consPiece (p : Piece) (rest : Step (List Piece)) : Step (List Piece) :=
  rest.map fun (ps, rest) => (p :: ps, rest)

/-- The pieces of a string, up to its closing quote. -/
def pieces : List Char → Step (List Piece)
  | [] => .error .json
  | '"' :: rest => .ok ([], rest)
  | '\\' :: 'u' :: a :: b :: c :: d :: rest =>
    match unit? a b c d with
    | some n => consPiece (.unit n) (pieces rest)
    | none => .error .json
  | '\\' :: c :: rest =>
    match shortEscape? c with
    | some c => consPiece (.char c) (pieces rest)
    | none => .error .json
  | c :: rest =>
    if c.toNat < 32 || c == '\\' then .error .json else consPiece (.char c) (pieces rest)

/-- The rest of a string, up to its closing quote. -/
def stringRest (s : List Char) : Step (List Char) :=
  (pieces s).map fun (ps, rest) => (joinPieces none ps, rest)

/-- The integer part of a number: a zero, or digits that start with another. -/
def wholeDigits : List Char → List Char × List Char
  | '0' :: rest => (['0'], rest)
  | s => s.span Char.isDigit

/-- The fraction of a number, if there is one. -/
def fractionDigits : List Char → List Char × List Char
  | '.' :: rest =>
    match rest.span Char.isDigit with
    | ([], _) => ([], '.' :: rest)
    | found => found
  | s => ([], s)

/-- The sign of an exponent. -/
def exponentSign : List Char → Bool × List Char
  | '-' :: rest => (true, rest)
  | '+' :: rest => (false, rest)
  | s => (false, s)

/-- The exponent of a number, if there is one. -/
def exponent? : List Char → Option (Int × List Char)
  | c :: rest =>
    if c == 'e' || c == 'E' then
      let (negative, digits) := exponentSign rest
      match digits.span Char.isDigit with
      | ([], _) => none
      | (digits, rest) =>
        let n : Int := Text.decimalValue digits
        some (if negative then -n else n, rest)
    else none
  | [] => none

/-- A number after its sign. -/
def unsignedNumber (negative : Bool) (s : List Char) : Step Value :=
  match wholeDigits s with
  | ([], _) => .error .json
  | (whole, rest) =>
    let (fraction, rest) := fractionDigits rest
    match exponent? rest with
    | some (e, rest) =>
      .ok (.float (Binary64.ofDecimal negative (Text.decimalValue (whole ++ fraction))
        (e - fraction.length)), rest)
    | none =>
      if fraction.isEmpty then
        if whole.length > Text.maxDigits then .error (.tooManyDigits whole.length)
        else
          let n : Int := Text.decimalValue whole
          .ok (.int (if negative then -n else n), rest)
      else
        .ok (.float (Binary64.ofDecimal negative (Text.decimalValue (whole ++ fraction))
          (-(fraction.length : Int))), rest)

/-- A value that is no array, object or string. -/
def scalar : List Char → Step Value
  | 'n' :: 'u' :: 'l' :: 'l' :: rest => .ok (.null, rest)
  | 't' :: 'r' :: 'u' :: 'e' :: rest => .ok (.bool true, rest)
  | 'f' :: 'a' :: 'l' :: 's' :: 'e' :: rest => .ok (.bool false, rest)
  | 'N' :: 'a' :: 'N' :: rest => .ok (.float (.nan 0), rest)
  | 'I' :: 'n' :: 'f' :: 'i' :: 'n' :: 'i' :: 't' :: 'y' :: rest =>
    .ok (.float (.infinity false), rest)
  | '-' :: 'I' :: 'n' :: 'f' :: 'i' :: 'n' :: 'i' :: 't' :: 'y' :: rest =>
    .ok (.float (.infinity true), rest)
  | '-' :: rest => unsignedNumber true rest
  | s => unsignedNumber false s

/-- How deep arrays and objects may be nested. -/
def deepest : Nat := 980

/-- Reads on inside an array or an object, unless that is nested too deeply. -/
def inside {α : Type} (depth : Nat) (read : Nat → Step α) : Step α :=
  match depth with
  | 0 => .error .tooDeep
  | depth + 1 => read depth

mutual

/-- A value at the start of the text, in which `depth` arrays and objects may be nested. -/
def value : Nat → Nat → List Char → Step Value
  | 0, _, _ => .error .json
  | fuel + 1, depth, s =>
    match s with
    | '"' :: rest => (stringRest rest).map fun (cs, rest) => (.str (String.ofList cs), rest)
    | '[' :: rest =>
      inside depth fun depth =>
        match skipSpace rest with
        | ']' :: rest => .ok (.list [], rest)
        | rest => (array fuel depth rest).map fun (vs, rest) => (.list vs, rest)
    | '\x7b' :: rest =>
      inside depth fun depth =>
        match skipSpace rest with
        | '\x7d' :: rest => .ok (.dict [], rest)
        | rest => (object fuel depth rest).map fun (es, rest) => (.dict (Entries.ofPairs es), rest)
    | s => scalar s

/-- The items of an array, up to its closing bracket. -/
def array : Nat → Nat → List Char → Except Unreadable (List Value × List Char)
  | 0, _, _ => .error .json
  | fuel + 1, depth, s => do
    let (v, rest) ← value fuel depth s
    match skipSpace rest with
    | ']' :: rest => return ([v], rest)
    | ',' :: rest =>
      let (vs, rest) ← array fuel depth (skipSpace rest)
      return (v :: vs, rest)
    | _ => throw .json

/-- The members of an object, up to its closing brace. -/
def object : Nat → Nat → List Char → Except Unreadable (List (Value × Value) × List Char)
  | 0, _, _ => .error .json
  | fuel + 1, depth, s =>
    match s with
    | '"' :: rest => do
      let (key, rest) ← stringRest rest
      match skipSpace rest with
      | ':' :: rest =>
        let (v, rest) ← value fuel depth (skipSpace rest)
        match skipSpace rest with
        | '\x7d' :: rest => return ([(.str (String.ofList key), v)], rest)
        | ',' :: rest =>
          let (es, rest) ← object fuel depth (skipSpace rest)
          return ((.str (String.ofList key), v) :: es, rest)
        | _ => throw .json
      | _ => throw .json
    | _ => throw .json

end

/-- The JSON value that a text holds. -/
def readChars (s : List Char) : Except Unreadable Value := do
  let (v, rest) ← value (2 * s.length + 2) deepest (skipSpace s)
  match skipSpace rest with
  | [] => return v
  | _ => throw .json

/-- The JSON value that a text holds. -/
def read (s : String) : Except Unreadable Value := readChars s.toList

/-- The JSON value that the bytes of a text hold. They may be UTF-16 or UTF-32; in UTF-8 a byte order
mark at the start is skipped. -/
def readMarked (s : String) : Except Unreadable Value :=
  let bytes := ((Text.chars? s.toList).getD []).flatMap Text.utf8
  match Text.Encoding.guess bytes, s.toList with
  | .utf8, '\ufeff' :: rest => readChars rest
  | .utf8, cs => readChars cs
  | wide, _ =>
    match wide.decode? bytes with
    | some cs => readChars cs
    | none => .error .json

end ViewFinder.Json
