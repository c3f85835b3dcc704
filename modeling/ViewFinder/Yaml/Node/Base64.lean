import ViewFinder.Value.Print

/-!
# Bytes in base 64

Four characters of base 64 write three bytes; `Base64.decode?` reads them. Characters that are none of
the 64 do not count, and what follows the padding of a group is not read. A group that is not full and
has no padding is none. `Base64.literal` writes bytes so that all of them show.
-/

namespace ViewFinder.Yaml.Base64

/-- The six bits of a character. -/
def bits? (c : Char) : Option Nat :=
  if 'A' ≤ c && c ≤ 'Z' then some (c.toNat - 65)
  else if 'a' ≤ c && c ≤ 'z' then some (c.toNat - 71)
  else if '0' ≤ c && c ≤ '9' then some (c.toNat + 4)
  else if c == '+' then some 62
  else if c == '/' then some 63
  else none

/-- The bytes of the rest of a text: `place` characters of a group have been read, which leave the bits
`left` to be written, and then `padding` signs of padding. -/
def decodeFrom? (place left padding : Nat) : List Char → Option (List Nat)
  | [] => if place == 0 then some [] else none
  | c :: rest =>
    if c == '=' then
      if 2 ≤ place && 4 ≤ place + padding + 1 then some []
      else decodeFrom? place left (if 2 ≤ place then padding + 1 else padding) rest
    else
      match bits? c with
      | none => decodeFrom? place left padding rest
      | some n =>
        if place == 0 then decodeFrom? 1 n 0 rest
        else if place == 1 then (decodeFrom? 2 (n % 16) 0 rest).map ((left * 4 + n / 16) :: ·)
        else if place == 2 then (decodeFrom? 3 (n % 4) 0 rest).map ((left * 16 + n / 4) :: ·)
        else (decodeFrom? 0 0 0 rest).map ((left * 64 + n) :: ·)

/-- The bytes that a text of ASCII characters writes. -/
def decode? (s : List Char) : Option (List Nat) :=
  if s.all fun c => c.toNat < 128 then decodeFrom? 0 0 0 s else none

/-- A byte inside a literal. -/
def literalByte (quote : Char) (b : Nat) : List Char :=
  if b < 128 then Text.literalPoint quote b else '\\' :: 'x' :: Text.hexDigits 2 b

/-- The literal of bytes. -/
def literal (bytes : List Nat) : List Char :=
  let quote := if bytes.contains 39 && !bytes.contains 34 then '"' else '\''
  'b' :: quote :: (bytes.flatMap (literalByte quote) ++ [quote])

end ViewFinder.Yaml.Base64
