/-!
# UTF-8

`utf8` gives the bytes of a character, one to four of them, and `utf8Decode?` reads bytes back. Bytes
that no character has, among them longer forms than needed, do not read.
-/

namespace ViewFinder.Text

/-- The bytes of a character. -/
def utf8 (c : Char) : List Nat :=
  let n := c.toNat
  if n < 0x80 then [n]
  else if n < 0x800 then [0xC0 + n / 0x40, 0x80 + n % 0x40]
  else if n < 0x10000 then [0xE0 + n / 0x1000, 0x80 + n / 0x40 % 0x40, 0x80 + n % 0x40]
  else [0xF0 + n / 0x40000, 0x80 + n / 0x1000 % 0x40, 0x80 + n / 0x40 % 0x40, 0x80 + n % 0x40]

/-- Is the byte one that continues a character? -/
def isContinuation (b : Nat) : Bool := 0x80 ≤ b && b < 0xC0

/-- The character of a code point, at least `least`. -/
def charFrom? (least n : Nat) : Option Char :=
  if h : n.isValidChar then if least ≤ n then some (Char.ofNatAux n h) else none else none

/-- The characters that bytes encode. -/
def utf8Decode? : List Nat → Option (List Char)
  | [] => some []
  | a :: rest =>
    if a < 0x80 then (utf8Decode? rest).map (Char.ofNat a :: ·)
    else
      match rest with
      | [] => none
      | b :: rest =>
        if !isContinuation b then none
        else if 0xC0 ≤ a && a < 0xE0 then do
          let c ← charFrom? 0x80 ((a - 0xC0) * 0x40 + (b - 0x80))
          return c :: (← utf8Decode? rest)
        else
          match rest with
          | [] => none
          | d :: rest =>
            if !isContinuation d then none
            else if 0xE0 ≤ a && a < 0xF0 then do
              let c ← charFrom? 0x800 (((a - 0xE0) * 0x40 + (b - 0x80)) * 0x40 + (d - 0x80))
              return c :: (← utf8Decode? rest)
            else
              match rest with
              | [] => none
              | e :: rest =>
                if !isContinuation e then none
                else if 0xF0 ≤ a && a < 0xF8 then do
                  let c ← charFrom? 0x10000
                    ((((a - 0xF0) * 0x40 + (b - 0x80)) * 0x40 + (d - 0x80)) * 0x40 + (e - 0x80))
                  return c :: (← utf8Decode? rest)
                else none

end ViewFinder.Text
