import ViewFinder.Text.Ranges

/-!
# Blank characters

`isBlank` holds of the white space of every script and of the information separators; `trim` takes
it off both ends of a text.
-/

namespace ViewFinder.Text

/-- The blank characters. -/
def blankRanges : List (Nat × Nat) :=
  [(0x9, 0xD), (0x1C, 0x20), (0x85, 0x85), (0xA0, 0xA0), (0x1680, 0x1680), (0x2000, 0x200A),
  (0x2028, 0x2029), (0x202F, 0x202F), (0x205F, 0x205F), (0x3000, 0x3000)]

/-- Is the character blank? -/
def isBlank (c : Char) : Bool := inRanges blankRanges c

/-- Is the character one of the blanks that may surround a number? The information separators may
not. -/
def isOuterBlank (c : Char) : Bool := isBlank c && !(0x1C ≤ c.toNat && c.toNat ≤ 0x1F)

/-- The text of a number without the blanks around it. -/
def trimNumber (s : List Char) : List Char :=
  ((s.dropWhile isOuterBlank).reverse.dropWhile isOuterBlank).reverse

/-- The text without blank characters at its start. -/
def trimLeft (s : List Char) : List Char := s.dropWhile isBlank

/-- The text without blank characters at its end. -/
def trimRight (s : List Char) : List Char := (s.reverse.dropWhile isBlank).reverse

/-- The text without blank characters at either end. -/
def trim (s : List Char) : List Char := trimRight (trimLeft s)

end ViewFinder.Text
