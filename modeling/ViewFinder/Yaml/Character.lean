/-!
# Characters of YAML

YAML has five line breaks, of which a carriage return with a line feed is one. What follows an
indicator decides whether it is one: `isGap` holds of the end of the text, blanks and line breaks.
-/

namespace ViewFinder.Yaml

/-- A character that ends a line. -/
def isBreak (c : Char) : Bool :=
  c == '\n' || c == '\r' || c == '\x85' || c == '\u2028' || c == '\u2029'

/-- A blank or a tab. -/
def isBlank (c : Char) : Bool := c == ' ' || c == '\t'

/-- Is there nothing, a blank or a line break at the start of the text? -/
def isGap : List Char → Bool
  | [] => true
  | c :: _ => isBlank c || isBreak c

/-- Is there nothing, a blank but no tab, or a line break at the start of the text? -/
def isUntabbedGap : List Char → Bool
  | [] => true
  | c :: _ => c == ' ' || isBreak c

/-- Is the line over at the start of the text? -/
def isLineEnd : List Char → Bool
  | [] => true
  | c :: _ => isBreak c

/-- The line break at the start of the text as it is read, and the rest. Only the two separators of
Unicode are kept apart from the line feed. -/
def lineBreak? : List Char → Option (Char × List Char)
  | '\r' :: '\n' :: rest => some ('\n', rest)
  | c :: rest =>
    if c == '\u2028' || c == '\u2029' then some (c, rest)
    else if isBreak c then some ('\n', rest)
    else none
  | [] => none

/-- A letter, digit, hyphen or underscore, as names of anchors, directives and handles have them. -/
def isNameChar (c : Char) : Bool := c.isAlphanum || c == '-' || c == '_'

/-- A hexadecimal digit. -/
def isHexDigit (c : Char) : Bool :=
  c.isDigit || ('a' ≤ c && c ≤ 'f') || ('A' ≤ c && c ≤ 'F')

/-- A character that a text may hold. -/
def isAllowed (c : Char) : Bool :=
  let n := c.toNat
  n == 9 || n == 10 || n == 13 || (0x20 ≤ n && n ≤ 0x7E) || n == 0x85 ||
    (0xA0 ≤ n && n ≤ 0xFFFD) || 0x10000 ≤ n

/-- Does the text start with a line of three hyphens or three dots, followed by a gap? -/
def isDocumentMark : List Char → Bool
  | '-' :: '-' :: '-' :: rest => isGap rest
  | '.' :: '.' :: '.' :: rest => isGap rest
  | _ => false

end ViewFinder.Yaml
