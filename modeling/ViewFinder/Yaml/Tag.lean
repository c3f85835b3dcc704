import ViewFinder.Yaml.Timestamp

/-!
# Tags

The tag of a node is its type. A plain scalar without one gets it from its looks (`Tag.ofPlain`):
words for truth values and null, numbers in several bases, dates, and strings for the rest.
-/

namespace ViewFinder.Yaml

/-- The type of a node. -/
inductive Tag where
  | null
  | bool
  | int
  | float
  | binary
  | timestamp
  | omap
  | pairs
  | set
  | str
  | seq
  | map
  /-- The key whose value is merged into the mapping. -/
  | merge
  /-- The key of a default value. -/
  | value
  /-- Any other type. -/
  | other
  deriving DecidableEq, Inhabited

namespace Tag

/-- What the names of the standard types start with. -/
def standardPrefix : String := "tag:yaml.org,2002:"

/-- The standard types by name. -/
def named : List (String × Tag) :=
  [("null", .null), ("bool", .bool), ("int", .int), ("float", .float), ("binary", .binary),
    ("timestamp", .timestamp), ("omap", .omap), ("pairs", .pairs), ("set", .set), ("str", .str),
    ("seq", .seq), ("map", .map), ("merge", .merge), ("value", .value)]

/-- The type of a full name. -/
def ofName (name : String) : Tag :=
  ((named.find? fun e => standardPrefix ++ e.1 == name).map (·.2)).getD .other

/-! ## The looks of plain scalars -/

/-- The words for truth values. -/
def boolWords : List String :=
  ["yes", "Yes", "YES", "no", "No", "NO", "true", "True", "TRUE", "false", "False", "FALSE", "on",
    "On", "ON", "off", "Off", "OFF"]

/-- The words for null. -/
def nullWords : List String := ["~", "null", "Null", "NULL", ""]

/-- The text without a sign at its start. -/
def dropSign : List Char → List Char
  | c :: rest => if c == '+' || c == '-' then rest else c :: rest
  | [] => []

/-- A digit or an underscore. -/
def isSpacedDigit (c : Char) : Bool := c.isDigit || c == '_'

/-- A nonzero digit. -/
def isLeadingDigit (c : Char) : Bool := c.isDigit && c != '0'

/-- Nothing, or an exponent with a sign. -/
def isExponent : List Char → Bool
  | [] => true
  | e :: sign :: digits =>
    (e == 'e' || e == 'E') && (sign == '+' || sign == '-') && !digits.isEmpty &&
      digits.all Char.isDigit
  | _ => false

/-- A group of a number in base sixty: at most two digits, below sixty. -/
def isSixtieth : List Char → Bool
  | [a] => a.isDigit
  | [a, b] => '0' ≤ a && a ≤ '5' && b.isDigit
  | _ => false

/-- Groups of base sixty, each after a colon. -/
def areSixtieths (s : List Char) : Bool :=
  match s with
  | ':' :: rest => (rest.splitOn ':').all isSixtieth
  | _ => false

/-- A number with a point and perhaps an exponent. -/
def isDecimal (s : List Char) : Bool :=
  match dropSign s with
  | '.' :: _ =>
    match s with
    | '.' :: d :: rest => d.isDigit && isExponent (rest.dropWhile isSpacedDigit)
    | _ => false
  | d :: rest =>
    d.isDigit &&
      match rest.dropWhile isSpacedDigit with
      | '.' :: rest => isExponent (rest.dropWhile isSpacedDigit)
      | _ => false
  | [] => false

/-- A number in base sixty with a point. -/
def isSixtyDecimal (s : List Char) : Bool :=
  match dropSign s with
  | d :: rest =>
    d.isDigit &&
      match (rest.dropWhile isSpacedDigit).span (· != '.') with
      | (groups, '.' :: fraction) => areSixtieths groups && fraction.all isSpacedDigit
      | _ => false
  | [] => false

/-- A number that is not finite. -/
def isNonFinite (s : List Char) : Bool :=
  ([".inf", ".Inf", ".INF"].map String.toList).contains (dropSign s) ||
    ([".nan", ".NaN", ".NAN"].map String.toList).contains s

/-- Does a plain scalar look like a floating-point number? -/
def looksFloat (s : List Char) : Bool := isDecimal s || isSixtyDecimal s || isNonFinite s

/-- Does a plain scalar look like an integer: binary, octal, decimal, hexadecimal or base sixty? -/
def looksInt (s : List Char) : Bool :=
  match dropSign s with
  | ['0'] => true
  | '0' :: 'b' :: d :: rest => (d :: rest).all fun c => c == '0' || c == '1' || c == '_'
  | '0' :: 'x' :: d :: rest => (d :: rest).all fun c => isHexDigit c || c == '_'
  | '0' :: d :: rest => (d :: rest).all fun c => ('0' ≤ c && c ≤ '7') || c == '_'
  | d :: rest =>
    let rest := rest.dropWhile isSpacedDigit
    isLeadingDigit d && (rest.isEmpty || areSixtieths rest)
  | [] => false

/-- Is the text one of the words? -/
def isWord (words : List String) (s : List Char) : Bool := (words.map String.toList).contains s

/-- The text without a line feed at its end, unless that is all of it. -/
def dropFinalBreak (s : List Char) : List Char :=
  if 1 < s.length && s.getLast? == some '\n' then s.dropLast else s

/-- The type of a scalar by its looks. -/
def ofLooks (s : List Char) : Tag :=
  if isWord boolWords s then .bool
  else if looksFloat s then .float
  else if looksInt s then .int
  else if isWord ["<<"] s then .merge
  else if isWord nullWords s then .null
  else if Timestamp.isLook s then .timestamp
  else if isWord ["="] s then .value
  else if isWord ["!", "&", "*"] s then .other
  else .str

/-- The type of a plain scalar: that of its looks, for which a line feed at the end does not count. -/
def ofPlain (s : List Char) : Tag := ofLooks (dropFinalBreak s)

end Tag

end ViewFinder.Yaml
