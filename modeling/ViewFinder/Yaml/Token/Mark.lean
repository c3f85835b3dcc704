import ViewFinder.Yaml.Token
import ViewFinder.Text.Utf8
import ViewFinder.Text.Digit
import ViewFinder.Json.Reader

/-!
# Anchors, tags and directives

Reads the marks that may stand before a node, from the text after their indicator, and the
directives before a document. Each function gives what it read and what follows.
-/

namespace ViewFinder.Yaml.Mark

/-- A step of reading: what was read, and the rest. -/
abbrev Step (α : Type) := Except Fault (α × List Char)

/-- A name of at least one character. -/
def name (s : List Char) : Except Fault (String × List Char) :=
  match s.span isNameChar with
  | ([], _) => .error .notYaml
  | (name, rest) => .ok (String.ofList name, rest)

/-- The name of an anchor or alias; a gap or one of some indicators must follow. -/
def anchor (s : List Char) : Except Fault (String × List Char) := do
  let (name, rest) ← name s
  if isGap rest || (rest.head?.map "?:,]\x7d%@`".toList.contains).getD false then
    return (name, rest)
  else throw .notYaml

/-- A character that stands for itself in a tag. -/
def isTagChar (c : Char) : Bool := c.isAlphanum || "-;/?:@&=+$,_.!~*'()[]".toList.contains c

/-- The bytes of the percent escapes at the start of the text. -/
def escapeBytes : List Char → Except Fault (List Nat × List Char)
  | '%' :: a :: b :: rest =>
    match Json.hexValue? a, Json.hexValue? b with
    | some a, some b => (escapeBytes rest).map fun (bytes, rest) => ((16 * a + b) :: bytes, rest)
    | _, _ => .error .notYaml
  | '%' :: _ => .error .notYaml
  | s => .ok ([], s)

/-- The text of a tag, with percent escapes for the bytes of its characters. -/
def tagChars : Nat → List Char → Except Fault (List Char × List Char)
  | 0, s => .ok ([], s)
  | _, [] => .ok ([], [])
  | fuel + 1, c :: rest =>
    if c == '%' then do
      let (bytes, rest) ← escapeBytes (c :: rest)
      let some cs := Text.utf8Decode? bytes | throw .notYaml
      let (more, rest) ← tagChars fuel rest
      return (Text.ofChars cs ++ more, rest)
    else if isTagChar c then (tagChars fuel rest).map fun (more, rest) => (c :: more, rest)
    else .ok ([], c :: rest)

/-- The text of a tag, of at least one character or escape. -/
def tagText (s : List Char) : Except Fault (String × List Char) := do
  let (text, rest) ← tagChars s.length s
  if rest.length == s.length then throw .notYaml else return (String.ofList text, rest)

/-- A handle: an exclamation mark, or a name between two. -/
def handle (s : List Char) : Except Fault (String × List Char) :=
  match s with
  | '!' :: ' ' :: rest => .ok ("!", ' ' :: rest)
  | '!' :: rest =>
    match rest.span isNameChar with
    | (name, '!' :: rest) => .ok (String.ofList ('!' :: (name ++ ['!'])), rest)
    | _ => .error .notYaml
  | _ => .error .notYaml

/-- Does a second exclamation mark stand before the next gap? -/
def hasHandle (s : List Char) : Bool :=
  (s.takeWhile fun c => !(c == ' ' || isBreak c)).contains '!'

/-- A tag after its exclamation mark. -/
def tag (s : List Char) : Except Fault (Token × List Char) := do
  let (token, rest) ←
    match s with
    | '<' :: rest => do
      match ← tagText rest with
      | (text, '>' :: rest) => pure (Token.tag none text, rest)
      | _ => throw .notYaml
    | s => do
      if isGap s then pure (.tag none "!", s)
      else if hasHandle s then
        let (handle, rest) ← handle ('!' :: s)
        let (text, rest) ← tagText rest
        pure (.tag (some handle) text, rest)
      else
        let (text, rest) ← tagText s
        pure (.tag (some "!") text, rest)
  if isUntabbedGap rest then return (token, rest) else throw .notYaml

/-! ## Directives -/

/-- The rest of a line that holds nothing but blanks and a comment. -/
def lineRest (s : List Char) : Except Fault (List Char) :=
  let rest := s.dropWhile (· == ' ')
  let rest := if rest.head? == some '#' then rest.dropWhile (!isBreak ·) else rest
  if isLineEnd rest then .ok (((lineBreak? rest).map (·.2)).getD rest) else .error .notYaml

/-- A number. -/
def number (s : List Char) : Except Fault (Nat × List Char) :=
  match s.span Char.isDigit with
  | ([], _) => .error .notYaml
  | (digits, rest) =>
    if digits.length > Text.maxDigits then .error (.unreadable (.tooManyDigits digits.length))
    else .ok (Text.decimalValue digits, rest)

/-- The version of a version directive. -/
def version (s : List Char) : Except Fault (Directive × List Char) := do
  let (major, rest) ← number (s.dropWhile (· == ' '))
  let '.' :: rest := rest | throw .notYaml
  let (minor, rest) ← number rest
  if isUntabbedGap rest then return (.version major minor, rest) else throw .notYaml

/-- The handle of a directive and what it stands for. -/
def tagHandle (s : List Char) : Except Fault (Directive × List Char) := do
  let (handle, rest) ← handle (s.dropWhile (· == ' '))
  unless rest.head? == some ' ' do throw .notYaml
  let (text, rest) ← tagText (rest.dropWhile (· == ' '))
  if isUntabbedGap rest then return (.tagHandle handle text, rest) else throw .notYaml

/-- A directive after its percent sign, up to the end of the line. -/
def directive (s : List Char) : Except Fault (Directive × List Char) := do
  let (name, rest) ← name s
  unless isUntabbedGap rest do throw .notYaml
  let (d, rest) ←
    if name == "YAML" then version rest
    else if name == "TAG" then tagHandle rest
    else pure (.other, rest.dropWhile (!isBreak ·))
  return (d, ← lineRest rest)

end ViewFinder.Yaml.Mark
