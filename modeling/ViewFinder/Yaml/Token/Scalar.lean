import ViewFinder.Yaml.Character
import ViewFinder.Json.Reader

/-!
# Scalars of YAML

Reads the scalars of the five styles from the text after their indicator: between apostrophes or
double quotes, plain, literal and folded. Each function gives the text of the scalar, or its
characters where none can be escaped, and what follows it. Line breaks inside quoted and plain scalars fold: a single one is a blank, of several
the first is dropped.
-/

namespace ViewFinder.Yaml.Scalar

/-- What a line break and those after it stand for. -/
def folded (first : Char) (more : List Char) : List Char :=
  if first != '\n' then first :: more else if more.isEmpty then [' '] else more

/-! ## Quoted scalars -/

/-- The line breaks at the start of a text, with the blanks around them taken off. A line that
separates documents must not follow. -/
def quotedBreaks : Nat → List Char → Except Fault (List Char × List Char)
  | 0, _ => .error .notYaml
  | fuel + 1, s =>
    if isDocumentMark s then .error .notYaml
    else
      let rest := s.dropWhile isBlank
      match lineBreak? rest with
      | some (b, rest) => (quotedBreaks fuel rest).map fun (bs, rest) => (b :: bs, rest)
      | none => .ok ([], rest)

/-- The character that a letter stands for after a backslash. -/
def escapeChar? (c : Char) : Option Char :=
  match c with
  | '0' => some '\x00'
  | 'a' => some '\x07'
  | 'b' => some '\x08'
  | 't' | '\t' => some '\t'
  | 'n' => some '\n'
  | 'v' => some '\x0b'
  | 'f' => some '\x0c'
  | 'r' => some '\r'
  | 'e' => some '\x1b'
  | ' ' => some ' '
  | '"' => some '"'
  | '\\' => some '\\'
  | '/' => some '/'
  | 'N' => some '\x85'
  | '_' => some '\u00a0'
  | 'L' => some '\u2028'
  | 'P' => some '\u2029'
  | _ => none

/-- The number of hexadecimal digits that a letter announces after a backslash. -/
def escapeDigits? (c : Char) : Option Nat :=
  match c with
  | 'x' => some 2
  | 'u' => some 4
  | 'U' => some 8
  | _ => none

/-- The number that hexadecimal digits write. -/
def hexNumber? (digits : List Char) : Option Nat :=
  digits.foldlM (fun n c => (Json.hexValue? c).map (16 * n + ·)) 0

/-- The text of a code given by an escape. -/
def ofCode (n : Nat) : Except Fault (List Char) :=
  if n ≥ 0x80000000 then .error .beyondRange
  else if n > 0x10FFFF then .error (.unreadable .notACharacter)
  else .ok (Text.ofPoint n)

/-- The text that stands for an escape after its backslash, and the rest. -/
def escaped (fuel : Nat) (s : List Char) : Except Fault (List Char × List Char) :=
  match s with
  | [] => .error .notYaml
  | c :: rest =>
    match escapeChar? c, escapeDigits? c with
    | some c, _ => .ok ([c], rest)
    | none, some n =>
      if rest.length < n then .error .notYaml
      else
        match hexNumber? (rest.take n) with
        | some code => (ofCode code).map fun cs => (cs, rest.drop n)
        | none => .error .notYaml
    | none, none =>
      match lineBreak? s with
      | some (_, rest) => quotedBreaks fuel rest
      | none => .error .notYaml

/-- Puts characters before what was read. -/
def prepend (cs : List Char) (r : Except Fault (List Char × List Char)) :
    Except Fault (List Char × List Char) :=
  r.map fun (text, rest) => (cs ++ text, rest)

/-- A quoted scalar after its opening quote. -/
def quoted (double : Bool) : Nat → List Char → Except Fault (List Char × List Char)
  | 0, _ | _, [] => .error .notYaml
  | fuel + 1, c :: rest =>
    if double && c == '"' then .ok ([], rest)
    else if !double && c == '\'' then
      match rest with
      | '\'' :: rest => prepend ['\''] (quoted double fuel rest)
      | rest => .ok ([], rest)
    else if double && c == '\\' then do
      let (cs, rest) ← escaped rest.length rest
      prepend cs (quoted double fuel rest)
    else if isBlank c || isBreak c then
      let (blanks, after) := (c :: rest).span isBlank
      match lineBreak? after with
      | some (b, after) => do
        let (more, after) ← quotedBreaks (after.length + 1) after
        prepend (folded b more) (quoted double fuel after)
      | none => prepend blanks (quoted double fuel after)
    else prepend (Text.ofPoint c.toNat) (quoted double fuel rest)

/-! ## Plain scalars -/

/-- Does an indicator of flow collections stand at the start of the text? -/
def startsFlow (s : List Char) : Bool := (s.head?.map ",[]\x7b\x7d".toList.contains).getD false

/-- The characters of a plain scalar up to a blank, a line break or an indicator. -/
def plainWord (flow : Bool) : List Char → List Char × List Char
  | [] => ([], [])
  | c :: rest =>
    if isBlank c || isBreak c || (c == ':' && (isGap rest || (flow && startsFlow rest))) ||
        (flow && ",?[]\x7b\x7d".toList.contains c) then ([], c :: rest)
    else
      let (word, rest) := plainWord flow rest
      (c :: word, rest)

/-- What stands between two words of a plain scalar. -/
structure Space where
  /-- What it stands for; none if the scalar ends here. -/
  text : Option (List Char)
  /-- Does it have line breaks? -/
  broken : Bool
  /-- The number of blanks after the last line break. -/
  column : Nat
  rest : List Char

/-- The line breaks and blanks at the start of the text, up to a line that separates documents:
whether there is one, the line breaks, and the number of blanks after the last of them. -/
def plainBreaks (column : Nat) : Nat → List Char → Bool × List Char × Nat × List Char
  | 0, s => (true, [], column, s)
  | fuel + 1, s =>
    match s with
    | ' ' :: rest => plainBreaks (column + 1) fuel rest
    | s =>
      match lineBreak? s with
      | none => (false, [], column, s)
      | some (b, rest) =>
        if isDocumentMark rest then (true, [], 0, rest)
        else
          let (ended, bs, column, rest) := plainBreaks 0 fuel rest
          (ended, b :: bs, column, rest)

/-- What follows a word of a plain scalar. Tabs do not belong to it. -/
def plainSpace (s : List Char) : Space :=
  let (blanks, rest) := s.span (· == ' ')
  match lineBreak? rest with
  | none => ⟨if blanks.isEmpty then none else some blanks, false, 0, rest⟩
  | some (b, rest) =>
    if isDocumentMark rest then ⟨none, true, 0, rest⟩
    else
      let (ended, bs, column, rest) := plainBreaks 0 (rest.length + 1) rest
      ⟨if ended then none else some (folded b bs), true, column, rest⟩

/-- A plain scalar: its text, whether line breaks follow it, and the rest. Outside flow collections
its further lines must be indented at least so far. -/
def plain (flow : Bool) (indent : Nat) : Nat → List Char → List Char × Bool × List Char
  | 0, s => ([], false, s)
  | fuel + 1, s =>
    let (word, rest) := plainWord flow s
    let space := plainSpace rest
    match space.text with
    | none => (word, space.broken, space.rest)
    | some between =>
      if space.rest.head? == some '#' || (!flow && space.broken && space.column < indent) ||
          (plainWord flow space.rest).1.isEmpty then
        (word, space.broken, space.rest)
      else
        let (more, broken, rest) := plain flow indent fuel space.rest
        (word ++ between ++ more, broken, rest)

/-! ## Literal and folded scalars -/

/-- What the header of a block scalar says: whether the line breaks at the end are kept, and how far
the lines are indented. -/
structure Header where
  keep : Option Bool := none
  indent : Option Nat := none

/-- The mark for the line breaks at the end. -/
def keepMark? (c : Char) : Option Bool :=
  if c == '+' then some true else if c == '-' then some false else none

/-- The mark for the indentation. -/
def indentMark? (c : Char) : Option Nat := if c.isDigit then some (c.toNat - 48) else none

/-- The marks of the header, in either order. -/
def marks (s : List Char) : Header × List Char :=
  match s with
  | [] => ({}, [])
  | c :: rest =>
    match keepMark? c, indentMark? c, rest with
    | some keep, _, d :: after =>
      match indentMark? d with
      | some n => (⟨some keep, some n⟩, after)
      | none => (⟨some keep, none⟩, rest)
    | some keep, _, [] => (⟨some keep, none⟩, rest)
    | none, some n, d :: after =>
      match keepMark? d with
      | some keep => (⟨some keep, some n⟩, after)
      | none => (⟨none, some n⟩, rest)
    | none, some n, [] => (⟨none, some n⟩, rest)
    | none, none, _ => ({}, s)

/-- The rest of a line that holds nothing but blanks and a comment. -/
def emptyLine (s : List Char) : Except Fault (List Char) :=
  let rest := s.dropWhile (· == ' ')
  let rest := if rest.head? == some '#' then rest.dropWhile (!isBreak ·) else rest
  match rest, lineBreak? rest with
  | [], _ => .ok []
  | _, some (_, rest) => .ok rest
  | _, none => .error .notYaml

/-- The header of a block scalar. -/
def header (s : List Char) : Except Fault (Header × List Char) :=
  let (h, rest) := marks s
  if h.indent == some 0 || !isUntabbedGap rest then .error .notYaml
  else (emptyLine rest).map fun rest => (h, rest)

/-- The empty lines at the start of the text, the greatest number of blanks on one of them, and the
number of blanks after them. -/
def leadingLines (column greatest : Nat) : List Char → List Char × Nat × Nat × List Char
  | ' ' :: rest => leadingLines (column + 1) (max greatest (column + 1)) rest
  | '\r' :: '\n' :: rest =>
    let (bs, r) := leadingLines 0 greatest rest
    ('\n' :: bs, r)
  | c :: rest =>
    if isBreak c then
      let (bs, r) := leadingLines 0 greatest rest
      ((if c == '\u2028' || c == '\u2029' then c else '\n') :: bs, r)
    else ([], greatest, column, c :: rest)
  | [] => ([], greatest, column, [])

/-- Takes blanks off the start of the text, up to a number of them: how many, and the rest. -/
def takeIndent : Nat → List Char → Nat × List Char
  | n + 1, ' ' :: rest =>
    let (taken, rest) := takeIndent n rest
    (taken + 1, rest)
  | _, s => (0, s)

/-- The empty lines at the start of the text, taking off the indentation from each line: the line
breaks, the number of blanks taken off the last line, and the rest. -/
def emptyLines (indent : Nat) : Nat → List Char → List Char × Nat × List Char
  | 0, s => ([], 0, s)
  | fuel + 1, s =>
    let (column, rest) := takeIndent indent s
    match lineBreak? rest with
    | some (b, rest) =>
      let (bs, column, rest) := emptyLines indent fuel rest
      (b :: bs, column, rest)
    | none => ([], column, rest)

/-- Is there a character that is no blank at the start of the text? -/
def startsDark (s : List Char) : Bool := (s.head?.map (!isBlank ·)).getD false

/-- The lines of a block scalar. The line break at the end is kept unless the header says otherwise,
the empty lines after it only if the header says so. -/
def blockLines (fold : Bool) (keep : Option Bool) (indent : Nat) :
    Nat → List Char → List Char × List Char
  | 0, s => ([], s)
  | fuel + 1, s =>
    let (line, rest) := s.span (!isBreak ·)
    let (b, rest) := match lineBreak? rest with
      | some (b, rest) => ([b], rest)
      | none => ([], rest)
    let (empty, column, rest) := emptyLines indent (rest.length + 1) rest
    if column == indent && !rest.isEmpty then
      let between :=
        if fold && b == ['\n'] && startsDark s && startsDark rest then
          if empty.isEmpty then [' '] else []
        else b
      let (more, rest) := blockLines fold keep indent fuel rest
      (line ++ between ++ empty ++ more, rest)
    else
      (line ++ (if keep == some false then [] else b) ++ (if keep == some true then empty else []),
        rest)

/-- A literal or folded scalar after its indicator, inside a collection of the indentation. -/
def block (fold : Bool) (outer : Int) (s : List Char) : Except Fault (List Char × List Char) := do
  let (h, rest) ← header s
  let least := (max (outer + 1) 1).toNat
  let (first, column, indent, rest) :=
    match h.indent with
    | some n =>
      let indent := least + n - 1
      let (bs, column, rest) := emptyLines indent (rest.length + 1) rest
      (bs, column, indent, rest)
    | none =>
      let (bs, greatest, column, rest) := leadingLines 0 0 rest
      (bs, column, max least greatest, rest)
  if column == indent && !rest.isEmpty then
    let (text, rest) := blockLines fold h.keep indent (rest.length + 1) rest
    return (first ++ text, rest)
  else return (if h.keep == some true then first else [], rest)

end ViewFinder.Yaml.Scalar
