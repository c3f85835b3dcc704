import ViewFinder.Yaml.Tag
import ViewFinder.Value.Print

/-!
# Printing YAML

`Yaml.print` writes a value in block style, one entry a line, in lines of about 80 characters. A text
is written plain where it reads back as that text, else between apostrophes, and between double
quotes with escapes where only those preserve it. A key that is empty, has line breaks or is long
is written with a question mark.
-/

namespace ViewFinder.Yaml

/-- The width beyond which a line is folded. -/
def width : Nat := 80

/-- How a scalar is written. -/
inductive Style where
  | plain
  | single
  | double
  deriving DecidableEq, Inhabited

/-- A line break as the printer counts them: a carriage return is a special character. -/
def isLineFeed (c : Char) : Bool := c == '\n' || c == '\x85' || c == '\u2028' || c == '\u2029'

/-- What the printer has to know about a text. -/
structure Traits where
  /-- Has it something that reads as structure in block style? -/
  indicators : Bool := false
  /-- Has it line breaks? -/
  multiline : Bool := false
  /-- Has it a character that has to be escaped? -/
  special : Bool := false
  /-- Has it a blank or a line break at an end? -/
  loose : Bool := false
  /-- Has it a blank at the beginning of a line? -/
  indented : Bool := false
  /-- Has it a blank at the end of a line? -/
  trailing : Bool := false
  deriving DecidableEq, Inhabited

namespace Traits

/-- A character that can stand unescaped. The mark of a half and the last character cannot. -/
def isOrdinary (c : Char) : Bool :=
  let n := c.toNat
  c == '\n' || (0x20 ≤ n && n ≤ 0x7E) || n == 0x85 ||
    (((0xA0 ≤ n && n ≤ 0xFFFD) || (0x10000 ≤ n && n < 0x10FFFF)) && n != 0xFEFF)

/-- Does a text that starts so read as structure? -/
def startIndicates (s : List Char) : Bool :=
  match s with
  | c :: rest =>
    "#,[]\x7b\x7d&*!|>'\"%@`".toList.contains c || ("?:-".toList.contains c && isGap rest)
  | [] => false

/-- Does the text read as structure somewhere after its first character: a colon before a gap, or a
number sign after one? -/
def innerIndicates : List Char → Bool
  | a :: b :: rest =>
    (b == ':' && isGap rest) || (b == '#' && isGap [a]) || innerIndicates (b :: rest)
  | _ => false

/-- Is a character of the first kind directly before one of the second kind? -/
def adjacent (first second : Char → Bool) : List Char → Bool
  | a :: b :: rest => (first a && second b) || adjacent first second (b :: rest)
  | _ => false

/-- Is a character a blank or a line break? -/
def isLoose (c : Char) : Bool := c == ' ' || isLineFeed c

/-- Does the text start like a line that separates documents? -/
def startsLikeMark (s : List Char) : Bool :=
  "---".toList.isPrefixOf s || "...".toList.isPrefixOf s

/-- The traits of a text. -/
def of (s : List Char) : Traits :=
  { indicators := startsLikeMark s || startIndicates s || innerIndicates s
    multiline := s.any isLineFeed
    special := !s.all isOrdinary
    loose := (s.head?.map isLoose).getD false || (s.getLast?.map isLoose).getD false
    indented := adjacent isLineFeed (· == ' ') s
    trailing := adjacent (· == ' ') isLineFeed s }

/-- Can a text with the traits be written without quotes? -/
def allowsPlain (t : Traits) : Bool :=
  !(t.indicators || t.multiline || t.special || t.loose || t.indented || t.trailing)

/-- Can a text with the traits be written between apostrophes? -/
def allowsSingle (t : Traits) : Bool := !(t.special || t.indented || t.trailing)

end Traits

namespace Style

/-- How a text is written. A text that would read as something else than a text is not written
plain. -/
def of (s : List Char) : Style :=
  let t := Traits.of s
  if Tag.ofPlain s == .str && t.allowsPlain then .plain
  else if t.allowsSingle then .single
  else .double

end Style

/-! ## Scalars -/

/-- A new line, indented. -/
def newLine (indent : Nat) : List Char := '\n' :: List.replicate indent ' '

/-- The characters of a text up to those that end a run, a run being either blanks, line breaks or
neither. -/
def runOf (c : Char) (rest : List Char) : List Char × List Char :=
  if c == ' ' then rest.span (· == ' ')
  else if isLineFeed c then rest.span isLineFeed
  else rest.span fun d => !(d == ' ' || isLineFeed d)

/-- The runs of a text: of blanks, of line breaks, and of other characters. -/
def runs : Nat → List Char → List (List Char)
  | 0, _ | _, [] => []
  | fuel + 1, c :: rest =>
    let (run, rest) := runOf c rest
    (c :: run) :: runs fuel rest

/-- Writes the runs of a plain text: a single blank beyond the width becomes a new line. -/
def plainRuns (indent : Nat) (fold : Bool) (column : Nat) : List (List Char) → List Char
  | [] => []
  | run :: rest =>
    if run == [' '] && fold && column > width then
      newLine indent ++ plainRuns indent fold indent rest
    else run ++ plainRuns indent fold (column + run.length) rest

/-- The line breaks of a run between apostrophes: a line feed at the beginning is doubled. -/
def quotedBreaks (run : List Char) : List Char :=
  match run with
  | '\n' :: _ => '\n' :: run
  | _ => run

/-- An apostrophe is written twice. -/
def doubleApostrophes (s : List Char) : List Char :=
  s.flatMap fun c => if c == '\'' then ['\'', '\''] else [c]

/-- Writes the runs of a text between apostrophes: line breaks keep their number, and a single blank
beyond the width, with something on both sides, becomes a new line. -/
def singleRuns (indent : Nat) (fold : Bool) (first : Bool) (column : Nat) :
    List (List Char) → List Char
  | [] => []
  | run :: rest =>
    if run == [' '] && fold && column > width && !first && !rest.isEmpty then
      newLine indent ++ singleRuns indent fold false indent rest
    else if (run.head?.map isLineFeed).getD false then
      quotedBreaks run ++ List.replicate indent ' ' ++ singleRuns indent fold false indent rest
    else
      let written := doubleApostrophes run
      written ++ singleRuns indent fold false (column + written.length) rest

/-- The letter that stands for a character after a backslash. -/
def escapeLetter? (c : Char) : Option Char :=
  match c with
  | '\x00' => some '0'
  | '\x07' => some 'a'
  | '\x08' => some 'b'
  | '\t' => some 't'
  | '\n' => some 'n'
  | '\x0b' => some 'v'
  | '\x0c' => some 'f'
  | '\r' => some 'r'
  | '\x1b' => some 'e'
  | '"' => some '"'
  | '\\' => some '\\'
  | '\x85' => some 'N'
  | '\u2028' => some 'L'
  | '\u2029' => some 'P'
  | _ => none

/-- The letters of the escape of a code point between double quotes, unless it stands for itself. -/
def escape? (n : Nat) : Option (List Char) :=
  let digits (width : Nat) : List Char := (Text.hexDigits width n).map Char.toUpper
  match (Text.char? n).bind escapeLetter? with
  | some letter => some ['\\', letter]
  | none =>
    if (0x20 ≤ n && n ≤ 0x7E) || (0xA0 ≤ n && n ≤ 0xFFFD && n != 0xFEFF && !Text.isHalf n) then none
    else if n ≤ 0xFF then some ('\\' :: 'x' :: digits 2)
    else if n ≤ 0xFFFF then some ('\\' :: 'u' :: digits 4)
    else some ('\\' :: 'U' :: digits 8)

/-- Does a text start with a blank? -/
def startsBlank (rest : List Nat) : Bool := rest.head? == some ' '.toNat

/-- The fold of a line between double quotes: a backslash, and another one before a blank. -/
def doubleFold (indent : Nat) (rest : List Nat) : List Char :=
  '\\' :: (newLine indent ++ if startsBlank rest then ['\\'] else [])

/-- The column after a fold. -/
def foldColumn (indent : Nat) (rest : List Nat) : Nat :=
  if startsBlank rest then indent + 1 else indent

/-- Writes code points between double quotes. A line beyond the width is folded before a blank and next to
an escape, but not at the ends of the text. `fresh` says that no ordinary character was written since
the last escape or fold; `column` is where the ordinary characters since then started, and `pending`
is their number. -/
def doubleChars (indent : Nat) (fold : Bool) (first fresh : Bool) (column : Nat) :
    List Nat → List Char
  | [] => []
  | n :: rest =>
    let inside := fold && !first && !rest.isEmpty
    match escape? n with
    | some letters =>
      let column := column + letters.length
      if inside && column > width + 1 then
        letters ++ doubleFold indent rest ++
          doubleChars indent fold false true (foldColumn indent rest) rest
      else letters ++ doubleChars indent fold false true column rest
    | none =>
      if inside && (startsBlank (n :: rest) || fresh) && column > width then
        doubleFold indent (n :: rest) ++ Char.ofNat n ::
          doubleChars indent fold false false (foldColumn indent (n :: rest) + 1) rest
      else Char.ofNat n :: doubleChars indent fold false false (column + 1) rest

/-- The text of a scalar in a style, from a column. -/
def scalarIn (style : Style) (indent : Nat) (fold : Bool) (column : Nat) (s : List Char) :
    List Char :=
  match style with
  | .plain => plainRuns indent fold column (runs s.length s)
  | .single =>
    '\'' :: (singleRuns indent fold true (column + 1) (runs s.length s) ++ ['\''])
  | .double => '"' :: (doubleChars indent fold true true (column + 1) (Text.points s) ++ ['"'])

/-! ## Values -/

/-- The text of a floating-point number, which always has a point. -/
def floatText : Binary64 → List Char
  | .nan _ => ".nan".toList
  | .infinity negative => if negative then "-.inf".toList else ".inf".toList
  | x =>
    if x.text.contains '.' then x.text
    else x.text.flatMap fun c => if c == 'e' then ['.', '0', 'e'] else [c]

/-- A value as it is laid out: scalars, lists and dictionaries. A list or a dictionary that stands for a
value of another kind has the tag of that. -/
inductive Layout where
  /-- A text in a style, and the length of the name of its type. -/
  | scalar (style : Style) (text : List Char) (typeLength : Nat)
  | items (tag : String) (items : List Layout)
  | entries (tag : String) (entries : List (Layout × Layout))
  deriving Inhabited

namespace Layout

/-- A number, a truth value or null, by its text and the name of its type. -/
def ofToken (text : List Char) (type : String) : Layout := .scalar .plain text type.length

/-- A text. -/
def ofText (s : List Char) : Layout := .scalar (Style.of s) s "str".length

/-- A name. -/
def ofName (name : String) : Layout := ofText name.toList

/-- An integer. -/
def ofInt (n : Int) : Layout := ofToken (decimalInt n) "int"

mutual

/-- The layout of a value. -/
def ofValue : Value → Layout
  | .null => ofToken "null".toList "null"
  | .bool b => ofToken (if b then "true" else "false").toList "bool"
  | .int n => ofInt n
  | .float x => ofToken (floatText x) "float"
  | .str s => ofText s.toList
  | .list vs => .items "" (ofValues vs)
  | .tuple vs => .items "!!python/tuple" (ofValues vs)
  | .set vs => .entries "!!set" (ofMembers vs)
  | .frozenset vs => .items "!!python/object/apply:builtins.frozenset" [.items "" (ofValues vs)]
  | .range low high =>
    .entries "!!python/object:couchquery.options.Range"
      [(ofName "start", ofValue low), (ofName "end", ofValue high)]
  | .version v =>
    .entries "!!python/object:couchquery.capabilities.StoreVersion"
      [(ofName "major", ofInt v.major), (ofName "minor", ofInt v.minor),
        (ofName "patch", ofInt v.patch)]
  | .dict es => .entries "" (ofEntries es)

/-- The layouts of a list of values. -/
def ofValues : List Value → List Layout
  | [] => []
  | v :: vs => ofValue v :: ofValues vs

/-- The layouts of the members of a set, each with nothing under it. -/
def ofMembers : List Value → List (Layout × Layout)
  | [] => []
  | v :: vs => (ofValue v, ofToken "null".toList "null") :: ofMembers vs

/-- The layouts of the entries of a dictionary. -/
def ofEntries : List (Value × Value) → List (Layout × Layout)
  | [] => []
  | (k, v) :: rest => (ofValue k, ofValue v) :: ofEntries rest

end

/-- The longest key of one line, counted with the name of its type and two exclamation marks. -/
def longestKey : Nat := 128

/-- Can a key stand on one line with its value? -/
def isSimpleKey : Layout → Bool
  | .scalar _ s typeLength =>
    (Text.points s).length + typeLength + 2 < longestKey && !s.isEmpty && !s.any isLineFeed
  | .items _ [] => true
  | .entries _ [] => true
  | _ => false

/-- The tag of a collection after a blank. -/
def tagText (tag : String) : List Char := if tag.isEmpty then [] else ' ' :: tag.toList

/-- A key on one line. -/
def simpleKey (indent : Nat) : Layout → List Char
  | .scalar style s _ => scalarIn style (indent + 2) false indent s
  | .items tag _ => ((tagText tag) ++ " []".toList).drop 1
  | .entries tag _ => ((tagText tag) ++ " \x7b\x7d".toList).drop 1

/-- The beginning of an entry: on a new line, or on the line of the indicator before it. -/
def entryStart (indent : Nat) (sameLine : Bool) : List Char :=
  if sameLine then [' '] else newLine indent

/-- What stands before a value in a collection. -/
inductive Place where
  /-- The hyphen of an item. -/
  | item
  /-- A key of one line. -/
  | key
  /-- The mark of a key of several lines, or of its value. -/
  | mark
  deriving DecidableEq

mutual

/-- A value after an indicator that ends at the column, in a collection of the indentation. After a
key of one line or a tag a collection starts on a new line, and a list in a dictionary is then not
indented further. -/
def after (indent column : Nat) (place : Place) : Layout → List Char
  | .scalar style s _ => ' ' :: scalarIn style (indent + 2) true (column + 1) s
  | .items tag [] => tagText tag ++ " []".toList
  | .entries tag [] => tagText tag ++ " \x7b\x7d".toList
  | .items tag vs =>
    let sameLine := place != .key && tag.isEmpty
    tagText tag ++ itemsFrom (if place == .item || sameLine then indent + 2 else indent) sameLine vs
  | .entries tag es =>
    tagText tag ++ entriesFrom (indent + 2) (place != .key && tag.isEmpty) es

/-- The items of a list, the first one on the same line if asked for. -/
def itemsFrom (indent : Nat) (sameLine : Bool) : List Layout → List Char
  | [] => []
  | v :: vs =>
    entryStart indent sameLine ++ '-' :: (after indent (indent + 1) .item v ++
      itemsFrom indent false vs)

/-- The entries of a dictionary, the first one on the same line if asked for. -/
def entriesFrom (indent : Nat) (sameLine : Bool) : List (Layout × Layout) → List Char
  | [] => []
  | (k, v) :: rest =>
    if isSimpleKey k then
      let key := simpleKey indent k
      entryStart indent sameLine ++ key ++ ':' ::
        (after indent (indent + key.length + 1) .key v ++ entriesFrom indent false rest)
    else
      entryStart indent sameLine ++ '?' :: (after indent (indent + 1) .mark k ++ newLine indent ++
        ':' :: (after indent (indent + 1) .mark v ++ entriesFrom indent false rest))

end

end Layout

/-- The YAML text of a dictionary. -/
def printEntries (entries : Entries) : String :=
  match entries with
  | [] => "\x7b\x7d\n"
  | entries =>
    String.ofList ((Layout.entriesFrom 0 false (Layout.ofEntries entries)).drop 1 ++ ['\n'])

end ViewFinder.Yaml
