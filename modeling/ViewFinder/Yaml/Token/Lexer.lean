import ViewFinder.Yaml.Token.Mark
import ViewFinder.Yaml.Token.Scalar

/-!
# Splitting YAML into tokens

`Token.ofText` gives the tokens of a text. Block collections have no indicators of their own: the
lexer keeps the indentation of those that are open and puts markers into the sequence of tokens
where they start and end. Nor do most keys have one: what may turn out to be a key is remembered
(`PossibleKey`), and when a colon follows on the same line the marker of the key is put before it.
-/

namespace ViewFinder.Yaml

/-- A place where a key may have started. -/
structure PossibleKey where
  /-- The number of flow collections around it. -/
  depth : Nat
  /-- The number of tokens before it. -/
  position : Nat
  /-- Must it be a key, being at the indentation of the collection? -/
  required : Bool
  start : Cursor

/-- The state of splitting a text into tokens. -/
structure Lexer where
  cursor : Cursor
  /-- The tokens so far, the latest first. -/
  tokens : List Token := []
  /-- The number of open flow collections. -/
  depth : Nat := 0
  /-- The indentation of the innermost block collection, -1 outside of all. -/
  indent : Int := -1
  /-- The indentations around it. -/
  outer : List Int := []
  /-- May a key start here? -/
  mayStartKey : Bool := true
  possibleKeys : List PossibleKey := []

namespace Lexer

/-- A key may be at most so long. -/
def longestKey : Nat := 1024

variable (l : Lexer)

/-- Adds a token. -/
def push (t : Token) : Lexer := { l with tokens := t :: l.tokens }

/-- Puts a token at a position among those there are. -/
def insertAt (position : Nat) (t : Token) : Lexer :=
  let later := l.tokens.length - position
  { l with tokens := l.tokens.take later ++ t :: l.tokens.drop later }

/-- Moves to where the rest of the text starts. -/
def moveTo (rest : List Char) : Lexer := { l with cursor := l.cursor.skipTo rest }

/-- Is the lexer outside of all flow collections? -/
def inBlock : Bool := l.depth == 0

/-! ## Possible keys -/

/-- Forgets possible keys that are too far back, on an earlier line or too long. -/
def dropStaleKeys : Except Fault Lexer :=
  let isStale (k : PossibleKey) : Bool :=
    k.start.line != l.cursor.line || l.cursor.index - k.start.index > longestKey
  if l.possibleKeys.any fun k => isStale k && k.required then .error .notYaml
  else .ok { l with possibleKeys := l.possibleKeys.filter (!isStale ·) }

/-- Forgets the possible key of the current depth. -/
def dropKey : Except Fault Lexer :=
  if l.possibleKeys.any fun k => k.depth == l.depth && k.required then .error .notYaml
  else .ok { l with possibleKeys := l.possibleKeys.filter (·.depth != l.depth) }

/-- Remembers that a key may start here. -/
def rememberKey : Except Fault Lexer :=
  if l.mayStartKey then do
    let l ← l.dropKey
    let key : PossibleKey :=
      { depth := l.depth, position := l.tokens.length,
        required := l.inBlock && l.indent == l.cursor.column, start := l.cursor }
    return { l with possibleKeys := key :: l.possibleKeys }
  else .ok l

/-! ## Indentation -/

/-- Closes the block collections that are indented further than the column. -/
def closeBlocks (column : Int) : Nat → Lexer → Lexer
  | 0, l => l
  | fuel + 1, l =>
    if l.inBlock && l.indent > column then
      match l.outer with
      | indent :: outer => closeBlocks column fuel ({ l with indent, outer }.push .blockEnd)
      | [] => l
    else l

/-- Closes the block collections that are indented further than the column. -/
def unwind (column : Int) : Lexer := closeBlocks column l.outer.length l

/-- Opens a block collection at the column, unless one is open there; was it opened? -/
def openBlock (column : Int) : Bool × Lexer :=
  if l.indent < column then (true, { l with indent := column, outer := l.indent :: l.outer })
  else (false, l)

/-- Opens a block collection at the column of the cursor, marking its start. -/
def openBlockHere (start : Token) : Lexer :=
  match l.openBlock l.cursor.column with
  | (true, l) => l.push start
  | (false, l) => l

/-! ## Tokens -/

/-- Adds a token of some characters. -/
def take (length : Nat) (t : Token) : Lexer := { l.push t with cursor := l.cursor.skip length }

/-- Skips blanks, comments and line breaks: the rest, and whether there were line breaks. -/
def skipGap : Nat → List Char → List Char × Bool
  | 0, s => (s, false)
  | fuel + 1, s =>
    let rest := s.dropWhile (· == ' ')
    let rest := if rest.head? == some '#' then rest.dropWhile (!isBreak ·) else rest
    match lineBreak? rest with
    | some (_, rest) => ((skipGap fuel rest).1, true)
    | none => (rest, false)

/-- Moves to the next token. A key may start on a new line. -/
def toNextToken : Lexer :=
  let s := match l.cursor.index, l.cursor.rest with
    | 0, '\ufeff' :: rest => rest
    | _, s => s
  let (rest, broken) := skipGap (s.length + 1) s
  let l := l.moveTo rest
  if broken && l.inBlock then { l with mayStartKey := true } else l

/-- Leaves all block collections, before a directive or a line that separates documents. -/
def leaveDocument : Except Fault Lexer := do
  let l ← (l.unwind (-1)).dropKey
  return { l with mayStartKey := false }

/-- The start of a flow collection. -/
def openFlow (t : Token) : Except Fault Lexer := do
  let l ← l.rememberKey
  return { l with depth := l.depth + 1, mayStartKey := true }.take 1 t

/-- The end of a flow collection. -/
def closeFlow (t : Token) : Except Fault Lexer := do
  let l ← l.dropKey
  if l.inBlock then throw .notYaml
  return { l with depth := l.depth - 1, mayStartKey := false }.take 1 t

/-- The comma between the entries of a flow collection. -/
def flowEntry : Except Fault Lexer := do
  let l ← l.dropKey
  return { l with mayStartKey := true }.take 1 .flowEntry

/-- The hyphen of an item of a block sequence. -/
def blockEntry : Except Fault Lexer := do
  if l.inBlock && !l.mayStartKey then throw .notYaml
  let l := if l.inBlock then l.openBlockHere .blockSequenceStart else l
  let l ← { l with mayStartKey := true }.dropKey
  return l.take 1 .blockEntry

/-- The question mark of a key. -/
def explicitKey : Except Fault Lexer := do
  if l.inBlock && !l.mayStartKey then throw .notYaml
  let l := if l.inBlock then l.openBlockHere .blockMappingStart else l
  let l ← { l with mayStartKey := l.inBlock }.dropKey
  return l.take 1 .key

/-- Makes the possible key of the current depth a key. -/
def makeKey (k : PossibleKey) : Lexer :=
  let l := { l with possibleKeys := l.possibleKeys.filter (·.depth != l.depth) }
  let l := l.insertAt k.position .key
  let (opened, l) := if l.inBlock then l.openBlock k.start.column else (false, l)
  let l := if opened then l.insertAt k.position .blockMappingStart else l
  { l with mayStartKey := false }

/-- The colon of a value. -/
def mappingValue : Except Fault Lexer := do
  match l.possibleKeys.find? (·.depth == l.depth) with
  | some k => return (l.makeKey k).take 1 .value
  | none =>
    if l.inBlock && !l.mayStartKey then throw .notYaml
    let l := if l.inBlock then l.openBlockHere .blockMappingStart else l
    let l ← { l with mayStartKey := l.inBlock }.dropKey
    return l.take 1 .value

/-- A token that may be the start of a key, with the rest of the text after it. -/
def nodeToken (read : Except Fault (Token × List Char)) : Except Fault Lexer := do
  let l ← l.rememberKey
  let (t, rest) ← read
  return { l.moveTo rest with mayStartKey := false }.push t

/-- A literal or folded scalar. -/
def blockScalar (fold : Bool) (rest : List Char) : Except Fault Lexer := do
  let l ← { l with mayStartKey := true }.dropKey
  let (text, rest) ← Scalar.block fold l.indent rest
  return (l.moveTo rest).push (.scalar (String.ofList (Text.ofChars text)) false)

/-- A quoted scalar. -/
def quotedScalar (double : Bool) (rest : List Char) : Except Fault Lexer :=
  l.nodeToken <| (Scalar.quoted double (rest.length + 1) rest).map fun (text, rest) =>
    (.scalar (String.ofList text) false, rest)

/-- A plain scalar. A key may start after it if it ends at the beginning of a line. -/
def plainScalar (s : List Char) : Except Fault Lexer := do
  let l ← l.rememberKey
  let (text, broken, rest) := Scalar.plain (!l.inBlock) (l.indent + 1).toNat s.length s
  let l := { l.moveTo rest with mayStartKey := broken }
  return l.push (.scalar (String.ofList (Text.ofChars text)) true)

/-- Can a plain scalar start here? -/
def startsPlain (s : List Char) : Bool :=
  match s with
  | [] => false
  | c :: rest =>
    !(isBlank c || isBreak c || "-?:,[]\x7b\x7d#&*!|>'\"%@`".toList.contains c) ||
      (!isGap rest && (c == '-' || (l.inBlock && (c == '?' || c == ':'))))

/-- Reads the token at the cursor. -/
def token (c : Char) (rest : List Char) : Except Fault Lexer :=
  let s := c :: rest
  let atStart := l.cursor.column == 0
  if c == '%' && atStart then do
    let (d, rest) ← Mark.directive rest
    return ((← l.leaveDocument).moveTo rest).push (.directive d)
  else if atStart && isDocumentMark s then do
    return (← l.leaveDocument).take 3 (if c == '-' then .documentStart else .documentEnd)
  else if c == '[' then l.openFlow .flowSequenceStart
  else if c == '\x7b' then l.openFlow .flowMappingStart
  else if c == ']' then l.closeFlow .flowSequenceEnd
  else if c == '\x7d' then l.closeFlow .flowMappingEnd
  else if c == ',' then l.flowEntry
  else if c == '-' && isGap rest then l.blockEntry
  else if c == '?' && (!l.inBlock || isGap rest) then l.explicitKey
  else if c == ':' && (!l.inBlock || isGap rest) then l.mappingValue
  else if c == '*' then
    l.nodeToken ((Mark.anchor rest).map fun (name, rest) => (.alias name, rest))
  else if c == '&' then
    l.nodeToken ((Mark.anchor rest).map fun (name, rest) => (.anchor name, rest))
  else if c == '!' then l.nodeToken (Mark.tag rest)
  else if c == '|' && l.inBlock then l.blockScalar false rest
  else if c == '>' && l.inBlock then l.blockScalar true rest
  else if c == '\'' then l.quotedScalar false rest
  else if c == '"' then l.quotedScalar true rest
  else if l.startsPlain s then l.plainScalar s
  else .error .notYaml

/-- Reads the tokens to the end of the text. -/
def run : Nat → Lexer → Except Fault Lexer
  | 0, _ => .error .notYaml
  | fuel + 1, l => do
    let l ← l.toNextToken.dropStaleKeys
    let l := l.unwind l.cursor.column
    match l.cursor.rest with
    | [] => (l.unwind (-1)).dropKey
    | c :: rest => run fuel (← l.token c rest)

end Lexer

namespace Token

/-- The tokens of a text. -/
def ofText (s : List Char) : Except Fault (List Token) := do
  let some cs := Text.chars? s | throw .notYaml
  unless cs.all isAllowed do throw .notYaml
  return (← Lexer.run (cs.length + 1) { cursor := { rest := cs } }).tokens.reverse

end Token

end ViewFinder.Yaml
