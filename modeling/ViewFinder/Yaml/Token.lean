import ViewFinder.Yaml.Character

/-!
# Tokens of YAML

A text is a sequence of tokens: indicators, scalars, and markers for where block collections start
and end, which indentation decides. `Cursor` is a place in the text.
-/

namespace ViewFinder.Yaml

/-- A line that says how to read a document. -/
inductive Directive where
  | version (major minor : Nat)
  | tagHandle (handle tagPrefix : String)
  | other
  deriving DecidableEq, Inhabited

/-- A token. -/
inductive Token where
  | directive (d : Directive)
  | documentStart
  | documentEnd
  | blockSequenceStart
  | blockMappingStart
  | blockEnd
  | flowSequenceStart
  | flowSequenceEnd
  | flowMappingStart
  | flowMappingEnd
  | blockEntry
  | flowEntry
  | key
  | value
  | alias (name : String)
  | anchor (name : String)
  /-- A tag: a handle, unless it is written in full, and the rest of it. -/
  | tag (handle : Option String) (suffix : String)
  | scalar (text : String) (plain : Bool)
  deriving DecidableEq, Inhabited

/-- A place in the text. -/
structure Cursor where
  rest : List Char
  line : Nat := 0
  column : Nat := 0
  index : Nat := 0
  deriving Inhabited

namespace Cursor

/-- The place after the next character. A byte order mark takes up no column. -/
def next (p : Cursor) : Cursor :=
  match p.rest with
  | [] => p
  | c :: rest =>
    let p := { p with rest, index := p.index + 1 }
    if isBreak c && !(c == '\r' && rest.head? == some '\n') then
      { p with line := p.line + 1, column := 0 }
    else if c == '\ufeff' then p
    else { p with column := p.column + 1 }

/-- The place after some characters. -/
def skip : Nat → Cursor → Cursor
  | 0, p => p
  | n + 1, p => skip n p.next

/-- The place where the given rest of the text starts. -/
def skipTo (p : Cursor) (rest : List Char) : Cursor := p.skip (p.rest.length - rest.length)

end Cursor

end ViewFinder.Yaml
