import ViewFinder.Value.Access

/-!
# Printing JSON

`Json.print` writes a value on one line, with a blank after commas and colons and every character
beyond printable ASCII escaped; `Json.printIndented` writes one item a line. Tuples are written as
arrays, and keys that are numbers, truth values or null as their texts. Sets, ranges and versions
have no JSON form.
-/

namespace ViewFinder.Json

/-- The escape of a UTF-16 unit. -/
def unitEscape (n : Nat) : List Char := '\\' :: 'u' :: Text.hexDigits 4 n

/-- A code point inside a JSON string. -/
def escapePoint (n : Nat) : List Char :=
  let c := Char.ofNat n
  if c == '"' then ['\\', '"']
  else if c == '\\' then ['\\', '\\']
  else if c == '\n' then ['\\', 'n']
  else if c == '\r' then ['\\', 'r']
  else if c == '\t' then ['\\', 't']
  else if c == '\x0c' then ['\\', 'f']
  else if c == '\x08' then ['\\', 'b']
  else if 32 ≤ n && n ≤ 126 then [c]
  else if n < 0x10000 then unitEscape n
  else unitEscape (0xD800 + (n - 0x10000) / 0x400) ++ unitEscape (0xDC00 + (n - 0x10000) % 0x400)

/-- A JSON string. -/
def quote (s : List Char) : List Char := '"' :: ((Text.points s).flatMap escapePoint ++ ['"'])

/-- A floating-point number; the numbers that are not finite have names. -/
def floatText : Binary64 → List Char
  | .nan _ => "NaN".toList
  | .infinity negative => if negative then "-Infinity".toList else "Infinity".toList
  | x => x.text

/-- The text of an object key. -/
def keyText? : Value → Option (List Char)
  | .str s => some s.toList
  | .int n => some (decimalInt n)
  | .float x => some (floatText x)
  | .bool true => some "true".toList
  | .bool false => some "false".toList
  | .null => some "null".toList
  | _ => none

mutual

/-- The JSON text of a value on one line; none if it has no JSON form. -/
def print? : Value → Option (List Char)
  | .null => some "null".toList
  | .bool true => some "true".toList
  | .bool false => some "false".toList
  | .int n => some (decimalInt n)
  | .float x => some (floatText x)
  | .str s => some (quote s.toList)
  | .list items => (printItems? items).map fun ps => '[' :: (joinWith [',', ' '] ps ++ [']'])
  | .tuple items => (printItems? items).map fun ps => '[' :: (joinWith [',', ' '] ps ++ [']'])
  | .dict entries =>
    (printEntries? entries).map fun ps => '\x7b' :: (joinWith [',', ' '] ps ++ ['\x7d'])
  | .set _ | .frozenset _ | .range .. | .version _ => none

/-- The JSON texts of a list of values. -/
def printItems? : List Value → Option (List (List Char))
  | [] => some []
  | v :: vs => (print? v).bind fun p => (printItems? vs).map (p :: ·)

/-- The JSON texts of the members of an object. -/
def printEntries? : List (Value × Value) → Option (List (List Char))
  | [] => some []
  | (k, v) :: rest =>
    (keyText? k).bind fun key => (print? v).bind fun p =>
      (printEntries? rest).map ((quote key ++ ':' :: ' ' :: p) :: ·)

end

/-- A text as it is written from left to right: writing ends where something has no JSON form. -/
structure Draft where
  text : List Char := []
  /-- Has all been written? -/
  complete : Bool := true

namespace Draft

/-- A text that can be written. -/
def ofChars (s : List Char) : Draft := { text := s }

/-- Goes on with a draft, unless writing has ended. -/
def append (d e : Draft) : Draft := if d.complete then ⟨d.text ++ e.text, e.complete⟩ else d

instance : Append Draft := ⟨append⟩

end Draft

/-- A new line at a depth of nesting, two blanks for each. -/
def newLine (depth : Nat) : List Char := '\n' :: List.replicate (2 * depth) ' '

mutual

/-- The JSON text of a value with one item a line, from a depth of nesting. -/
def draft (depth : Nat) : Value → Draft
  | .list [] | .tuple [] => .ofChars ['[', ']']
  | .list items | .tuple items =>
    .ofChars ('[' :: newLine (depth + 1)) ++ draftItems (depth + 1) [] items ++
      .ofChars (newLine depth ++ [']'])
  | .dict [] => .ofChars ['\x7b', '\x7d']
  | .dict entries =>
    .ofChars ('\x7b' :: newLine (depth + 1)) ++ draftMembers (depth + 1) [] entries ++
      .ofChars (newLine depth ++ ['\x7d'])
  | v =>
    match print? v with
    | some text => .ofChars text
    | none => { complete := false }

/-- The texts of items after separators, the first of which is given. -/
def draftItems (depth : Nat) (separator : List Char) : List Value → Draft
  | [] => {}
  | v :: vs =>
    .ofChars separator ++ draft depth v ++ draftItems depth (',' :: newLine depth) vs

/-- The texts of members after separators, the first of which is given. -/
def draftMembers (depth : Nat) (separator : List Char) : List (Value × Value) → Draft
  | [] => {}
  | (k, v) :: rest =>
    match keyText? k with
    | none => { complete := false }
    | some key =>
      .ofChars (separator ++ quote key ++ [':', ' ']) ++ draft depth v ++
        draftMembers depth (',' :: newLine depth) rest

end

/-- Is the key of an entry a text? -/
def hasTextKey (e : Value × Value) : Bool :=
  match e.1 with
  | .str _ => true
  | _ => false

/-- The entries in the order of their keys; none if two keys are to be compared that are not
comparable. Texts always are, so the members of an object have an order. -/
def sortByKey? (entries : Entries) : Option Entries :=
  if entries.all hasTextKey then
    some (Sorting.sort (fun e f => e.1.less? f.1 == some true) entries)
  else Sorting.byRuns? (fun (e f : Value × Value) => e.1.less? f.1) entries

mutual

/-- The value with the keys of every dictionary in order; none if two keys are not comparable. -/
def sortKeys? : Value → Option Value
  | .list items => (sortKeysAll? items).map .list
  | .tuple items => (sortKeysAll? items).map .tuple
  | .dict entries => do
    let entries ← sortKeysEntries? entries
    return .dict (← sortByKey? entries)
  | v => some v

/-- The values with the keys of every dictionary in order. -/
def sortKeysAll? : List Value → Option (List Value)
  | [] => some []
  | v :: vs => (sortKeys? v).bind fun v => (sortKeysAll? vs).map (v :: ·)

/-- The entries with the keys of every dictionary inside in order. -/
def sortKeysEntries? : List (Value × Value) → Option (List (Value × Value))
  | [] => some []
  | (k, v) :: rest => (sortKeys? v).bind fun v => (sortKeysEntries? rest).map ((k, v) :: ·)

end

/-- A failed step on a value that has no JSON form. -/
def orWrongKind {α : Type} : Option α → Except Fault α
  | some a => .ok a
  | none => .error .wrongKind

/-- The JSON text of a value on one line. -/
def print (v : Value) : Except Fault String := orWrongKind ((print? v).map String.ofList)

/-- The JSON text of a value with one item a line, as far as it can be written. -/
def printIndented (v : Value) : Draft := draft 0 v

/-- The JSON text of a value with the keys of every object in order. -/
def printSorted (v : Value) : Except Fault String :=
  orWrongKind ((sortKeys? v).bind fun v => (print? v).map String.ofList)

end ViewFinder.Json
