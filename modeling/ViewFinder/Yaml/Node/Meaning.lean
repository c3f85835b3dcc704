import ViewFinder.Yaml.Node
import ViewFinder.Yaml.Node.Number
import ViewFinder.Yaml.Node.Base64
import ViewFinder.Yaml.Token.Lexer

/-!
# The values of nodes

`Node.toValue` gives the value of a node of one of the standard types. A mapping may take over the
entries of others by its merge key; its own entries come after those and replace them. A timestamp
is its text, and bytes are the literal of theirs. `Node.fault?` is the fault of a document that has one:
of several the one that lies least deep. `Yaml.read` gives the value of a text.
-/

namespace ViewFinder.Yaml

namespace Node

/-- The type of a node. -/
def tag : Node → Tag
  | .scalar t _ | .sequence t _ | .mapping t _ => t
  | .within _ => .other

mutual

/-- The text of a scalar. That of a mapping is the one of its default value, if it has one. -/
def scalarText : Node → Except Fault String
  | .scalar _ s => .ok s
  | .sequence .. | .within _ => .error .notYaml
  | .mapping _ entries => defaultText entries

/-- The text of the default value among the entries of a mapping. -/
def defaultText : List (Node × Node) → Except Fault String
  | [] => .error .notYaml
  | (k, v) :: rest => if k.tag == .value then scalarText v else defaultText rest

end

/-- The truth value of a word. -/
def truth (s : List Char) : Except Fault Bool :=
  let word := s.map Char.toLower
  if ["yes", "true", "on"].contains (String.ofList word) then .ok true
  else if ["no", "false", "off"].contains (String.ofList word) then .ok false
  else .error .noEntry

/-- The text of a timestamp, which must exist. -/
def timestamp (s : List Char) : Except Fault String :=
  match Timestamp.fields? (Tag.dropFinalBreak s) with
  | none => .error .noMember
  | some t =>
    match t.problem? with
    | some problem => .error (.unreadable (.notADate problem))
    | none => .ok (String.ofList t.text)

/-- The literal of the bytes that a text in base 64 writes, empty if there are none. -/
def bytes (s : List Char) : Except Fault String :=
  match Base64.decode? s with
  | some [] => .ok ""
  | some bs => .ok (String.ofList (Base64.literal bs))
  | none => .error .notYaml

/-- The value of a scalar text of a type. -/
def scalarValue (tag : Tag) (s : String) : Except Fault Value :=
  match tag with
  | .null => .ok .null
  | .bool => (truth s.toList).map .bool
  | .int => (Number.int s.toList).map .int
  | .float => (Number.float s.toList).map .float
  | .timestamp => (timestamp s.toList).map .str
  | .str => .ok (.str s)
  | .binary => (bytes s.toList).map .str
  | _ => .error .notYaml

/-- A key, which must be one that a dictionary can have. -/
def checkedKey (key : Value) : Except Fault Value :=
  if key.hashable then .ok key else .error .notYaml

mutual

/-- The value of a node. -/
def toValue : Node → Except Fault Value
  | .scalar t s =>
    match t with
    | .seq | .map | .set | .omap | .pairs => .error .notYaml
    | t => scalarValue t s
  | .sequence t items =>
    match t with
    | .seq => do return .list (← itemValues items)
    | .omap | .pairs => do return .list (← pairValues items)
    | _ => .error .notYaml
  | .mapping t entries =>
    match t with
    | .map => do
      let (merged, own) ← entryValues entries
      return .dict (Entries.ofPairs (merged ++ own))
    | .set => do
      let (merged, own) ← entryValues entries
      return .set ((Entries.ofPairs (merged ++ own)).map (·.1))
    | .seq | .omap | .pairs => .error .notYaml
    | .timestamp => do
      let _ ← defaultText entries
      throw .wrongKind
    | t => do scalarValue t (← defaultText entries)
  | .within _ => .error .notYaml

/-- The values of a list of nodes. -/
def itemValues : List Node → Except Fault (List Value)
  | [] => .ok []
  | n :: rest => do
    let v ← toValue n
    return v :: (← itemValues rest)

/-- The pairs of a list of mappings with one entry each. -/
def pairValues : List Node → Except Fault (List Value)
  | [] => .ok []
  | .mapping _ [(k, v)] :: rest => do
    let k ← toValue k
    let v ← toValue v
    return .tuple [k, v] :: (← pairValues rest)
  | _ :: _ => .error .notYaml

/-- The entries of a mapping: those merged into it, and its own. -/
def entryValues : List (Node × Node) →
    Except Fault (List (Value × Value) × List (Value × Value))
  | [] => .ok ([], [])
  | (k, v) :: rest => do
    if k.tag == .merge then
      let added ← mergeValues v
      let (merged, own) ← entryValues rest
      return (added ++ merged, own)
    else
      let key ← if k.tag == .value then (k.scalarText).map .str else toValue k
      let key ← checkedKey key
      let value ← toValue v
      let (merged, own) ← entryValues rest
      return (merged, (key, value) :: own)

/-- The entries that a mapping, or a list of mappings, gives to one that it is merged into. Of a list
an earlier mapping prevails. -/
def mergeValues : Node → Except Fault (List (Value × Value))
  | .mapping _ entries => do
    let (merged, own) ← entryValues entries
    return merged ++ own
  | .sequence _ items => mergeAll items
  | .scalar .. | .within _ => .error .notYaml

/-- The entries that a list of mappings gives, the last mapping first. -/
def mergeAll : List Node → Except Fault (List (Value × Value))
  | [] => .ok []
  | .mapping _ entries :: rest => do
    let (merged, own) ← entryValues entries
    return (← mergeAll rest) ++ (merged ++ own)
  | _ :: _ => .error .notYaml

end

/-! ## The fault of a document -/

mutual

/-- The entries of a mapping: those merged into it, and its own. -/
def entriesOf : List (Node × Node) → Except Fault (List (Node × Node) × List (Node × Node))
  | [] => .ok ([], [])
  | (k, v) :: rest => do
    let added ← if k.tag == .merge then mergedFrom v else pure []
    let (merged, own) ← entriesOf rest
    return (added ++ merged, if k.tag == .merge then own else (k, v) :: own)

/-- The entries that a mapping, or a list of mappings, gives to one that it is merged into. -/
def mergedFrom : Node → Except Fault (List (Node × Node))
  | .mapping _ entries => do
    let (merged, own) ← entriesOf entries
    return merged ++ own
  | .sequence _ items => mergedFromAll items
  | .scalar .. | .within _ => .error .notYaml

/-- The entries that a list of mappings gives, the last mapping first. -/
def mergedFromAll : List Node → Except Fault (List (Node × Node))
  | [] => .ok []
  | .mapping _ entries :: rest => do
    let (merged, own) ← entriesOf entries
    return (← mergedFromAll rest) ++ (merged ++ own)
  | _ :: _ => .error .notYaml

end

/-- Is the value of a node put together only after all values around it? -/
def isCollection (n : Node) : Bool :=
  match n.tag with
  | .seq | .map | .set | .omap | .pairs => true
  | _ => false

/-- What is done to put a collection together. -/
inductive Part where
  | item (n : Node)
  | key (n : Node)
  | fault

/-- The parts of pairs, each the single entry of a mapping. -/
def pairParts : List Node → List Part
  | [] => []
  | .mapping _ [(k, v)] :: rest => .item k :: .item v :: pairParts rest
  | _ :: _ => [.fault]

/-- The parts of a collection, in order. -/
def parts (n : Node) : List Part :=
  match n.tag, n with
  | .seq, .sequence _ items => items.map .item
  | .omap, .sequence _ items | .pairs, .sequence _ items => pairParts items
  | .map, .mapping _ entries | .set, .mapping _ entries =>
    match entriesOf entries with
    | .ok (merged, own) => (merged ++ own).flatMap fun (k, v) => [.key k, .item v]
    | .error _ => [.fault]
  | _, _ => [.fault]

/-- The fault of a node that is no collection. -/
def ownFault? (n : Node) : Option Fault :=
  match n.toValue with
  | .ok _ => none
  | .error e => some e

/-- The fault of parts, or the collections among them. -/
def partsFault? : List Part → Except Fault (List Node)
  | [] => .ok []
  | .fault :: _ => .error .notYaml
  | .key n :: rest =>
    if n.isCollection then .error .notYaml
    else if n.tag == .value then
      match n.scalarText with
      | .ok _ => partsFault? rest
      | .error e => .error e
    else
      match n.ownFault? with
      | some e => .error e
      | none => partsFault? rest
  | .item n :: rest =>
    if n.isCollection then (partsFault? rest).map (n :: ·)
    else
      match n.ownFault? with
      | some e => .error e
      | none => partsFault? rest

/-- The first fault of collections that wait to be put together. -/
def waitingFault? : Nat → List Node → Option Fault
  | 0, _ | _, [] => none
  | fuel + 1, n :: waiting =>
    match partsFault? n.parts with
    | .ok inner => waitingFault? fuel (waiting ++ inner)
    | .error e => some e

mutual

/-- The number of nodes. -/
def size : Node → Nat
  | .scalar .. | .within _ => 1
  | .sequence _ items => sizeOfItems items + 1
  | .mapping _ entries => sizeOfEntries entries + 1

/-- The number of nodes in a list. -/
def sizeOfItems : List Node → Nat
  | [] => 0
  | n :: rest => n.size + sizeOfItems rest

/-- The number of nodes in the entries of a mapping. -/
def sizeOfEntries : List (Node × Node) → Nat
  | [] => 0
  | (k, v) :: rest => k.size + v.size + sizeOfEntries rest

end

/-- The fault of a document: of several the one that lies least deep, and of these the first. -/
def fault? (n : Node) : Option Fault :=
  match partsFault? [.item n] with
  | .ok waiting => waitingFault? n.size waiting
  | .error e => some e

end Node

/-- The value of a YAML text, null if it holds no document. -/
def read (text : String) : Except Fault Value := do
  match ← Node.ofTokens? (← Token.ofText text.toList) with
  | none => return .null
  | some n =>
    match n.fault? with
    | some e => throw e
    | none => n.toValue

end ViewFinder.Yaml
