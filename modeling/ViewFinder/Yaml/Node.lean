import ViewFinder.Yaml.Tag
import ViewFinder.Yaml.Token
import ViewFinder.Fault

/-!
# Nodes of YAML

A document is a tree of nodes: scalars, sequences and mappings, each with its type. `Node.ofTokens?`
builds the tree of the only document of a sequence of tokens. A node with an anchor can be repeated
by its alias, even within itself: such a node is unrolled a few times (`Node.unroll`).
-/

namespace ViewFinder.Yaml

/-- A node of a document. -/
inductive Node where
  | scalar (tag : Tag) (text : String)
  | sequence (tag : Tag) (items : List Node)
  | mapping (tag : Tag) (entries : List (Node × Node))
  /-- The node of an anchor, within itself. -/
  | within (anchor : String)
  deriving Inhabited

namespace Node

/-- The node that stands where none is written. -/
def empty : Node := .scalar .null ""

/-! ## Nodes within themselves -/

mutual

/-- The node with another one in place of that of an anchor. -/
def replace (anchor : String) (m : Node) : Node → Node
  | .within a => if a == anchor then m else .within a
  | .scalar t s => .scalar t s
  | .sequence t items => .sequence t (replaceItems anchor m items)
  | .mapping t entries => .mapping t (replaceEntries anchor m entries)

/-- The items with another node in place of that of an anchor. -/
def replaceItems (anchor : String) (m : Node) : List Node → List Node
  | [] => []
  | n :: rest => replace anchor m n :: replaceItems anchor m rest

/-- The entries with another node in place of that of an anchor. -/
def replaceEntries (anchor : String) (m : Node) : List (Node × Node) → List (Node × Node)
  | [] => []
  | (k, v) :: rest => (replace anchor m k, replace anchor m v) :: replaceEntries anchor m rest

end

mutual

/-- Does the node of an anchor occur? -/
def holds (anchor : String) : Node → Bool
  | .within a => a == anchor
  | .scalar .. => false
  | .sequence _ items => itemsHold anchor items
  | .mapping _ entries => entriesHold anchor entries

/-- Does the node of an anchor occur in one of the items? -/
def itemsHold (anchor : String) : List Node → Bool
  | [] => false
  | n :: rest => holds anchor n || itemsHold anchor rest

/-- Does the node of an anchor occur in one of the entries? -/
def entriesHold (anchor : String) : List (Node × Node) → Bool
  | [] => false
  | (k, v) :: rest => holds anchor k || holds anchor v || entriesHold anchor rest

end

/-- A collection without what it holds. -/
def hollow : Node → Node
  | .sequence t _ => .sequence t []
  | .mapping t _ => .mapping t []
  | n => n

/-- How many times a node is unrolled: deeper than anything that is looked for in a document. -/
def unrolling : Nat := 5

/-- The node of an anchor unrolled a number of times. -/
def unroll (anchor : String) (n : Node) : Nat → Node
  | 0 => n.hollow
  | k + 1 => replace anchor (unroll anchor n k) n

/-! ## Reading nodes -/

/-- What tag handles stand for. -/
abbrev Handles := List (String × String)

/-- The handles that every document has. -/
def standardHandles : Handles := [("!", "!"), ("!!", Tag.standardPrefix)]

/-- How the type of a node is given: by the looks of the node, or by name. -/
inductive Marked where
  | unmarked
  /-- The node has a mark that leaves its type open. -/
  | open
  | typed (tag : Tag)

/-- What precedes the content of a node. -/
structure Properties where
  anchor : Option String := none
  marked : Marked := .unmarked

/-- Is anything written before the content? -/
def Properties.isPresent (p : Properties) : Bool :=
  p.anchor.isSome || match p.marked with
    | .unmarked => false
    | _ => true

/-- The tokens to come, the nodes with anchors so far, the latest first, and how many more collections
may be nested. -/
structure State where
  tokens : List Token
  anchors : List (String × Node) := []
  depth : Nat

/-- A step of building the tree. -/
abbrev Step (α : Type) := Except Fault (α × State)

/-- What a tag says of the type. -/
def resolveTag (handles : Handles) (handle : Option String) (suffix : String) :
    Except Fault Marked :=
  match handle with
  | none => .ok (if suffix == "!" then .open else .typed (Tag.ofName suffix))
  | some handle =>
    match handles.lookup handle with
    | some start => .ok (.typed (Tag.ofName (start ++ suffix)))
    | none => .error .notYaml

/-- The anchor and the tag before a node, in either order. -/
def properties (handles : Handles) : List Token → Except Fault (Properties × List Token)
  | .anchor a :: .tag h s :: rest => do return (⟨some a, ← resolveTag handles h s⟩, rest)
  | .anchor a :: rest => .ok (⟨some a, .unmarked⟩, rest)
  | .tag h s :: .anchor a :: rest => do return (⟨some a, ← resolveTag handles h s⟩, rest)
  | .tag h s :: rest => do return (⟨none, ← resolveTag handles h s⟩, rest)
  | rest => .ok ({}, rest)

/-- The type of a scalar. -/
def scalarTag (marked : Marked) (plain : Bool) (text : String) : Tag :=
  match marked with
  | .typed tag => tag
  | .open => Tag.ofPlain text.toList
  | .unmarked => if plain then Tag.ofPlain text.toList else .str

/-- The type of a collection. -/
def collectionTag (marked : Marked) (default : Tag) : Tag :=
  match marked with
  | .typed tag => tag
  | _ => default

/-- Records the node of an anchor, which must be new. -/
def announce (p : Properties) (n : Node) (s : State) : Except Fault State :=
  match p.anchor with
  | none => .ok s
  | some a =>
    if (s.anchors.lookup a).isSome then .error .notYaml
    else .ok { s with anchors := (a, n) :: s.anchors }

/-- The finished node, which is recorded if it has an anchor. -/
def finish (p : Properties) (n : Node) (s : State) : Node × State :=
  match p.anchor with
  | none => (n, s)
  | some a =>
    let n := if n.holds a then n.unroll a unrolling else n
    (n, { s with anchors := (a, n) :: s.anchors })

/-- How deep collections may be nested. -/
def deepest : Nat := 480

/-- Reads what a collection holds, unless it is nested too deeply. -/
def inside {α : Type} (p : Properties) (read : State → Except Fault (α × State)) (s : State) :
    Except Fault (α × State) :=
  match s.depth with
  | 0 => .error (.unreadable .tooDeep)
  | depth + 1 => do
    let s ← announce p (.within (p.anchor.getD "")) s
    let (held, after) ← read { s with depth }
    return (held, { after with depth := s.depth })

/-- Is the next token one that no node starts with, after an item of a block sequence? -/
def endsItem (inMapping : Bool) : List Token → Bool
  | .blockEntry :: _ | .blockEnd :: _ => true
  | .key :: _ | .value :: _ => inMapping
  | [] => false
  | _ => false

/-- Is the next token one that no node starts with, in a block mapping? -/
def endsEntry : List Token → Bool
  | .key :: _ | .value :: _ | .blockEnd :: _ => true
  | _ => false

/-- Does an entry of a flow collection end at the next token? -/
def endsFlow (closing : Token) (afterKey : Bool) : List Token → Bool
  | .flowEntry :: _ => true
  | .value :: _ => afterKey
  | t :: _ => t == closing
  | [] => false

mutual

/-- A node. Outside flow collections it may be a block collection; where `indentless`, also a block
sequence without an indentation of its own. -/
def node (handles : Handles) : Nat → Bool → Bool → State → Except Fault (Node × State)
  | 0, _, _, _ => .error .notYaml
  | fuel + 1, block, indentless, s =>
    match s.tokens with
    | .alias name :: rest =>
      match s.anchors.lookup name with
      | some n => .ok (n, { s with tokens := rest })
      | none => .error .notYaml
    | tokens => do
      let (p, rest) ← properties handles tokens
      let s := { s with tokens := rest }
      let ofSequence (read : State → Except Fault (List Node × State)) (s : State) := do
        let (items, s) ← inside p read s
        return finish p (.sequence (collectionTag p.marked .seq) items) s
      let ofMapping (read : State → Except Fault (List (Node × Node) × State)) (s : State) := do
        let (entries, s) ← inside p read s
        return finish p (.mapping (collectionTag p.marked .map) entries) s
      let ofScalar (plain : Bool) (text : String) (s : State) := do
        let n := Node.scalar (scalarTag p.marked plain text) text
        return (n, ← announce p n s)
      match rest with
      | .scalar text plain :: rest => ofScalar plain text { s with tokens := rest }
      | .flowSequenceStart :: rest =>
        ofSequence (flowItems handles fuel true) { s with tokens := rest }
      | .flowMappingStart :: rest =>
        ofMapping (flowEntries handles fuel true) { s with tokens := rest }
      | .blockEntry :: _ =>
        if indentless then ofSequence (blockItems handles fuel true) s
        else if p.isPresent then ofScalar true "" s
        else .error .notYaml
      | .blockSequenceStart :: rest =>
        if block then ofSequence (blockItems handles fuel false) { s with tokens := rest }
        else if p.isPresent then ofScalar true "" s
        else .error .notYaml
      | .blockMappingStart :: rest =>
        if block then ofMapping (blockEntries handles fuel) { s with tokens := rest }
        else if p.isPresent then ofScalar true "" s
        else .error .notYaml
      | _ => if p.isPresent then ofScalar true "" s else .error .notYaml

/-- The items of a block sequence. One without an indentation of its own has no end marker. -/
def blockItems (handles : Handles) : Nat → Bool → State → Except Fault (List Node × State)
  | 0, _, _ => .error .notYaml
  | fuel + 1, indentless, s =>
    match s.tokens with
    | .blockEntry :: rest => do
      let s := { s with tokens := rest }
      let (item, s) ←
        if endsItem indentless rest then pure (empty, s) else node handles fuel true false s
      let (items, s) ← blockItems handles fuel indentless s
      return (item :: items, s)
    | .blockEnd :: rest => .ok ([], if indentless then s else { s with tokens := rest })
    | _ => if indentless then .ok ([], s) else .error .notYaml

/-- The entries of a block mapping. -/
def blockEntries (handles : Handles) : Nat → State → Except Fault (List (Node × Node) × State)
  | 0, _ => .error .notYaml
  | fuel + 1, s => do
    let part (rest : List Token) (s : State) : Except Fault (Node × State) :=
      let s := { s with tokens := rest }
      if endsEntry rest then .ok (empty, s) else node handles fuel true true s
    match s.tokens with
    | .blockEnd :: rest => return ([], { s with tokens := rest })
    | .key :: rest =>
      let (key, s) ← part rest s
      let (value, s) ← match s.tokens with
        | .value :: rest => part rest s
        | _ => pure (empty, s)
      let (entries, s) ← blockEntries handles fuel s
      return ((key, value) :: entries, s)
    | .value :: _ => throw .notYaml
    | _ => throw .notYaml

/-- The items of a flow sequence. An item may be a single entry of a mapping. -/
def flowItems (handles : Handles) : Nat → Bool → State → Except Fault (List Node × State)
  | 0, _, _ => .error .notYaml
  | fuel + 1, first, s => do
    let part (afterKey : Bool) (rest : List Token) (s : State) : Except Fault (Node × State) :=
      let s := { s with tokens := rest }
      if endsFlow .flowSequenceEnd afterKey rest then .ok (empty, s)
      else node handles fuel false false s
    let rest ← match s.tokens, first with
      | .flowSequenceEnd :: _, _ => pure s.tokens
      | .flowEntry :: rest, false => pure rest
      | tokens, true => pure tokens
      | _, false => throw .notYaml
    let (item, s) ← match rest with
      | .flowSequenceEnd :: rest => return ([], { s with tokens := rest })
      | .key :: rest => do
        let (key, s) ← part true rest s
        let (value, s) ← match s.tokens with
          | .value :: rest => part false rest s
          | _ => pure (empty, s)
        pure (Node.mapping .map [(key, value)], s)
      | rest => node handles fuel false false { s with tokens := rest }
    let (items, s) ← flowItems handles fuel false s
    return (item :: items, s)

/-- The entries of a flow mapping. -/
def flowEntries (handles : Handles) :
    Nat → Bool → State → Except Fault (List (Node × Node) × State)
  | 0, _, _ => .error .notYaml
  | fuel + 1, first, s => do
    let part (afterKey : Bool) (rest : List Token) (s : State) : Except Fault (Node × State) :=
      let s := { s with tokens := rest }
      if endsFlow .flowMappingEnd afterKey rest then .ok (empty, s)
      else node handles fuel false false s
    let rest ← match s.tokens, first with
      | .flowMappingEnd :: _, _ => pure s.tokens
      | .flowEntry :: rest, false => pure rest
      | tokens, true => pure tokens
      | _, false => throw .notYaml
    let (entry, s) ← match rest with
      | .flowMappingEnd :: rest => return ([], { s with tokens := rest })
      | .key :: rest => do
        let (key, s) ← part true rest s
        let (value, s) ← match s.tokens with
          | .value :: rest => part false rest s
          | _ => pure (empty, s)
        pure ((key, value), s)
      | rest => do
        let (key, s) ← node handles fuel false false { s with tokens := rest }
        pure ((key, empty), s)
    let (entries, s) ← flowEntries handles fuel false s
    return (entry :: entries, s)

end

/-! ## Documents -/

/-- The handles that the directives before a document define, and the tokens after them. Versions
must be of the first generation, and nothing may be said twice. -/
def readDirectives (versioned : Bool) (handles : Handles) :
    List Token → Except Fault (Handles × List Token)
  | .directive (.version major _) :: rest =>
    if versioned || major != 1 then .error .notYaml else readDirectives true handles rest
  | .directive (.tagHandle handle start) :: rest =>
    if (handles.lookup handle).isSome then .error .notYaml
    else readDirectives versioned ((handle, start) :: handles) rest
  | .directive .other :: rest => readDirectives versioned handles rest
  | rest => .ok (handles, rest)

/-- Is there no content before the next document? -/
def isBare : List Token → Bool
  | [] | .directive _ :: _ | .documentStart :: _ | .documentEnd :: _ => true
  | _ => false

/-- The first document of a sequence of tokens, and the tokens after it. -/
def document (tokens : List Token) : Except Fault (Node × List Token) :=
  let read (handles : Handles) (tokens : List Token) : Except Fault (Node × List Token) :=
    (node handles (2 * tokens.length + 2) true false { tokens, depth := deepest }).map fun (n, s) => (n, s.tokens)
  match tokens with
  | .directive _ :: _ | .documentStart :: _ => do
    let (handles, rest) ← readDirectives false [] tokens
    let .documentStart :: rest := rest | throw .notYaml
    if isBare rest then return (empty, rest) else read (handles ++ standardHandles) rest
  | tokens => read standardHandles tokens

/-- Is the token the end of a document? -/
def isDocumentEnd : Token → Bool
  | .documentEnd => true
  | _ => false

/-- The only document of a sequence of tokens; none if there is no document at all. -/
def ofTokens? (tokens : List Token) : Except Fault (Option Node) :=
  match tokens with
  | [] => .ok none
  | tokens => do
    let (n, rest) ← document tokens
    if (rest.dropWhile isDocumentEnd).isEmpty then return some n else throw .notYaml

end Node

end ViewFinder.Yaml
