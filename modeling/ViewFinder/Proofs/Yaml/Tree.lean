import ViewFinder.Proofs.Yaml.Clean
import ViewFinder.Proofs.Yaml.KeyTokens

/-!
# Trees of texts

A `Yaml.Tree` is a value made of dictionaries by name, with texts at the leaves. `Tree.readBack` is the
tree that its YAML text reads as, `Tree.tokens` the tokens of that text. The text holds only characters
that a YAML text may have (`Tree.isCleanText_after`).
-/

namespace ViewFinder.Yaml

/-- A text, or a dictionary by name of trees. -/
inductive Tree where
  | text (s : String)
  | mapping (entries : List (String × Tree))

namespace Tree

mutual

/-- The value of a tree. -/
def value : Tree → Value
  | .text s => .str s
  | .mapping entries => .dict (values entries)

/-- The entries of a dictionary of trees. -/
def values : List (String × Tree) → Entries
  | [] => []
  | (k, t) :: rest => (.str k, value t) :: values rest

end

mutual

/-- The tree with its texts as they are read back. -/
def readBack : Tree → Tree
  | .text s => .text (String.ofList (Yaml.readBack s.toList))
  | .mapping entries => .mapping (readBackEntries entries)

/-- The entries with their texts as they are read back; the names are as they were. -/
def readBackEntries : List (String × Tree) → List (String × Tree)
  | [] => []
  | (k, t) :: rest => (k, readBack t) :: readBackEntries rest

end

mutual

/-- How deep dictionaries are nested in a tree, and a text below them. -/
def height : Tree → Nat
  | .text _ => 1
  | .mapping entries => heightOfEntries entries + 1

/-- The greatest height of an entry. -/
def heightOfEntries : List (String × Tree) → Nat
  | [] => 0
  | (_, t) :: rest => max (height t) (heightOfEntries rest)

end

theorem height_pos (t : Tree) : 0 < t.height := by
  cases t with
  | text => exact Nat.one_pos
  | mapping => exact Nat.succ_pos _

mutual

/-- Are the names of each dictionary distinct, and made of printable ASCII characters and line feeds? -/
def WellNamed : Tree → Prop
  | .text _ => True
  | .mapping entries => (entries.map (·.1)).Nodup ∧ EntriesWellNamed entries

/-- Are the names of entries made of such characters, and those below them well chosen? -/
def EntriesWellNamed : List (String × Tree) → Prop
  | [] => True
  | (k, t) :: rest => IsBasicText k ∧ WellNamed t ∧ EntriesWellNamed rest

end

mutual

/-- The tokens of the text of a tree. -/
def tokens : Tree → List Token
  | .text s => [Lexer.scalarToken s.toList]
  | .mapping [] => [.flowMappingStart, .flowMappingEnd]
  | .mapping (e :: rest) => .blockMappingStart :: (entryTokens (e :: rest) ++ [.blockEnd])

/-- The tokens of the entries of a dictionary. -/
def entryTokens : List (String × Tree) → List Token
  | [] => []
  | (k, t) :: rest => .key :: Lexer.scalarToken k.toList :: .value :: (tokens t ++ entryTokens rest)

end

/-! ## The text of an entry -/

/-- An entry, from the beginning of its key. -/
def entryText (indent : Nat) (k v : Layout) : List Char :=
  if Layout.isSimpleKey k then
    let key := Layout.simpleKey indent k
    key ++ ':' :: Layout.after indent (indent + key.length + 1) .key v
  else
    '?' :: (Layout.after indent (indent + 1) .mark k ++ newLine indent ++
      ':' :: Layout.after indent (indent + 1) .mark v)

theorem entriesFrom_cons (indent : Nat) (sameLine : Bool) (k v : Layout) (rest : List (Layout × Layout)) :
    Layout.entriesFrom indent sameLine ((k, v) :: rest) = Layout.entryStart indent sameLine ++
      (entryText indent k v ++ Layout.entriesFrom indent false rest) := by
  rw [Layout.entriesFrom, entryText]
  split <;> simp only [List.append_assoc, List.cons_append]

theorem isCleanText_entryText {indent : Nat} (k : List Char) {v : Layout}
    (hv : ∀ column place, IsCleanText (Layout.after indent column place v)) :
    IsCleanText (entryText indent (.ofText k) v) := by
  have hblank : IsClean ' ' := isClean_of_isBasic (by decide)
  have hcolon : IsClean ':' := isClean_of_isBasic (by decide)
  have hquestion : IsClean '?' := isClean_of_isBasic (by decide)
  rw [entryText]
  split
  · exact isCleanText_append.2 ⟨isCleanText_scalarIn k _ _ _, isCleanText_cons.2 ⟨hcolon, hv _ _⟩⟩
  · refine isCleanText_cons.2 ⟨hquestion, isCleanText_append.2 ⟨isCleanText_append.2 ⟨?_,
      isCleanText_newLine indent⟩, isCleanText_cons.2 ⟨hcolon, hv _ _⟩⟩⟩
    exact isCleanText_cons.2 ⟨hblank, isCleanText_scalarIn k _ _ _⟩

theorem isCleanText_entryStart (indent : Nat) (sameLine : Bool) :
    IsCleanText (Layout.entryStart indent sameLine) := by
  cases sameLine with
  | true => exact List.forall_mem_singleton.2 (isClean_of_isBasic (by decide))
  | false => exact isCleanText_newLine indent

mutual

/-- The printer writes no character for a tree that a YAML text may not have. -/
theorem isCleanText_after (t : Tree) (indent column : Nat) (place : Layout.Place) :
    IsCleanText (Layout.after indent column place (.ofValue t.value)) := by
  cases t with
  | text s =>
    exact isCleanText_cons.2 ⟨isClean_of_isBasic (by decide), isCleanText_scalarIn s.toList _ _ _⟩
  | mapping entries =>
    cases entries with
    | nil =>
      have hempty : IsBasicText " \x7b\x7d" := by decide
      exact fun c hc => isClean_of_isBasic (hempty c hc)
    | cons e rest => exact isCleanText_entriesFrom (e :: rest) _ _

theorem isCleanText_entriesFrom (entries : List (String × Tree)) (indent : Nat) (sameLine : Bool) :
    IsCleanText (Layout.entriesFrom indent sameLine (Layout.ofEntries (values entries))) := by
  match entries with
  | [] => exact nofun
  | (k, t) :: rest =>
    refine (entriesFrom_cons ..).symm ▸ isCleanText_append.2 ⟨isCleanText_entryStart _ _,
      isCleanText_append.2 ⟨isCleanText_entryText k.toList fun column place => ?_, ?_⟩⟩
    · exact isCleanText_after t indent column place
    · exact isCleanText_entriesFrom rest indent false

end

end Tree

end ViewFinder.Yaml
