import ViewFinder.Proofs.Yaml.TreeTokens
import ViewFinder.Yaml.Node

/-!
# The nodes of trees

The tokens of a tree are those of its node (`Tree.node_tokens`), and they are a whole document
(`Tree.ofTokens?_tokens`).
-/

namespace ViewFinder.Yaml.Tree

mutual

/-- The node of a tree, with its texts as they are read back. -/
def node : Tree → Node
  | .text s => .scalar .str (String.ofList (Yaml.readBack s.toList))
  | .mapping entries => .mapping .map (entryNodes entries)

/-- The nodes of entries. -/
def entryNodes : List (String × Tree) → List (Node × Node)
  | [] => []
  | (k, t) :: rest =>
    (.scalar .str (String.ofList (Yaml.readBack k.toList)), node t) :: entryNodes rest

end

/-- A text is read back as a text: in plain style because of its looks, else because of its quotes. -/
theorem scalarTag_scalarToken (s : List Char) :
    Node.scalarTag .unmarked (decide (Style.of s = Style.plain)) (String.ofList (Yaml.readBack s)) =
      .str := by
  rw [Node.scalarTag]
  split
  · next hplain =>
    have hstyle : Style.of s = .plain := of_decide_eq_true hplain
    rw [String.toList_ofList, Yaml.readBack, hstyle]
    rcases Style.of_cases s with ⟨-, htag, -⟩ | ⟨hother, -⟩ | hother
    · exact htag
    · cases hstyle.symm.trans hother
    · cases hstyle.symm.trans hother
  · rfl

section
variable (handles : Node.Handles) (anchors : List (String × Node)) {fuel : Nat} (rest : List Token)

/-- The node of a text. -/
theorem node_scalarToken (hfuel : 0 < fuel) (block indentless : Bool) (text : List Char)
    (depth : Nat) :
    Node.node handles fuel block indentless ⟨Lexer.scalarToken text :: rest, anchors, depth⟩ =
      .ok (.scalar .str (String.ofList (Yaml.readBack text)), ⟨rest, anchors, depth⟩) := by
  obtain ⟨fuel, rfl⟩ := Nat.exists_eq_succ_of_ne_zero hfuel.ne'
  have htag := scalarTag_scalarToken text
  simp only [Lexer.scalarToken, Node.node, Node.properties, bind, Except.bind]
  rw [htag]
  rfl

/-- The node of an empty dictionary. -/
theorem node_braces (hfuel : 1 < fuel) (block indentless : Bool) (depth : Nat) :
    Node.node handles fuel block indentless
        ⟨.flowMappingStart :: .flowMappingEnd :: rest, anchors, depth + 1⟩ =
      .ok (.mapping .map [], ⟨rest, anchors, depth + 1⟩) := by
  obtain ⟨fuel, rfl⟩ := Nat.exists_eq_add_of_le' hfuel
  rfl

/-- The node of a dictionary is made of the nodes of its entries. -/
theorem node_blockMapping {tokens : List Token} {nodes : List (Node × Node)} {depth : Nat}
    (hentries : Node.blockEntries handles fuel ⟨tokens, anchors, depth⟩ =
      .ok (nodes, ⟨rest, anchors, depth⟩)) (indentless : Bool) :
    Node.node handles (fuel + 1) true indentless ⟨.blockMappingStart :: tokens, anchors, depth + 1⟩ =
      .ok (.mapping .map nodes, ⟨rest, anchors, depth + 1⟩) := by
  simp only [Node.node, Node.properties, Node.inside, Node.announce, bind, Except.bind, hentries]
  rfl

/-- The nodes of an entry, and of those after it. -/
theorem blockEntries_cons {k : List Char} {tokens after : List Token} {v : Node}
    {nodes : List (Node × Node)} {depth : Nat} (hstart : Node.endsEntry (tokens ++ after) = false)
    (hfuel : 0 < fuel)
    (hvalue : Node.node handles fuel true true ⟨tokens ++ after, anchors, depth⟩ =
      .ok (v, ⟨after, anchors, depth⟩))
    (hentries : Node.blockEntries handles fuel ⟨after, anchors, depth⟩ =
      .ok (nodes, ⟨rest, anchors, depth⟩)) :
    Node.blockEntries handles (fuel + 1)
        ⟨.key :: Lexer.scalarToken k :: .value :: (tokens ++ after), anchors, depth⟩ =
      .ok ((.scalar .str (String.ofList (Yaml.readBack k)), v) :: nodes, ⟨rest, anchors, depth⟩) := by
  have hkey := node_scalarToken handles anchors (.value :: (tokens ++ after)) hfuel true true k depth
  have hends : Node.endsEntry (Lexer.scalarToken k :: .value :: (tokens ++ after)) = false := rfl
  simp only [Node.blockEntries, hends, hstart, bind, Except.bind, Bool.false_eq_true, if_false, hkey,
    hvalue, hentries]
  rfl

end

/-- No tree starts with a token that ends an entry. -/
theorem endsEntry_tokens (t : Tree) (rest : List Token) : Node.endsEntry (t.tokens ++ rest) = false := by
  match t with
  | .text _ => rfl
  | .mapping [] => rfl
  | .mapping (_ :: _) => rfl

mutual

/-- The tokens of a tree are those of its node. -/
theorem node_tokens (t : Tree) (handles : Node.Handles) (anchors : List (String × Node))
    (fuel depth : Nat) (hfuel : t.tokens.length ≤ fuel) (hdepth : t.height ≤ depth)
    (indentless : Bool) (rest : List Token) :
    Node.node handles fuel true indentless ⟨t.tokens ++ rest, anchors, depth⟩ =
      .ok (t.node, ⟨rest, anchors, depth⟩) := by
  match t with
  | .text s => exact node_scalarToken handles anchors rest hfuel true indentless s.toList depth
  | .mapping [] =>
    obtain ⟨depth, rfl⟩ := Nat.exists_eq_succ_of_ne_zero (Nat.ne_zero_of_lt hdepth)
    exact node_braces handles anchors rest hfuel true indentless depth
  | .mapping (e :: more) =>
    obtain ⟨depth, rfl⟩ := Nat.exists_eq_succ_of_ne_zero (Nat.ne_zero_of_lt hdepth)
    rw [tokens, List.length_cons, List.length_append, List.length_singleton] at hfuel
    obtain ⟨fuel, rfl⟩ := Nat.exists_eq_add_of_le' (Nat.le_trans (Nat.le_add_left 1 _) hfuel)
    have hentries := blockEntries_entryTokens (e :: more) handles anchors fuel depth (by omega)
      (Nat.le_of_succ_le_succ hdepth) rest
    rw [tokens, List.cons_append, List.append_assoc, List.singleton_append]
    exact node_blockMapping handles anchors rest hentries indentless

theorem blockEntries_entryTokens (entries : List (String × Tree)) (handles : Node.Handles)
    (anchors : List (String × Node)) (fuel depth : Nat) (hfuel : (entryTokens entries).length < fuel)
    (hdepth : heightOfEntries entries ≤ depth) (rest : List Token) :
    Node.blockEntries handles fuel ⟨entryTokens entries ++ .blockEnd :: rest, anchors, depth⟩ =
      .ok (entryNodes entries, ⟨rest, anchors, depth⟩) := by
  obtain ⟨fuel, rfl⟩ := Nat.exists_eq_succ_of_ne_zero (Nat.ne_zero_of_lt hfuel)
  match entries with
  | [] => rfl
  | (k, t) :: more =>
    rw [entryTokens, List.length_cons, List.length_cons, List.length_cons, List.length_append] at hfuel
    rw [heightOfEntries] at hdepth
    have hvalue := node_tokens t handles anchors fuel depth (by omega) (by omega)
      true (entryTokens more ++ .blockEnd :: rest)
    have hentries := blockEntries_entryTokens more handles anchors fuel depth
      (by omega) (by omega) rest
    have hall := blockEntries_cons handles anchors rest (k := k.toList) (endsEntry_tokens t _) (by omega)
      hvalue hentries
    rw [entryTokens, entryNodes]
    simp only [List.cons_append, List.append_assoc]
    exact hall

end

/-- The tokens of a tree are a whole document. -/
theorem ofTokens?_tokens {t : Tree} (h : t.height ≤ Node.deepest) :
    Node.ofTokens? t.tokens = .ok (some t.node) := by
  have hread := node_tokens t Node.standardHandles [] (2 * t.tokens.length + 2) Node.deepest (by omega)
    h false []
  rw [List.append_nil] at hread
  have hdocument : Node.document t.tokens = .ok (t.node, []) := by
    have hstart (tok : Token) (rest : List Token) (heq : t.tokens = tok :: rest) :
        tok ≠ .documentStart ∧ ∀ d, tok ≠ .directive d := by
      match t, heq with
      | .text _, heq | .mapping [], heq | .mapping (_ :: _), heq => cases heq; exact ⟨nofun, nofun⟩
    rw [Node.document]
    · exact congrArg (Except.map fun r : Node × Node.State => (r.1, r.2.tokens)) hread
    · exact fun d rest heq => (hstart _ _ heq).2 d rfl
    · exact fun rest heq => (hstart _ _ heq).1 rfl
  rw [Node.ofTokens?, hdocument]
  · rfl
  · match t with
    | .text _ | .mapping [] | .mapping (_ :: _) => exact nofun

end ViewFinder.Yaml.Tree
