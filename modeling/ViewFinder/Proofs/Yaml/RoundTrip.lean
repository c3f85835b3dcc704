import Mathlib.Data.List.Nodup
import ViewFinder.Proofs.Overlay
import ViewFinder.Proofs.Yaml.TreeNodes
import ViewFinder.Yaml.Node.Meaning

/-!
# Reading what was printed

A dictionary of trees is read from the text that the printer writes for it, with its texts as they are
read back (`Tree.read_printEntries`). The names must be distinct and made of printable ASCII characters
and line feeds; other names may be too long for a key of one line once they are escaped.
-/

namespace ViewFinder

namespace Yaml.Tree

/-- The names of a dictionary of trees. -/
theorem keys_values (entries : List (String × Tree)) :
    (values entries).map (·.1) = entries.map fun e => .str e.1 := by
  induction entries with
  | nil => rfl
  | cons e rest ih => exact congrArg (.str e.1 :: ·) ih

theorem names_readBackEntries (entries : List (String × Tree)) :
    (readBackEntries entries).map (·.1) = entries.map (·.1) := by
  induction entries with
  | nil => rfl
  | cons e rest ih => exact congrArg (e.1 :: ·) ih

theorem named_values {entries : List (String × Tree)} (h : (entries.map (·.1)).Nodup) :
    Entries.Named (values entries) := by
  refine ⟨fun e he => ?_, ?_⟩
  · have hkey : e.1 ∈ (values entries).map (·.1) := List.mem_map_of_mem he
    rw [keys_values] at hkey
    obtain ⟨f, -, hf⟩ := List.mem_map.1 hkey
    exact ⟨f.1, hf.symm⟩
  · have hkeys : (values entries).map (·.1) = (entries.map (·.1)).map .str := by
      rw [keys_values, List.map_map]
      rfl
    rw [hkeys]
    exact List.Nodup.map (fun _ _ heq => Value.str.inj heq) h

mutual

/-- The value of the node of a tree. -/
theorem toValue_node (t : Tree) (h : t.WellNamed) : t.node.toValue = .ok t.readBack.value := by
  match t, h with
  | .text s, _ => rfl
  | .mapping entries, h =>
    have hnamed : Entries.Named (values (readBackEntries entries)) :=
      named_values (names_readBackEntries entries ▸ h.1)
    have hentries := entryValues_entryNodes entries h.2
    rw [node, Node.toValue, hentries]
    exact congrArg (fun es => Except.ok (Value.dict es)) (Entries.ofPairs_of_named hnamed)

theorem entryValues_entryNodes (entries : List (String × Tree)) (h : EntriesWellNamed entries) :
    Node.entryValues (entryNodes entries) = .ok ([], values (readBackEntries entries)) := by
  match entries, h with
  | [], _ => rfl
  | (k, t) :: rest, h =>
    have hkey : String.ofList (Yaml.readBack k.toList) = k := by
      rw [readBack_eq h.1, String.ofList_toList]
    have hvalue := toValue_node t h.2.1
    have hentries := entryValues_entryNodes rest h.2.2
    rw [entryNodes, hkey, Node.entryValues, hvalue, hentries]
    rfl

end

/-! ## No faults -/

theorem entriesOf_entryNodes (entries : List (String × Tree)) :
    Node.entriesOf (entryNodes entries) = .ok ([], entryNodes entries) := by
  induction entries with
  | nil => rfl
  | cons e rest ih =>
    rw [entryNodes, Node.entriesOf, ih]
    rfl

/-- The node of a dictionary that can be put together. -/
def IsSound (n : Node) : Prop := ∃ entries, (mapping entries).WellNamed ∧ n = (mapping entries).node

/-- The parts of a dictionary of trees have no fault; the collections among them are such dictionaries
too. -/
theorem partsFault?_entryNodes {entries : List (String × Tree)} (h : EntriesWellNamed entries) :
    ∃ inner, Node.partsFault? ((entryNodes entries).flatMap fun (k, v) => [.key k, .item v]) = .ok inner ∧
      ∀ n ∈ inner, IsSound n := by
  induction entries with
  | nil => exact ⟨[], rfl, nofun⟩
  | cons e rest ih =>
    obtain ⟨k, t⟩ := e
    obtain ⟨inner, hinner, hsound⟩ := ih h.2.2
    cases t with
    | text s => exact ⟨inner, hinner, hsound⟩
    | mapping more =>
      refine ⟨(mapping more).node :: inner, ?_, List.forall_mem_cons.2 ⟨⟨more, h.2.1, rfl⟩, hsound⟩⟩
      exact congrArg (Except.map ((mapping more).node :: ·)) hinner

/-- Dictionaries that wait to be put together have no fault. -/
theorem waitingFault?_eq_none {waiting : List Node} (h : ∀ n ∈ waiting, IsSound n) (fuel : Nat) :
    Node.waitingFault? fuel waiting = none := by
  induction fuel generalizing waiting with
  | zero => rfl
  | succ fuel ih =>
    cases waiting with
    | nil => rfl
    | cons n waiting =>
      obtain ⟨⟨entries, hnamed, rfl⟩, hwaiting⟩ := List.forall_mem_cons.1 h
      obtain ⟨inner, hinner, hsound⟩ := partsFault?_entryNodes hnamed.2
      have hparts : (mapping entries).node.parts =
          (entryNodes entries).flatMap fun (k, v) => [.key k, .item v] := by
        have hentries := entriesOf_entryNodes entries
        rw [node, Node.parts]
        · simp only [hentries, List.nil_append]
        · rfl
      rw [Node.waitingFault?, hparts, hinner]
      exact ih (List.forall_mem_append.2 ⟨hwaiting, hsound⟩)

theorem fault?_node {entries : List (String × Tree)} (h : (mapping entries).WellNamed) :
    (mapping entries).node.fault? = none :=
  waitingFault?_eq_none (List.forall_mem_singleton.2 ⟨entries, h, rfl⟩) _

/-! ## Reading a dictionary -/

/-- What the printer writes for a dictionary of trees reads as that dictionary, with its texts as they
are read back. -/
theorem read_printEntries {entries : List (String × Tree)} (h : (mapping entries).WellNamed)
    (hheight : 2 * heightOfEntries entries + 1 ≤ width) :
    Yaml.read (printEntries (values entries)) = .ok (.dict (values (readBackEntries entries))) := by
  cases entries with
  | nil => rfl
  | cons e rest =>
    obtain ⟨k, t⟩ := e
    have hdepth : (mapping ((k, t) :: rest)).height ≤ Node.deepest := by
      rw [height]
      exact Nat.le_trans (by omega) (by decide : width ≤ Node.deepest)
    rw [Yaml.read, ofText_printEntries h hheight]
    simp only [bind, Except.bind, ofTokens?_tokens hdepth, fault?_node h]
    exact toValue_node _ h

end Yaml.Tree

end ViewFinder
