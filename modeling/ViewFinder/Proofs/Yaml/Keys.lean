import ViewFinder.Proofs.Entries
import ViewFinder.Proofs.Fault
import ViewFinder.Yaml.Node.Meaning

/-!
# The keys of what is read from YAML

A mapping is put together entry by entry, merged ones first, and a later entry replaces an earlier one of
the same key. So no text is the key of two of them (`Yaml.Node.uniqueTexts_of_toValue`), and every value
is that of a node itself (`Yaml.Node.ofNode_of_toValue`); the same then holds of the mappings inside
(`Yaml.uniqueTexts_of_member`).
-/

namespace ViewFinder

namespace Entries

/-- No text is the key of two entries. -/
def UniqueTexts (es : Entries) : Prop :=
  (es.map (·.1)).Pairwise fun k l => ∀ n, k = .str n → l ≠ .str n

/-- An entry is replaced in its place, or there was none of the key. -/
theorem insert_cases (es : Entries) (k v : Value) : (insert es k v).map (·.1) = es.map (·.1) ∨
    insert es k v = es ++ [(k, v)] ∧ ∀ e ∈ es, e.1.sameKey k = false := by
  induction es with
  | nil => exact .inr ⟨rfl, nofun⟩
  | cons e es ih =>
    obtain ⟨l, w⟩ := e
    rw [insert]
    split
    · exact .inl rfl
    · next hdiffers =>
      rcases ih with hkeys | ⟨heq, hall⟩
      · exact .inl (by rw [List.map_cons, List.map_cons, hkeys])
      · exact .inr ⟨by rw [heq, List.cons_append],
          List.forall_mem_cons.2 ⟨Bool.eq_false_iff.2 hdiffers, hall⟩⟩

theorem UniqueTexts.insert {es : Entries} (h : UniqueTexts es) (k v : Value) :
    UniqueTexts (insert es k v) := by
  rcases insert_cases es k v with hkeys | ⟨heq, hall⟩
  · rwa [UniqueTexts, hkeys]
  · rw [heq, UniqueTexts, List.map_append, List.pairwise_append]
    refine ⟨h, List.pairwise_singleton .., ?_⟩
    rintro l hl _ hk n rfl rfl
    obtain ⟨e, he, hkey⟩ := List.mem_map.1 hl
    obtain rfl : Value.str n = k := List.mem_singleton.1 hk
    have hdiffers := hall e he
    rw [hkey, Value.sameKey_str] at hdiffers
    simp at hdiffers

theorem uniqueTexts_ofPairs (pairs : List (Value × Value)) : UniqueTexts (ofPairs pairs) := by
  have hmerge (es : Entries) (h : UniqueTexts es) : UniqueTexts (merge es pairs) := by
    induction pairs generalizing es with
    | nil => exact h
    | cons e pairs ih => exact ih _ (h.insert e.1 e.2)
  exact hmerge [] List.Pairwise.nil

/-- What holds of the values of all pairs holds of those that are kept. -/
theorem forall_mem_ofPairs {P : Value → Prop} {pairs : List (Value × Value)} (h : ∀ e ∈ pairs, P e.2) :
    ∀ e ∈ ofPairs pairs, P e.2 := by
  have hinsert (es : Entries) (hes : ∀ e ∈ es, P e.2) (k v : Value) (hv : P v) :
      ∀ e ∈ insert es k v, P e.2 := by
    induction es with
    | nil => exact List.forall_mem_singleton.2 hv
    | cons f es ih =>
      obtain ⟨hf, hes⟩ := List.forall_mem_cons.1 hes
      rw [insert]
      split
      · exact List.forall_mem_cons.2 ⟨hv, hes⟩
      · exact List.forall_mem_cons.2 ⟨hf, ih hes⟩
  have hmerge (es : Entries) (hes : ∀ e ∈ es, P e.2) : ∀ e ∈ merge es pairs, P e.2 := by
    induction pairs generalizing es with
    | nil => exact hes
    | cons e pairs ih =>
      obtain ⟨he, hpairs⟩ := List.forall_mem_cons.1 h
      exact ih hpairs _ (hinsert es hes e.1 e.2 he)
  exact hmerge [] (List.forall_mem_nil _)

end Entries

namespace Yaml.Node

/-- The value of a node. -/
def OfNode (v : Value) : Prop := ∃ n : Node, n.toValue = .ok v

mutual

/-- The values in a mapping are those of nodes. -/
theorem ofNode_entryValues : ∀ {nodes : List (Node × Node)} {merged own : List (Value × Value)},
    entryValues nodes = .ok (merged, own) → ∀ e ∈ merged ++ own, OfNode e.2
  | [], _, _, h => by
    cases h
    exact nofun
  | (k, v) :: rest, merged, own, h => by
    rw [entryValues] at h
    split at h
    · simp only [Fault.bind_eq_ok_iff] at h
      obtain ⟨added, hadded, ⟨merged', own'⟩, hrest, h⟩ := h
      cases h
      rw [List.append_assoc]
      exact List.forall_mem_append.2 ⟨ofNode_mergeValues hadded, ofNode_entryValues hrest⟩
    · have hentry : ∃ key value own', toValue v = .ok value ∧ entryValues rest = .ok (merged, own') ∧
          own = (key, value) :: own' := by
        split at h
        all_goals
          simp only [Fault.bind_eq_ok_iff] at h
          obtain ⟨_, -, key, -, value, hvalue, ⟨merged', own'⟩, hrest, h⟩ := h
          cases h
          exact ⟨key, value, own', hvalue, hrest, rfl⟩
      obtain ⟨key, value, own', hvalue, hrest, rfl⟩ := hentry
      obtain ⟨hmerged, hown⟩ := List.forall_mem_append.1 (ofNode_entryValues hrest)
      exact List.forall_mem_append.2 ⟨hmerged, List.forall_mem_cons.2 ⟨⟨v, hvalue⟩, hown⟩⟩

/-- So are those that are merged into it. -/
theorem ofNode_mergeValues : ∀ {n : Node} {es : List (Value × Value)},
    mergeValues n = .ok es → ∀ e ∈ es, OfNode e.2
  | .mapping _ entries, es, h => by
    rw [mergeValues, Fault.bind_eq_ok_iff] at h
    obtain ⟨⟨merged, own⟩, hentries, h⟩ := h
    cases h
    exact ofNode_entryValues hentries
  | .sequence _ items, es, h => by
    rw [mergeValues] at h
    exact ofNode_mergeAll h
  | .scalar .., _, h => by cases h
  | .within _, _, h => by cases h

theorem ofNode_mergeAll : ∀ {items : List Node} {es : List (Value × Value)},
    mergeAll items = .ok es → ∀ e ∈ es, OfNode e.2
  | [], _, h => by
    cases h
    exact nofun
  | .mapping _ entries :: rest, es, h => by
    simp only [mergeAll, Fault.bind_eq_ok_iff] at h
    obtain ⟨⟨merged, own⟩, hentries, others, hothers, h⟩ := h
    cases h
    have hvalues := ofNode_entryValues hentries
    have hrest := ofNode_mergeAll hothers
    exact List.forall_mem_append.2 ⟨hrest, hvalues⟩
  | .scalar .. :: _, _, h => by cases h
  | .sequence .. :: _, _, h => by cases h
  | .within _ :: _, _, h => by cases h

end

theorem exists_of_map_eq_ok {α : Type} {f : α → Value} {v : Value} {x : Except Fault α}
    (h : x.map f = .ok v) : ∃ a, f a = v := by
  cases x with
  | error e => cases h
  | ok a => exact ⟨a, Except.ok.inj h⟩

/-- No scalar text stands for a dictionary. -/
theorem scalarValue_ne_dict (t : Tag) (s : String) (es : Entries) : scalarValue t s ≠ .ok (.dict es) := by
  intro h
  unfold scalarValue at h
  split at h
  all_goals first
    | cases h
    | obtain ⟨_, h⟩ := exists_of_map_eq_ok h
      cases h

/-- A dictionary is put together from the values of nodes. -/
theorem exists_pairs_of_toValue {n : Node} {es : Entries} (h : n.toValue = .ok (.dict es)) :
    ∃ pairs, es = Entries.ofPairs pairs ∧ ∀ e ∈ pairs, OfNode e.2 := by
  cases n with
  | scalar t s =>
    unfold toValue at h
    split at h
    all_goals first
      | cases h
      | exact absurd h (scalarValue_ne_dict _ s es)
  | sequence t items =>
    unfold toValue at h
    split at h
    all_goals first
      | cases h
      | obtain ⟨_, -, h⟩ := Fault.bind_eq_ok_iff.1 h
        cases h
  | mapping t entries =>
    unfold toValue at h
    split at h
    · obtain ⟨⟨merged, own⟩, hentries, h⟩ := Fault.bind_eq_ok_iff.1 h
      cases h
      exact ⟨merged ++ own, rfl, ofNode_entryValues hentries⟩
    all_goals first
      | cases h
      | obtain ⟨_, -, h⟩ := Fault.bind_eq_ok_iff.1 h
        first
        | cases h
        | exact absurd h (scalarValue_ne_dict _ _ es)
  | within n => cases h

/-- No text is the key of two entries of a dictionary. -/
theorem uniqueTexts_of_toValue {n : Node} {es : Entries} (h : n.toValue = .ok (.dict es)) :
    es.UniqueTexts := by
  obtain ⟨pairs, rfl, -⟩ := exists_pairs_of_toValue h
  exact Entries.uniqueTexts_ofPairs pairs

/-- The values of a dictionary are those of nodes. -/
theorem ofNode_of_toValue {n : Node} {es : Entries} (h : n.toValue = .ok (.dict es)) :
    ∀ e ∈ es, OfNode e.2 := by
  obtain ⟨pairs, rfl, hpairs⟩ := exists_pairs_of_toValue h
  exact Entries.forall_mem_ofPairs hpairs

end Yaml.Node

namespace Yaml

/-- A dictionary that a text holds is the value of a node. -/
theorem ofNode_of_read {text : String} {es : Entries} (h : read text = .ok (.dict es)) :
    Node.OfNode (.dict es) := by
  obtain ⟨tokens, -, h⟩ := Fault.bind_eq_ok_iff.1 h
  obtain ⟨root, -, h⟩ := Fault.bind_eq_ok_iff.1 h
  split at h
  · cases h
  · next n =>
    split at h
    · cases h
    · exact ⟨n, h⟩

/-- No text is the key of two entries of a mapping that a text holds under a name. -/
theorem uniqueTexts_of_member {text name : String} {data : Value} {es : Entries}
    (hread : read text = .ok data)
    (hmember : (data.orElse (.dict [])).member name = .ok (.dict es)) : es.UniqueTexts := by
  rw [Value.orElse] at hmember
  split at hmember
  · cases data with
    | dict all =>
      obtain ⟨n, hn⟩ := ofNode_of_read hread
      have hget : Entries.get? all name = some (.dict es) := by
        have hgetD : (Entries.get? all name).getD .null = .dict es := Except.ok.inj hmember
        cases hfound : Entries.get? all name with
        | none =>
          rw [hfound] at hgetD
          cases hgetD
        | some v =>
          rw [hfound] at hgetD
          exact congrArg some hgetD
      obtain ⟨k, hk⟩ := Node.ofNode_of_toValue hn _ (Entries.mem_of_get? hget)
      exact Node.uniqueTexts_of_toValue hk
    | _ => cases hmember
  · cases hmember

end Yaml

end ViewFinder
