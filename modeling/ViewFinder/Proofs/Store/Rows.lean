import Mathlib.Data.List.Nodup
import ViewFinder.Proofs.Fault
import ViewFinder.Proofs.Store.MapSource
import ViewFinder.Proofs.Value.Collation
import ViewFinder.Store.Memory

/-!
# The rows of JSON documents

A store that holds JSON documents can build the index of every map function that a query writes: it
has one row for each document of the type, design documents left out (`Index.rows_perm`), with the
values of the fields for its key. What a save does to design documents changes no index
(`Index.ofDocuments_insert_design`).
-/

namespace ViewFinder

namespace Store

/-- A store all of whose documents are JSON objects, under distinct ids. -/
structure Memory.HoldsJson (m : Memory) : Prop where
  named : m.documents.Named
  objects : ∀ d ∈ m.documents, ∃ es, d.2 = .dict es ∧ (Value.dict es).isJson = true

end Store

open Store

/-- The id and the attributes of an entry of a store, if that is a document of the type and no
design document. -/
def EntityType.document? (e : EntityType) : Value × Value → Option (String × Entries)
  | (.str id, .dict es) =>
    if !id.startsWith Index.designPrefix && e.isType es then some (id, es) else none
  | _ => none

/-- The documents of the type that a store holds, each with its id. -/
def Store.Memory.documentsOf (m : Memory) (e : EntityType) : List (String × Entries) :=
  m.documents.filterMap e.document?

/-- They are of the type. -/
theorem Store.Memory.isType_of_mem_documentsOf {m : Memory} {e : EntityType} {d : String × Entries}
    (hd : d ∈ m.documentsOf e) : e.isType d.2 = true := by
  obtain ⟨entry, -, hd⟩ := List.mem_filterMap.1 hd
  unfold EntityType.document? at hd
  split at hd
  · obtain ⟨hboth, hd⟩ := Option.ite_none_right_eq_some.1 hd
    cases hd
    exact (Bool.and_eq_true_iff.1 hboth).2
  · cases hd

/-- A document is of a type if its field has the value. -/
theorem EntityType.isType_eq {e : EntityType} {field : String} (h : e.discriminatorField = .str field)
    (es : Entries) : e.isType es = (es.getD field).equal e.discriminatorValue := by
  rw [isType, h]
  rfl

/-- A document of a type is not empty. -/
theorem EntityType.ne_nil_of_isType {e : EntityType} (he : e.IsTagged) {es : Entries}
    (h : e.isType es = true) : es ≠ [] := by
  rintro rfl
  obtain ⟨value, hvalue, -⟩ := he.value
  rw [isType, hvalue] at h
  simp [Entries.find?, Value.equal, Value.agree, Value.isNull] at h

namespace Store

/-- The row of a document under a key of some fields. -/
def Row.ofDocument (fields : List String) (d : String × Entries) : Row :=
  { id := d.1, key := .list (fields.map d.2.getD), document := .dict d.2,
    place := .list ((Collation.ofValues (fields.map d.2.getD)).toOption.getD []) }

/-- The document that a row is of, with its id. -/
def Row.toDocument (r : Row) : String × Entries :=
  (r.id, match r.document with
    | .dict es => es
    | _ => [])

/-- The rows of the documents of a type under a key of some fields, in the order of the index. -/
def Memory.rows (m : Memory) (e : EntityType) (fields : List String) : List Row :=
  Index.ordered ((m.documentsOf e).map (Row.ofDocument fields))

section
variable {r s : Row}

/-- A row that comes before another one has a place that is at most as great. -/
theorem Row.atMost_of_precedes (h : r.precedes s = true) : r.place.atMost s.place = true := by
  rw [precedes] at h
  rw [Collation.atMost_iff]
  split at h
  · next hlt => exact .inl hlt
  · next heq => exact .inr heq
  · cases h

/-- A row that does not come before another one has a place that is at least as great. -/
theorem Row.atMost_of_not_precedes (hr : r.place.isOrdered = true) (hs : s.place.isOrdered = true)
    (h : r.precedes s = false) : s.place.atMost r.place = true := by
  refine Collation.atMost_of_compare?_ne_lt hr hs fun hlt => ?_
  rw [precedes, hlt] at h
  cases h

end

/-- Documents that are JSON objects under distinct ids are what an object of JSON objects holds. -/
theorem Memory.holdsJson_of_isJson {m : Memory} (h : (Value.dict m.documents).isJson = true)
    (hobjects : m.documents.all (fun d => d.2 matches .dict _) = true) : m.HoldsJson := by
  obtain ⟨hnamed, hvalues⟩ := (Value.isJson_dict _).1 h
  refine ⟨hnamed, fun d hd => ?_⟩
  have hvalue := hvalues d hd
  have hobject := List.all_eq_true.1 hobjects d hd
  split at hobject
  · next es hes => exact ⟨es, hes, hes ▸ hvalue⟩
  · cases hobject

/-! ## One document -/

/-- A store that holds one document. -/
def Memory.ofDocument (d : String × Entries) : Memory :=
  { documents := [(.str d.1, .dict d.2)] }

section
variable {d : String × Entries}

theorem Memory.holdsJson_ofDocument (h : (Value.dict d.2).isJson = true) :
    (Memory.ofDocument d).HoldsJson :=
  ⟨Entries.Named.nil.cons rfl, List.forall_mem_singleton.2 ⟨d.2, rfl, h⟩⟩

theorem Memory.documentsOf_ofDocument (hid : d.1.startsWith Index.designPrefix = false)
    (e : EntityType) : (Memory.ofDocument d).documentsOf e = if e.isType d.2 then [d] else [] := by
  rw [Memory.documentsOf, Memory.ofDocument, List.filterMap_cons, EntityType.document?, hid]
  cases e.isType d.2 <;> rfl

end

/-! ## Building an index -/

section
variable {m : Memory} (h : m.HoldsJson)
include h

/-- What a store holds are pairs of an id and an object. -/
theorem Memory.HoldsJson.exists_of_mem {d : Value × Value} (hd : d ∈ m.documents) :
    ∃ (id : String) (es : Entries), d = (.str id, .dict es) ∧ (Value.dict es).isJson = true := by
  obtain ⟨id, hid⟩ := h.named.texts d hd
  obtain ⟨es, hes, hjson⟩ := h.objects d hd
  exact ⟨id, es, Prod.ext hid hes, hjson⟩

/-- The attributes of a document are JSON. -/
theorem Memory.HoldsJson.isJson_of_mem {e : EntityType} {d : String × Entries}
    (hd : d ∈ m.documentsOf e) : (Value.dict d.2).isJson = true := by
  obtain ⟨entry, hmem, hd⟩ := List.mem_filterMap.1 hd
  obtain ⟨id, es, rfl, hjson⟩ := h.exists_of_mem hmem
  rw [EntityType.document?, Option.ite_none_right_eq_some] at hd
  obtain ⟨-, hd⟩ := hd
  cases hd
  exact hjson

/-- The documents of a type have distinct ids. -/
theorem Memory.HoldsJson.nodup_documentsOf (e : EntityType) :
    ((m.documentsOf e).map (·.1)).Nodup := by
  have hsub {ds : Entries}
      (hds : ∀ d ∈ ds, ∃ (id : String) (es : Entries), d = (.str id, .dict es)) :
      ((ds.filterMap e.document?).map fun d => Value.str d.1).Sublist (ds.map (·.1)) := by
    induction ds with
    | nil => exact .slnil
    | cons d ds ih =>
      obtain ⟨⟨id, es, rfl⟩, hrest⟩ := List.forall_mem_cons.1 hds
      rw [List.filterMap_cons, EntityType.document?]
      split
      · exact (ih hrest).cons _
      · next heq =>
        obtain ⟨-, hd⟩ := Option.ite_none_right_eq_some.1 heq
        cases hd
        exact (ih hrest).cons_cons _
  have hnodup := h.named.nodup.sublist <| hsub fun d hd => by
    obtain ⟨id, es, hd, -⟩ := h.exists_of_mem hd
    exact ⟨id, es, hd⟩
  refine List.Nodup.of_map Value.str ?_
  rw [List.map_map]
  exact hnodup

/-- The fields of a document are JSON. -/
theorem Memory.HoldsJson.isJson_fields {e : EntityType} {d : String × Entries}
    (hd : d ∈ m.documentsOf e) (fields : List String) :
    ∀ v ∈ fields.map d.2.getD, v.isJson = true :=
  List.forall_mem_map.2 fun f _ => Value.isJson_getD (h.isJson_of_mem hd) f

/-- A map function emits a key for each document of the type. -/
theorem Memory.HoldsJson.keys_eq {e : EntityType} (he : e.IsTagged) (fields : List String) :
    Index.keys (e.emission fields) m.documents = .ok ((m.documentsOf e).map fun d =>
      (d.1, fields.map d.2.getD, .dict d.2)) := by
  obtain ⟨field, hfield, -⟩ := Value.exists_of_isIdentifier he.field
  have hkeys {ds : Entries}
      (hds : ∀ d ∈ ds, ∃ (id : String) (es : Entries), d = (.str id, .dict es)) :
      Index.keys (e.emission fields) ds = .ok ((ds.filterMap e.document?).map fun d =>
        (d.1, fields.map d.2.getD, .dict d.2)) := by
    induction ds with
    | nil => rfl
    | cons d ds ih =>
      obtain ⟨⟨id, es, rfl⟩, hrest⟩ := List.forall_mem_cons.1 hds
      rw [Index.keys, ih hrest, List.filterMap_cons, EntityType.document?, e.isType_eq hfield]
      cases hdesign : id.startsWith Index.designPrefix <;>
        cases hequal : (es.getD field).equal e.discriminatorValue <;>
        simp [Index.keyOf?, EntityType.emission, Value.entries, Value.text, hfield, hdesign, hequal,
          bind, Except.bind, pure, Except.pure]
  exact hkeys fun d hd => by
    obtain ⟨id, es, hd, -⟩ := h.exists_of_mem hd
    exact ⟨id, es, hd⟩

/-- The index of a map function can be built. -/
theorem Memory.HoldsJson.ofDocuments_eq {e : EntityType} (he : e.IsTagged)
    {fields : List String} {source : Value}
    (hsource : Emission.ofSource source = .ok (e.emission fields)) :
    Index.ofDocuments source m.documents = .ok (m.rows e fields) := by
  have hemitted : Index.emitted (e.emission fields) m.documents =
      .ok ((m.documentsOf e).map (Row.ofDocument fields)) := by
    rw [Index.emitted, h.keys_eq he]
    simp only [bind, Except.bind, List.mapM_map]
    refine Fault.mapM_eq_ok fun d hd => ?_
    obtain ⟨cs, hcs, -⟩ :=
      Collation.exists_ofValues _ (Value.allJson_iff.2 (h.isJson_fields hd fields))
    simp only [Row.ofDocument, Function.comp_apply, hcs]
    rfl
  rw [Index.ofDocuments, hsource]
  simp only [bind, Except.bind, hemitted]
  rfl

/-- The places of rows hold no NaN. -/
theorem Memory.HoldsJson.isOrdered_place {e : EntityType} {d : String × Entries}
    (hd : d ∈ m.documentsOf e) (fields : List String) :
    (Row.ofDocument fields d).place.isOrdered = true := by
  obtain ⟨cs, hcs, hord⟩ := Collation.exists_ofValues _
    (Value.allJson_iff.2 (h.isJson_fields hd fields))
  rw [Row.ofDocument, hcs]
  exact hord

/-- So the rows are sorted by their places. -/
theorem Memory.HoldsJson.rows_eq (e : EntityType) (fields : List String) : m.rows e fields =
    Sorting.sort Row.precedes ((m.documentsOf e).map (Row.ofDocument fields)) := by
  rw [Memory.rows, Index.ordered, Sorting.sortOrdered, if_pos]
  exact List.all_eq_true.2 (List.forall_mem_map.2 fun d hd => h.isOrdered_place hd fields)

/-- The index has one row for each document of the type. -/
theorem Memory.HoldsJson.rows_perm (e : EntityType) (fields : List String) :
    (m.rows e fields).Perm ((m.documentsOf e).map (Row.ofDocument fields)) := by
  rw [h.rows_eq]
  exact Sorting.sort_perm _ _

/-- The rows are in ascending order. -/
theorem Memory.HoldsJson.pairwise_rows (e : EntityType) (fields : List String) :
    (m.rows e fields).Pairwise fun r s => r.place.atMost s.place = true := by
  have htrans (r s t : Row) (hrs : r.place.atMost s.place = true)
      (hst : s.place.atMost t.place = true) : r.place.atMost t.place = true :=
    Collation.atMost_trans hrs hst
  have hordered : ∀ r ∈ (m.documentsOf e).map (Row.ofDocument fields), r.place.isOrdered = true :=
    List.forall_mem_map.2 fun d hd => h.isOrdered_place hd fields
  rw [h.rows_eq]
  refine Sorting.pairwise_sort htrans (fun r _ s _ => Row.atMost_of_precedes) ?_
  intro r hr s hs
  exact Row.atMost_of_not_precedes (hordered r hr) (hordered s hs)

/-- The row of an index is that of a document of the type. -/
theorem Memory.HoldsJson.exists_of_mem_rows {e : EntityType} {fields : List String} {r : Row}
    (hr : r ∈ m.rows e fields) : ∃ d ∈ m.documentsOf e, r = Row.ofDocument fields d := by
  obtain ⟨d, hd, rfl⟩ := List.mem_map.1 ((h.rows_perm e fields).mem_iff.1 hr)
  exact ⟨d, hd, rfl⟩

/-- The document of a row is a JSON object. -/
theorem Memory.HoldsJson.exists_dict_of_mem_rows {e : EntityType} {fields : List String} {r : Row}
    (hr : r ∈ m.rows e fields) : ∃ es, r.document = .dict es ∧ (Value.dict es).isJson = true := by
  obtain ⟨d, hd, rfl⟩ := h.exists_of_mem_rows hr
  exact ⟨d.2, rfl, h.isJson_of_mem hd⟩

/-- The place of a row is that of its key. -/
theorem Memory.HoldsJson.place_eq_of_mem_rows {e : EntityType} {fields : List String} {r : Row}
    (hr : r ∈ m.rows e fields) : r.place = Collation.placeOf r.key := by
  obtain ⟨d, hd, rfl⟩ := h.exists_of_mem_rows hr
  have hjson := h.isJson_fields hd fields
  rw [Row.ofDocument, Collation.placeOf_list hjson, Collation.ofValues_eq hjson]
  rfl

/-- Rows are those of their documents. -/
theorem Memory.HoldsJson.map_ofDocument_toDocument {e : EntityType} {fields : List String}
    {rows : List Row} (hrows : ∀ r ∈ rows, r ∈ m.rows e fields) :
    (rows.map Row.toDocument).map (Row.ofDocument fields) = rows := by
  rw [List.map_map]
  refine (List.map_congr_left fun r hr => ?_).trans (List.map_id _)
  obtain ⟨d, -, rfl⟩ := h.exists_of_mem_rows (hrows r hr)
  rfl

/-- The documents of the rows of a kind are the documents whose rows are of that kind. -/
theorem Memory.HoldsJson.filter_toDocument_perm (e : EntityType) (fields : List String)
    (p : Row → Bool) : (((m.rows e fields).filter p).map Row.toDocument).Perm
      ((m.documentsOf e).filter fun d => p (Row.ofDocument fields d)) := by
  have hperm := (((h.rows_perm e fields).filter p).map Row.toDocument)
  rw [List.filter_map, List.map_map, List.map_id''] at hperm
  · exact hperm
  · exact fun d => rfl

/-- The rows of an index have distinct ids. -/
theorem Memory.HoldsJson.nodup_rows (e : EntityType) (fields : List String) :
    ((m.rows e fields).map Row.id).Nodup := by
  rw [((h.rows_perm e fields).map Row.id).nodup_iff, List.map_map]
  exact h.nodup_documentsOf e

end

/-! ## Design documents -/

namespace Index

/-- No key is emitted for a design document, so storing one changes no index. -/
theorem keys_insert_design (e : Emission) (documents : Entries) {id : String}
    (hid : id.startsWith designPrefix = true) (document : Value) :
    keys e (documents.insert (.str id) document) = keys e documents := by
  have hnone (v : Value) : keyOf? e (.str id) v = .ok none := by
    simp [keyOf?, hid, pure, Except.pure]
  induction documents with
  | nil => simp [Entries.insert, keys, hnone, bind, Except.bind, pure, Except.pure]
  | cons d ds ih =>
    obtain ⟨k, v⟩ := d
    rw [Entries.insert]
    by_cases hk : k = .str id
    · subst hk
      rw [Value.sameKey_str, decide_eq_true rfl, if_pos rfl, keys, keys, hnone, hnone]
      rfl
    · rw [Value.sameKey_str_of_ne hk, if_neg (by decide), keys, keys, ih]

theorem ofDocuments_insert_design (source : Value) (documents : Entries) {id : String}
    (hid : id.startsWith designPrefix = true) (document : Value) :
    ofDocuments source (documents.insert (.str id) document) = ofDocuments source documents := by
  simp only [ofDocuments, emitted, keys_insert_design _ documents hid]

end Index

end Store

end ViewFinder
