import ViewFinder.Proofs.Store.Rows
import ViewFinder.Record

/-!
# Records of responses

By default what a query finds are the documents of the rows of its response, each marked read-only if
that is asked for, and in the order of a field if one is named (`EntityType.exists_materialize`). The
values of a field can always be ordered, since JSON has no NaN (`Record.isOrdered_place`).
-/

namespace ViewFinder

open Store

namespace Record

mutual

/-- The place of a JSON value is ordered against every other one. -/
theorem isOrdered_place : ∀ v : Value, v.isJson = true → (place v).isOrdered = true
  | .null, _ | .bool _, _ | .int _, _ | .str _, _ | .float (.infinity _), _
  | .float (.finite _ _ _), _ | .dict _, _ => rfl
  | .list vs, h => by
    rw [place, Collation.isOrdered]
    exact allOrdered_places vs (by rwa [Value.isJson] at h)
  | .float (.nan _), h | .tuple _, h | .set _, h | .frozenset _, h | .range .., h
  | .version _, h => by simp [Value.isJson] at h

/-- `isOrdered_place` over a list. -/
theorem allOrdered_places : ∀ vs : List Value, Value.allJson vs = true →
    Collation.allOrdered (places vs) = true
  | [], _ => rfl
  | v :: vs, h => by
    simp only [Value.allJson, Bool.and_eq_true] at h
    rw [places, Collation.allOrdered, isOrdered_place v h.1, allOrdered_places vs h.2]
    rfl

end

/-- Is what a record holds JSON? -/
def isJson : Record → Bool
  | .document d => (Value.dict d.attributes).isJson
  | .value v => v.isJson
  | .object es => (Value.dict es).isJson

/-- What an object holds under a key has an ordered place; so has null, in the place of what it does
not hold. -/
theorem isOrdered_place_find? {es : Entries} (h : (Value.dict es).isJson = true) (key : Value) :
    (place ((es.find? key).getD .null)).isOrdered = true := by
  cases hfind : es.find? key with
  | none => rfl
  | some v =>
    obtain ⟨e, he, rfl⟩ := Option.map_eq_some_iff.1 hfind
    exact isOrdered_place _ (((Value.isJson_dict es).1 h).2 e (List.mem_of_find?_eq_some he))

/-- The parts of a JSON value are JSON. -/
theorem isJson_of_mem_parts {v : Value} (h : v.isJson = true) {part : String × Value}
    (hpart : part ∈ v.parts) : part.2.isJson = true := by
  cases v with
  | bool | int =>
    simp only [Value.parts, List.mem_cons, List.not_mem_nil, or_false] at hpart
    rcases hpart with rfl | rfl | rfl | rfl <;> rfl
  | float x =>
    simp only [Value.parts, List.mem_cons, List.not_mem_nil, or_false] at hpart
    rcases hpart with rfl | rfl
    · exact h
    · decide
  | null | str | list | dict => cases hpart
  | _ => cases h

/-- A part of a JSON value has an ordered place. -/
theorem isOrdered_placeOfPart {v : Value} (h : v.isJson = true) (name : String) :
    (placeOfPart (v.part? name)).isOrdered = true := by
  rw [Value.part?]
  split
  · next w hw =>
    obtain ⟨before, after, hparts, -⟩ := List.lookup_eq_some_iff.1 hw
    exact isOrdered_place w (isJson_of_mem_parts h (by rw [hparts]; simp : (name, w) ∈ v.parts))
  · split
    · cases v.description? <;> rfl
    · repeat' split
      all_goals rfl

/-- An attribute of a JSON object has an ordered place. -/
theorem isOrdered_placeOfAttribute {es : Entries} (h : (Value.dict es).isJson = true)
    (name : String) : (placeOfAttribute es name).isOrdered = true := by
  rw [placeOfAttribute]
  split
  · exact isOrdered_place _ h
  · split
    · rfl
    · split
      · next v hv =>
        exact isOrdered_place v (by simpa [Entries.getD, hv] using Value.isJson_getD h name)
      · split <;> rfl

/-- A record of JSON has an ordered place by each of its fields. -/
theorem isOrdered_sortPlace {r : Record} (h : r.isJson = true) {field : Value} {c : Collation}
    (hc : r.sortPlace field = .ok c) : c.isOrdered = true := by
  cases r with
  | document d =>
    cases hc
    exact isOrdered_place_find? h _
  | object es =>
    cases field with
    | str name =>
      cases hc
      exact isOrdered_placeOfAttribute h name
    | _ => cases hc
  | value v =>
    cases v with
    | dict es =>
      rw [sortPlace] at hc
      split at hc
      · cases hc
        exact isOrdered_place_find? h _
      · cases hc
    | _ =>
      cases field with
      | str name =>
        cases hc
        exact isOrdered_placeOfPart h name
      | _ => cases hc

/-- Sorting records of JSON changes only their order. -/
theorem sort_perm {rs sorted : List Record} (hrs : ∀ r ∈ rs, r.isJson = true) {field : Value}
    (h : sort rs field = .ok sorted) : sorted.Perm rs := by
  obtain ⟨placed, hplaced, hsorted⟩ := Fault.bind_eq_ok_iff.1 h
  have hboth : placed.map (·.2) = rs ∧ ∀ a ∈ placed, a.1.isOrdered = true := by
    rw [Fault.mapM_eq_ok_iff] at hplaced
    clear h hsorted
    induction hplaced with
    | nil => exact ⟨rfl, nofun⟩
    | @cons r a rs placed hr _ ih =>
      obtain ⟨hjson, hrest⟩ := List.forall_mem_cons.1 hrs
      obtain ⟨hrecords, hordered⟩ := ih hrest
      cases hplace : r.sortPlace field with
      | error fault =>
        rw [hplace] at hr
        cases hr
      | ok c =>
        rw [hplace] at hr
        cases hr
        exact ⟨congrArg (r :: ·) hrecords,
          List.forall_mem_cons.2 ⟨isOrdered_sortPlace hjson hplace, hordered⟩⟩
  obtain ⟨hrecords, hordered⟩ := hboth
  rw [Sorting.sortOrdered, if_pos (List.all_eq_true.2 hordered)] at hsorted
  rw [← Except.ok.inj hsorted, ← hrecords]
  exact (Sorting.sort_perm _ _).map _

/-- A record stays JSON when it is marked. -/
theorem isJson_of_markReadonly {r marked : Record} (h : r.isJson = true)
    (hmarked : r.markReadonly = .ok marked) : marked.isJson = true := by
  cases r with
  | document d =>
    cases hmarked
    exact h
  | object attributes => cases hmarked
  | value v => cases hmarked

end Record

namespace EntityType

section
variable {e : EntityType} (total : Nat) (skip : Int)

theorem member?_rows (rows : List Value) :
    (Window.response total skip rows).member? "rows" = .ok (some (.list rows)) := by
  simp [Window.response, Value.member?, Value.entries, Except.map]

/-- The records are made, then marked, then put in order. -/
theorem materialize_eq (response : Value) {raw : Value} (hraw : raw.truthy = false)
    (readonly order : Value) : e.materialize response raw readonly order =
      (e.records response).bind fun records =>
        (if readonly.truthy then records.mapM Record.markReadonly
          else pure records).bind fun marked =>
            (if (order.orElse e.defaultSort).truthy then
              Record.sort marked (order.orElse e.defaultSort) else pure marked).map .records := by
  rw [materialize]
  simp only [hraw, bind, Bool.false_eq_true, if_false]
  cases e.records response with
  | error fault => rfl
  | ok records =>
    cases readonly.truthy <;> cases (order.orElse e.defaultSort).truthy <;>
      simp [Except.bind, Except.map, pure, Except.pure]

/-- What a response becomes depends on its rows only, unless it is asked for as it is. -/
theorem materialize_congr {response response' : Value}
    (h : response.member? "rows" = response'.member? "rows") {raw : Value}
    (hraw : raw.truthy = false) (readonly order : Value) :
    e.materialize response raw readonly order = e.materialize response' raw readonly order := by
  rw [materialize_eq _ hraw, materialize_eq _ hraw, records, records, h]

theorem materialize_response {raw : Value} (hraw : raw.truthy = false) (readonly order : Value)
    (total' : Nat) (skip' : Int) (rows : List Value) :
    e.materialize (Window.response total skip rows) raw readonly order =
      e.materialize (Window.response total' skip' rows) raw readonly order :=
  materialize_congr (by rw [member?_rows, member?_rows]) hraw readonly order

/-- What a factory makes of a JSON document is JSON. -/
theorem isJson_of_instantiate {es : Entries} (h : (Value.dict es).isJson = true) {r : Record}
    (hr : e.instantiate (.dict es) = .ok r) : r.isJson = true := by
  rw [instantiate] at hr
  split at hr
  · cases es <;> cases hr <;> exact h
  · cases hr
    exact h
  · rw [Value.toAttributes] at hr
    split at hr
    · cases hr
      exact h
    · cases hr
  · rw [Value.required] at hr
    split at hr
    · next w hw =>
      cases hr
      exact ((Value.isJson_dict es).1 h).2 _ (Entries.mem_of_get? hw)
    · cases hr

/-- By default the record of a document is the document. -/
theorem instantiate_dict (h : e.factory = .document) (es : Entries) :
    e.instantiate (.dict es) = .ok (.document { attributes := es, entityType := some e }) := by
  rw [instantiate, h]
  cases es <;> rfl

/-- The record that a document of a store becomes by default. -/
def recordOf (e : EntityType) (d : String × Entries) : Record :=
  .document { attributes := d.2, entityType := some e }

/-- The records of rows are made of the documents of the rows. -/
theorem records_response_eq {rows : List Row} (hrows : ∀ r ∈ rows, ∃ es, r.document = .dict es) :
    e.records (Window.response total skip (rows.map Row.toValue)) =
      (rows.map Row.toDocument).mapM fun d => e.instantiate (.dict d.2) := by
  rw [records, member?_rows]
  simp only [bind, Except.bind, Option.getD_some, Value.items]
  rw [List.mapM_map, List.mapM_map]
  refine Fault.mapM_congr fun r hr => ?_
  obtain ⟨es, hes⟩ := hrows r hr
  simp [Row.toValue, Row.toDocument, Value.required, hes]

/-- By default the records of rows are the documents of the rows. -/
theorem records_response (h : e.factory = .document) {rows : List Row}
    (hrows : ∀ r ∈ rows, ∃ es, r.document = .dict es) :
    e.records (Window.response total skip (rows.map Row.toValue)) =
      .ok ((rows.map Row.toDocument).map e.recordOf) := by
  rw [records_response_eq total skip hrows]
  exact Fault.mapM_eq_ok fun d _ => instantiate_dict h d.2

/-- By default the response becomes its records, if the type names no order. -/
theorem materialize_default {response : Value} {rs : List Record} (h : e.records response = .ok rs)
    (hsort : e.defaultSort.truthy = false) :
    e.materialize response (.bool false) (.bool false) .null = .ok (.records rs) := by
  have horder : (Value.null.orElse e.defaultSort).truthy = false := hsort
  rw [materialize_eq _ rfl, h, Except.bind, horder]
  rfl

/-- Without rows there are no records, whatever the type. -/
theorem materialize_nil (e : EntityType) :
    e.materialize (Window.response total skip []) (.bool false) (.bool false) .null =
      .ok (.records []) := by
  have hrecords : e.records (Window.response total skip []) = .ok [] := by
    rw [records, member?_rows]
    rfl
  cases horder : (Value.null.orElse e.defaultSort).truthy with
  | true =>
    rw [materialize_eq _ rfl, hrecords, Except.bind, horder]
    rfl
  | false => exact materialize_default hrecords horder

/-- The record of a document, read-only if asked for. -/
def recordAs (e : EntityType) (readonly : Value) (d : String × Entries) : Record :=
  .document { attributes := d.2, entityType := some e, readonly := readonly.truthy }

/-- Records of documents are marked where that is asked for. -/
theorem marked_eq (readonly : Value) (ds : List (String × Entries)) :
    (if readonly.truthy then (ds.map e.recordOf).mapM Record.markReadonly
      else pure (ds.map e.recordOf)) = Except.ok (ds.map (e.recordAs readonly)) := by
  cases hreadonly : readonly.truthy with
  | true =>
    rw [if_pos rfl, List.mapM_map]
    exact Fault.mapM_eq_ok fun d _ => by simp [recordOf, recordAs, hreadonly, Record.markReadonly,
      Document.markReadonly]
  | false =>
    rw [if_neg Bool.false_ne_true]
    refine congrArg Except.ok (List.map_congr_left fun d _ => ?_)
    rw [recordOf, recordAs, hreadonly]

/-- Records of JSON documents can be sorted by every field, which changes only their order. -/
theorem exists_sort (readonly : Value) {ds : List (String × Entries)}
    (hds : ∀ d ∈ ds, (Value.dict d.2).isJson = true) (field : Value) :
    ∃ rs, Record.sort (ds.map (e.recordAs readonly)) field = .ok rs ∧
      rs.Perm (ds.map (e.recordAs readonly)) := by
  have hplaced : (ds.map (e.recordAs readonly)).mapM (fun r => (r.sortPlace field).map (·, r)) =
      .ok (ds.map fun d =>
        (Record.place (d.2.getD (Document.fieldName field)), e.recordAs readonly d)) := by
    rw [List.mapM_map]
    exact Fault.mapM_eq_ok fun d _ => rfl
  obtain ⟨rs, hrs⟩ : ∃ rs, Record.sort (ds.map (e.recordAs readonly)) field = .ok rs :=
    ⟨_, by rw [Record.sort, hplaced]; rfl⟩
  exact ⟨rs, hrs, Record.sort_perm (List.forall_mem_map.2 hds) hrs⟩

/-- By default a response becomes the records of its documents, marked and in order if that is asked
for. -/
theorem exists_materialize (h : e.factory = .document) {rows : List Row}
    (hrows : ∀ r ∈ rows, ∃ es, r.document = .dict es ∧ (Value.dict es).isJson = true) {raw : Value}
    (hraw : raw.truthy = false) (readonly order : Value) : ∃ rs, e.materialize
      (Window.response total skip (rows.map Row.toValue)) raw readonly order = .ok (.records rs) ∧
        rs.Perm ((rows.map Row.toDocument).map (e.recordAs readonly)) := by
  have hjson : ∀ d ∈ rows.map Row.toDocument, (Value.dict d.2).isJson = true :=
    List.forall_mem_map.2 fun r hr => by
      obtain ⟨es, hes, hjson⟩ := hrows r hr
      rw [Row.toDocument, hes]
      exact hjson
  have hdicts : ∀ r ∈ rows, ∃ es, r.document = .dict es := fun r hr =>
    (hrows r hr).imp fun _ => And.left
  rw [materialize_eq _ hraw, records_response total skip h hdicts, Except.bind, marked_eq,
    Except.bind]
  split
  · obtain ⟨rs, hrs, hperm⟩ := exists_sort (e := e) readonly hjson (order.orElse e.defaultSort)
    exact ⟨rs, by rw [hrs]; rfl, hperm⟩
  · exact ⟨_, rfl, .refl _⟩

/-- An outcome is made of documents: if there is one, it holds the records that the factory of the type
makes of them, in some order. By default there is one. -/
structure Yields (e : EntityType) (outcome : Except Fault Result) (ds : List (String × Entries)) :
    Prop where
  made : ∀ result, outcome = .ok result → ∃ made rs,
    ds.mapM (fun d => e.instantiate (.dict d.2)) = .ok made ∧ rs.Perm made ∧ result = .records rs
  byDefault : e.factory = .document →
    ∃ rs, outcome = .ok (.records rs) ∧ rs.Perm (ds.map e.recordOf)

/-- A response becomes the records of its documents, in order if the type names one. -/
theorem yields_materialize {rows : List Row}
    (hrows : ∀ r ∈ rows, ∃ es, r.document = .dict es ∧ (Value.dict es).isJson = true) :
    e.Yields (e.materialize (Window.response total skip (rows.map Row.toValue)) (.bool false)
      (.bool false) .null) (rows.map Row.toDocument) := by
  have hdicts : ∀ r ∈ rows, ∃ es, r.document = .dict es := fun r hr =>
    (hrows r hr).imp fun _ => And.left
  refine ⟨fun result hresult => ?_, fun h => ?_⟩
  · rw [materialize_eq _ rfl, records_response_eq total skip hdicts] at hresult
    obtain ⟨made, hmade, hrest⟩ := Fault.bind_eq_ok_iff.1 hresult
    have hjson : ∀ r ∈ made, r.isJson = true := fun r hr => by
      obtain ⟨d, hd, hmakes⟩ := Fault.exists_of_mem_mapM hmade hr
      obtain ⟨row, hrow, rfl⟩ := List.mem_map.1 hd
      obtain ⟨es, hes, hrowjson⟩ := hrows row hrow
      rw [Row.toDocument, hes] at hmakes
      exact isJson_of_instantiate hrowjson hmakes
    rw [if_neg (by decide)] at hrest
    obtain ⟨marked, hmarked, hsorted⟩ := Fault.bind_eq_ok_iff.1 hrest
    cases hmarked
    split at hsorted
    · cases hsort : Record.sort made (Value.null.orElse e.defaultSort) with
      | error fault =>
        rw [hsort] at hsorted
        cases hsorted
      | ok rs =>
        rw [hsort] at hsorted
        exact ⟨made, rs, hmade, Record.sort_perm hjson hsort, (Except.ok.inj hsorted).symm⟩
    · exact ⟨made, made, hmade, .refl _, (Except.ok.inj hsorted).symm⟩
  · exact exists_materialize total skip h hrows rfl (.bool false) .null

/-! ## Records in the order of their rows -/

/-- What a document becomes: what the factory makes of it, read-only if asked for. -/
def makeRecord (e : EntityType) (readonly : Value) (d : String × Entries) : Except Fault Record :=
  e.instantiate (.dict d.2) >>= fun r => if readonly.truthy then r.markReadonly else .ok r

theorem makeRecord_eq (h : e.factory = .document) (readonly : Value) (d : String × Entries) :
    e.makeRecord readonly d = .ok (e.recordAs readonly d) := by
  rw [makeRecord, instantiate_dict h]
  cases hreadonly : readonly.truthy <;>
    simp [recordAs, hreadonly, Record.markReadonly, Document.markReadonly, bind, Except.bind]

/-- An outcome is what documents become, in their order, if each of them becomes something. -/
def Becomes (e : EntityType) (readonly : Value) (ds : List (String × Entries))
    (outcome : Except Fault Result) : Prop :=
  ∀ result, outcome = .ok result ↔
    ∃ rs, List.Forall₂ (fun d r => e.makeRecord readonly d = .ok r) ds rs ∧ result = .records rs

/-- So the outcome is some records if the documents become these. -/
theorem Becomes.eq_ok_iff {readonly : Value} {ds : List (String × Entries)}
    {outcome : Except Fault Result} (h : e.Becomes readonly ds outcome) {rs : List Record} :
    outcome = .ok (.records rs) ↔
      List.Forall₂ (fun d r => e.makeRecord readonly d = .ok r) ds rs := by
  rw [h]
  constructor
  · rintro ⟨made, hmade, heq⟩
    cases heq
    exact hmade
  · exact fun hmade => ⟨rs, hmade, rfl⟩

/-- There is an outcome if each document becomes something. -/
theorem Becomes.exists_records {readonly : Value} {ds : List (String × Entries)}
    {outcome : Except Fault Result} (h : e.Becomes readonly ds outcome)
    (hmakes : ∀ d ∈ ds, ∃ r, e.makeRecord readonly d = .ok r) :
    ∃ rs, outcome = .ok (.records rs) := by
  simp only [h.eq_ok_iff]
  clear h
  induction ds with
  | nil => exact ⟨[], .nil⟩
  | cons d ds ih =>
    obtain ⟨⟨r, hr⟩, hrest⟩ := List.forall_mem_cons.1 hmakes
    obtain ⟨rs, hrs⟩ := ih hrest
    exact ⟨r :: rs, .cons hr hrs⟩

/-- By default there is an outcome. -/
theorem Becomes.eq_ok {readonly : Value} {ds : List (String × Entries)}
    {outcome : Except Fault Result} (h : e.Becomes readonly ds outcome)
    (hfactory : e.factory = .document) : outcome = .ok (.records (ds.map (e.recordAs readonly))) :=
  h.eq_ok_iff.2 (List.forall₂_map_right_iff.2 (List.forall₂_same.2 fun d _ =>
    makeRecord_eq hfactory readonly d))

/-- Records are marked, if that is asked for, one by one. -/
theorem markEach_eq (readonly : Value) (made : List Record) :
    (if readonly.truthy then made.mapM Record.markReadonly else pure made) =
      made.mapM fun r => if readonly.truthy then r.markReadonly else .ok r := by
  split
  · rfl
  · have hsame := Fault.mapM_eq_ok (f := fun r : Record => (.ok r : Except Fault Record))
      (g := id) (l := made) fun _ _ => rfl
    rw [hsame, List.map_id]
    rfl

/-- Where something is made of every document, a response becomes what the documents of its rows become,
in the order that is asked for. -/
theorem materialize_of_made {rows : List Row} (hrows : ∀ r ∈ rows, ∃ es, r.document = .dict es)
    (hmade : ∀ r ∈ rows, ∃ record, e.instantiate (.dict r.toDocument.2) = .ok record) {raw : Value}
    (hraw : raw.truthy = false) (readonly order : Value) :
    e.materialize (Window.response total skip (rows.map Row.toValue)) raw readonly order =
      ((rows.map Row.toDocument).mapM (e.makeRecord readonly)).bind fun rs =>
        (if (order.orElse e.defaultSort).truthy then Record.sort rs (order.orElse e.defaultSort)
          else pure rs).map .records := by
  have hmakes : ∀ d ∈ rows.map Row.toDocument, e.instantiate (.dict d.2) =
      .ok ((e.instantiate (.dict d.2)).toOption.getD default) := List.forall_mem_map.2 fun r hr => by
    obtain ⟨record, hrecord⟩ := hmade r hr
    rw [hrecord]
    rfl
  have hmarked : (rows.map Row.toDocument).mapM (e.makeRecord readonly) =
      (rows.map Row.toDocument).mapM fun d =>
        if readonly.truthy then ((e.instantiate (.dict d.2)).toOption.getD default).markReadonly
          else .ok ((e.instantiate (.dict d.2)).toOption.getD default) :=
    Fault.mapM_congr fun d hd => by rw [makeRecord, hmakes d hd]; rfl
  rw [materialize_eq _ hraw, records_response_eq total skip hrows, Fault.mapM_eq_ok hmakes,
    Except.bind]
  simp only [markEach_eq]
  rw [List.mapM_map, hmarked]
  rfl

/-- Where no order is asked for a response becomes what the documents of its rows become. -/
theorem becomes_materialize {rows : List Row} (hrows : ∀ r ∈ rows, ∃ es, r.document = .dict es)
    {raw readonly order : Value} (hraw : raw.truthy = false)
    (horder : (order.orElse e.defaultSort).truthy = false) :
    e.Becomes readonly (rows.map Row.toDocument)
      (e.materialize (Window.response total skip (rows.map Row.toValue)) raw readonly order) := by
  intro result
  rw [materialize_eq _ hraw, records_response_eq total skip hrows]
  simp only [horder, markEach_eq, makeRecord, ← Fault.mapM_mapM_eq_ok_iff]
  constructor
  · intro h
    obtain ⟨made, hmade, h⟩ := Fault.bind_eq_ok_iff.1 h
    obtain ⟨rs, hrs, h⟩ := Fault.bind_eq_ok_iff.1 h
    exact ⟨rs, ⟨made, hmade, hrs⟩, (Except.ok.inj h).symm⟩
  · rintro ⟨rs, ⟨made, hmade, hrs⟩, rfl⟩
    exact Fault.bind_eq_ok_iff.2 ⟨made, hmade, Fault.bind_eq_ok_iff.2 ⟨rs, hrs, rfl⟩⟩

end

end EntityType

end ViewFinder
