import Mathlib.Data.List.Pairwise
import ViewFinder.Proofs.FindConditions
import ViewFinder.Proofs.Query.Ranges
import ViewFinder.Proofs.SortedRecords

/-!
# Sorting by an index and in memory

Documents can be had in the order of a field in two ways: from the index that is keyed on the field, or
sorted once they have been found through any other index. The place of a value among records is that in
the index if there is no object in it (`Record.place_eq`), so where every document of a type holds a value
of its own in the field both ways come to the same list (`find_useKey_eq_find_order`).
-/

namespace ViewFinder

open Store

/-! ## Places without objects -/

namespace Value

mutual

/-- Is there no object in the value? -/
def isObjectFree : Value → Bool
  | .dict _ => false
  | .list vs => allObjectFree vs
  | _ => true

/-- Is there no object in any of the values? -/
def allObjectFree : List Value → Bool
  | [] => true
  | v :: vs => v.isObjectFree && allObjectFree vs

end

end Value

namespace Record

mutual

/-- Records place a value as the index does, if it holds no object. -/
theorem place_eq : ∀ v : Value, v.isJson = true → v.isObjectFree = true →
    place v = Collation.placeOf v
  | .null, _, _ | .bool _, _, _ | .int _, _, _ | .float _, _, _ | .str _, _, _ => rfl
  | .list vs, hjson, hfree => by
    rw [Value.isJson] at hjson
    rw [Value.isObjectFree] at hfree
    rw [place, places_eq vs hjson hfree, Collation.placeOf_list (Value.allJson_iff.1 hjson)]
  | .dict _, _, h => by cases h
  | .tuple _, h, _ | .set _, h, _ | .frozenset _, h, _ | .range .., h, _ | .version _, h, _ => by
    cases h

/-- `place_eq` over a list. -/
theorem places_eq : ∀ vs : List Value, Value.allJson vs = true → Value.allObjectFree vs = true →
    places vs = vs.map Collation.placeOf
  | [], _, _ => rfl
  | v :: vs, hjson, hfree => by
    rw [Value.allJson, Bool.and_eq_true] at hjson
    rw [Value.allObjectFree, Bool.and_eq_true] at hfree
    rw [places, place_eq v hjson.1 hfree.1, places_eq vs hjson.2 hfree.2, List.map_cons]

end

end Record

/-! ## Options with one entry -/

/-- The options that say nothing but which key is used, or which order is asked for. -/
theorem Options.ofValue_single (name : String) (hname : name ∈ ["use_key", "order"]) (v : Value)
    {o : Options} (hset : ({} : Options).set? name v = some o) (hconditions : o.conditions = .dict [])
    (hextra : o.extra = .dict []) : Options.ofValue (.dict [(.str name, v)]) = .ok o := by
  have hkey : currentKey (.str name) = .str name := by
    rcases List.mem_pair.1 hname with rfl | rfl <;> simp [currentKey, currentName]
  have hother : ∀ n ∈ ["view_type", "update", "extra"], (Value.str name).equal (.str n) = false := by
    rcases List.mem_pair.1 hname with rfl | rfl <;> simp [Value.equal, Value.agree]
  have hparameter : isViewParameter (.str name) = false := by
    rcases List.mem_pair.1 hname with rfl | rfl <;> simp [isViewParameter, viewParameters]
  have htake : takeEntry ({}, []) (.str name) v = .ok (o, []) := by
    rw [takeEntry, hkey, hother _ (by decide), hother _ (by decide), hother _ (by decide), hparameter]
    simp [Value.text, hset]
  have hsame : { o with conditions := .dict [], extra := .dict [] } = o := by
    cases o
    cases hconditions
    cases hextra
    rfl
  simp [ofValue, Value.truthy, Value.entries, takeEntries, htake, checkExtra, unknownParameters,
    Value.toEntries, hconditions, Value.orElse, bind, Except.bind, pure, Except.pure]
  exact hsame

/-! ## All documents of a type -/

section
variable {m : Memory} {e : EntityType}

/-- The rows of an index are those of all documents of the type. -/
theorem Store.Memory.HoldsJson.toDocument_perm (hm : m.HoldsJson) (e : EntityType)
    (fields : List String) : ((m.rows e fields).map Row.toDocument).Perm (m.documentsOf e) := by
  have hperm := hm.filter_toDocument_perm e fields fun _ => true
  rwa [List.filter_eq_self.2 fun _ _ => rfl, List.filter_eq_self.2 fun _ _ => rfl] at hperm

/-- Where there is no design document a query that names an identifier for its key can be answered,
through the index of that field. -/
theorem Query.answerable_useKey {s : Setting} {field : String} (hm : m.HoldsJson)
    (he : e.HasIdentifiers) (hdesign : e.designName = .ok s.designName)
    (habsent : m.documents.get? (Registry.designId s.designName) = none)
    (hfield : Name.isIdentifier field = true) :
    Query.Answerable m s e { useKey := .str field } [Name.normalizeField field]
      [Name.normalizeField field] := by
  have hgiven : Query.givenNames { useKey := .str field } = .ok [.str field] := by
    rw [Query.givenNames, if_pos (Value.truthy_of_isIdentifier hfield)]
  have hkey : ∀ f ∈ [Name.normalizeField field], Name.isIdentifier f = true :=
    List.forall_mem_singleton.2 (Name.isIdentifier_normalizeField hfield)
  obtain ⟨source, hsource, hread⟩ :=
    Query.ofSource_mapFunction he.isTagged hkey (List.cons_ne_nil _ _)
  refine Query.answerable_of_absent hm he hdesign habsent
    (Query.searchFields_eq e hgiven (List.cons_ne_nil _ _)) (by intro h; cases h) (fun _ f hf => ?_)
    hsource hread
  exact Text.not_mem_of_nameChars (Name.nameChars_of_isIdentifier (hkey f hf)) (by decide)

/-- Without conditions and window, finding comes to what the rows of the index become. -/
theorem Query.Answerable.outcome_eq {p : Profile} {allowAdHoc : Bool} {designName : String}
    {o : Options} {fields keyFields : List String}
    (h : Query.Answerable m (Database.finderOf e designName p allowAdHoc).setting e o fields keyFields)
    (hdesign : e.designName = .ok designName) (ho : o.Plain) (hc : o.conditions = .dict [])
    (hlimit : o.limit = .null) (hoffset : o.offset = .null) {options : Value}
    (hoptions : Options.ofValue options = .ok o) : ∃ total,
      m.outcome p allowAdHoc e (·.find options) = e.materialize
        (Window.response total o.skip ((m.rows e keyFields).map Row.toValue)) o.raw o.readonly o.order := by
  obtain ⟨q, total, after, hq, hends⟩ := Query.find_ends_of_none h ho hc ⟨.inl hlimit, .inl hoffset⟩
  have hwindow : o.skip = 0 ∧ o.limit? = none := by
    rw [Options.skip, Options.limit?, hlimit, hoffset]
    exact ⟨rfl, rfl⟩
  rw [hwindow.1, hwindow.2, Window.cut_zero_none, ← hwindow.1] at hends
  have hfind : ((Database.finderOf e designName p allowAdHoc).find options).Ends m _ after :=
    Dialogue.ends_lift hoptions (Finder.findWith_ends hq hends)
  exact ⟨total, hfind.outcome_eq hdesign⟩

end

/-! ## The order of a field -/

/-- The place that the index of a field gives a document. -/
def fieldPlace (field : String) (d : String × Entries) : Collation :=
  Collation.placeOf (d.2.getD (Name.normalizeField field))

/-- The document of the type that an entry of a store is read as. -/
def EntityType.documentOf (e : EntityType) (d : String × Entries) : Document :=
  { attributes := d.2, entityType := some e }

section
variable {m : Memory} {e : EntityType} {field : String} (hm : m.HoldsJson)
  (hvalues : ∀ d ∈ m.documentsOf e, (d.2.getD (Name.normalizeField field)).isNull = false ∧
    (d.2.getD (Name.normalizeField field)).isObjectFree = true)
  (hdistinct : (m.documentsOf e).Pairwise fun c d =>
    (fieldPlace field c).compare? (fieldPlace field d) ≠ some .eq)

section
include hm hvalues

/-- Sorting places the documents as the index does. -/
theorem place_documentOf {d : String × Entries} (hd : d ∈ m.documentsOf e) :
    Record.place ((e.documentOf d).valueOf (.str field)) = fieldPlace field d :=
  Record.place_eq _ (Value.isJson_getD (hm.isJson_of_mem hd) _) (hvalues d hd).2

/-- None of them is at the place of null. -/
theorem fieldPlace_ne_null {d : String × Entries} (hd : d ∈ m.documentsOf e) :
    fieldPlace field d ≠ .null := fun hnull => by
  have hrank : (fieldPlace field d).rank = _ :=
    Collation.rank_placeOf (Value.isJson_getD (hm.isJson_of_mem hd) (Name.normalizeField field))
  rw [hnull] at hrank
  have hjson := Value.isJson_getD (hm.isJson_of_mem hd) (Name.normalizeField field)
  have hne := (hvalues d hd).1
  generalize d.2.getD (Name.normalizeField field) = v at hrank hjson hne
  cases v with
  | null => cases hne
  | _ => cases hrank

end

section
include hdistinct

/-- Documents at the same place are the same. -/
theorem eq_of_fieldPlace {c d : String × Entries} (hc : c ∈ m.documentsOf e)
    (hd : d ∈ m.documentsOf e) (h : (fieldPlace field c).compare? (fieldPlace field d) = some .eq) :
    c = d := by
  by_contra hne
  have : Std.Symm fun c d => (fieldPlace field c).compare? (fieldPlace field d) ≠ some .eq :=
    ⟨fun c d h heq => h (by rw [Collation.compare?_swap (fieldPlace field d), heq]; rfl)⟩
  exact hdistinct.forall hc hd hne h

include hm

/-- The index of the field has the documents in ascending order. -/
theorem pairwise_fieldPlace :
    ((m.rows e [Name.normalizeField field]).map Row.toDocument).Pairwise fun c d =>
      (fieldPlace field c).compare? (fieldPlace field d) = some .lt := by
  have hnodup : ((m.rows e [Name.normalizeField field]).map Row.toDocument).Pairwise (· ≠ ·) := by
    refine List.Nodup.of_map Prod.fst ?_
    rw [List.map_map]
    exact hm.nodup_rows e _
  refine List.pairwise_map.2 (((hm.pairwise_rows e _).and (List.pairwise_map.1 hnodup)).imp_of_mem ?_)
  rintro r s hr hs ⟨hle, hne⟩
  rw [hm.place_eq_of_mem_rows hr, hm.place_eq_of_mem_rows hs] at hle
  obtain ⟨c, hc, rfl⟩ := hm.exists_of_mem_rows hr
  obtain ⟨d, hd, rfl⟩ := hm.exists_of_mem_rows hs
  rw [Row.ofDocument, Row.ofDocument, Collation.placeOf_list (hm.isJson_fields hc _),
    Collation.placeOf_list (hm.isJson_fields hd _)] at hle
  rcases Collation.atMost_cons.1 hle with hlt | ⟨heq, -⟩
  · exact hlt
  · exact absurd (eq_of_fieldPlace hdistinct hc hd heq) hne

end

include hm hdistinct hvalues

/-- Sorted by the field, the documents of the type come as the index of the field has them, through
whatever index they were found. -/
theorem sort_documentsOf (keyFields : List String) :
    Record.sort (((m.rows e keyFields).map Row.toDocument).map e.recordOf) (.str field) =
      .ok (((m.rows e [Name.normalizeField field]).map Row.toDocument).map e.recordOf) := by
  have hfound := hm.toDocument_perm e keyFields
  have hindexed := hm.toDocument_perm e [Name.normalizeField field]
  have hjson : ∀ d ∈ ((m.rows e keyFields).map Row.toDocument).map e.documentOf, d.HoldsJson :=
    List.forall_mem_map.2 fun d hd => hm.isJson_of_mem (hfound.mem_iff.1 hd)
  have hsorted := Document.pairwise_sortedBy hjson (.str field)
  have hperm := Document.sortedBy_perm (.str field)
    (((m.rows e keyFields).map Row.toDocument).map e.documentOf)
  have hascending : (((m.rows e [Name.normalizeField field]).map Row.toDocument).map
      e.documentOf).Pairwise fun c d => (Record.place (c.valueOf (.str field))).Leads
        (Record.place (d.valueOf (.str field))) := by
    refine List.pairwise_map.2 ((pairwise_fieldPlace hm hdistinct).imp_of_mem ?_)
    intro c d hc hd hlt
    rw [hindexed.mem_iff] at hc hd
    rw [place_documentOf hm hvalues hc, place_documentOf hm hvalues hd]
    exact .inr ⟨fieldPlace_ne_null hm hvalues hc, Collation.atMost_iff.2 (.inl hlt)⟩
  have heq : Document.sortedBy (.str field)
      (((m.rows e keyFields).map Row.toDocument).map e.documentOf) =
        ((m.rows e [Name.normalizeField field]).map Row.toDocument).map e.documentOf := by
    -- both lists are the documents of the type, and no two of these are at one place
    refine List.Perm.eq_of_pairwise (fun a b ha hb hab hba => ?_) hsorted hascending
      (hperm.trans ((hfound.trans hindexed.symm).map _))
    obtain ⟨c, hc, rfl⟩ := List.mem_map.1 (hperm.mem_iff.1 ha)
    obtain ⟨d, hd, rfl⟩ := List.mem_map.1 hb
    rw [hfound.mem_iff] at hc
    rw [hindexed.mem_iff] at hd
    rw [place_documentOf hm hvalues hc, place_documentOf hm hvalues hd] at hab hba
    refine congrArg _ (eq_of_fieldPlace hdistinct hc hd (Collation.compare?_eq_of_atMost ?_ ?_))
    · exact (hab.resolve_left (fieldPlace_ne_null hm hvalues hd)).2
    · exact (hba.resolve_left (fieldPlace_ne_null hm hvalues hc)).2
  have hrecords (ds : List (String × Entries)) :
      ds.map e.recordOf = (ds.map e.documentOf).map Record.document := (List.map_map).symm
  rw [hrecords, hrecords, Record.sort_documents hjson, heq]

end

/-- A store of people with scores of several kinds, and of a pet without one. -/
def scored : Memory :=
  { documents := [
      (.str "p1", .dict [(.str "_id", .str "p1"), (.str "doc_type", .str "Person"),
        (.str "score", .list [.int 2, .list [.null, .str "b"]])]),
      (.str "p2", .dict [(.str "_id", .str "p2"), (.str "doc_type", .str "Person"),
        (.str "score", .str "high")]),
      (.str "p3", .dict [(.str "_id", .str "p3"), (.str "doc_type", .str "Person"),
        (.str "score", .int 3)]),
      (.str "p4", .dict [(.str "_id", .str "p4"), (.str "doc_type", .str "Person"),
        (.str "score", .list [.float (.ofInt 2), .list []])]),
      (.str "pet1", .dict [(.str "_id", .str "pet1"), (.str "doc_type", .str "Pet")])] }

end ViewFinder
