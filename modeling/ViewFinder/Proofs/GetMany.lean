import ViewFinder.Proofs.Found
import ViewFinder.Proofs.Get
import ViewFinder.Proofs.Value.Relisted

/-!
# Loading several documents by id

Several ids are looked up like a list of values for the field of the id: what comes back are the
documents of the type that have the ids, in the order of the ids, put in the order of the type's own
field if it names one (`Store.Memory.outcome_getMany`). The conditions of the options give way to that
list. So loading several agrees with loading each of them if and only if all of them meet the
conditions, and are in the order of the type already (`getMany_agrees_iff`).
-/

namespace ViewFinder

open Store

/-! ## Each id once -/

section
variable {α : Type} [BEq α] [LawfulBEq α]

theorem eraseDups_concat (l : List α) (a : α) :
    (l ++ [a]).eraseDups = if l.contains a then l.eraseDups else l.eraseDups ++ [a] := by
  rw [List.eraseDups_append, List.removeAll, List.filter_singleton, List.elem_eq_contains]
  cases l.contains a <;> simp [List.eraseDups_cons]

theorem nodup_eraseDups (l : List α) : l.eraseDups.Nodup := by
  induction l using List.reverseRecOn with
  | nil => exact List.nodup_nil
  | append_singleton l a ih =>
    rw [eraseDups_concat]
    split
    · exact ih
    · next hnew =>
      refine List.nodup_append'.2 ⟨ih, List.nodup_singleton a, ?_⟩
      simpa using hnew

/-- Values that are told apart like what they are made of are kept where these are kept. -/
theorem Value.distinct_map {f : α → Value} {same : Value → Value → Bool}
    (hf : ∀ a b, same (f a) (f b) = (a == b)) (l : List α) :
    Value.distinct same (l.map f) = l.eraseDups.map f := by
  induction l using List.reverseRecOn with
  | nil => rfl
  | append_singleton l a ih =>
    have hany : (l.eraseDups.map f).any (same · (f a)) = l.contains a := by
      rw [List.any_map, Bool.eq_iff_iff]
      simp [hf]
    rw [List.map_append, List.map_singleton, Value.distinct_concat, ih, hany, eraseDups_concat]
    split <;> simp

end

/-- An id as it is given, null for none. -/
def Store.idValue (id : Option String) : Value := (id.map Value.str).getD .null

/-- The ids that are given, each once. -/
def Store.namedIds (ids : List (Option String)) : List String := ids.reduceOption.eraseDups

/-- Nulls are left out of the ids, and repetitions. -/
theorem Store.distinct_ids (ids : List (Option String)) :
    Value.distinct Value.sameItem ((ids.map idValue).filter (!·.isNull)) = (namedIds ids).map .str := by
  have hnulls : (ids.map idValue).filter (!·.isNull) = ids.reduceOption.map .str := by
    induction ids with
    | nil => rfl
    | cons id ids ih =>
      cases id with
      | none => exact ih
      | some id => exact congrArg (Value.str id :: ·) ih
  rw [hnulls, Value.distinct_map Value.sameItem_str, namedIds]

/-! ## The documents of ids -/

/-- The document of the type that has an id, if there is one. -/
def Store.Memory.documentNamed? (m : Memory) (e : EntityType) (id : String) :
    Option (String × Entries) :=
  (m.documentsOf e).find? (·.1 == id)

section
variable {m : Memory} {e : EntityType}

/-- What stands in an entry of a store under a text is of the type or not. -/
theorem EntityType.document?_eq {id : String} (hid : id.startsWith Index.designPrefix = false)
    (es : Entries) :
    e.document? (.str id, .dict es) = if e.isType es then some (id, es) else none := by
  rw [document?, hid]
  rfl

variable (hm : m.HoldsJson)
include hm

/-- It is the stored one, if that is of the type. -/
theorem Store.Memory.documentNamed?_eq {id : String}
    (hid : id.startsWith Index.designPrefix = false) : m.documentNamed? e id =
      (m.documents.get? id).bind fun document => e.document? (.str id, document) := by
  have hfind {ds : Entries} (hds : ds.Named) : (ds.filterMap e.document?).find? (·.1 == id) =
      (ds.get? id).bind fun document => e.document? (.str id, document) := by
    induction ds with
    | nil => rfl
    | cons d ds ih =>
      obtain ⟨name, hname, hnone, hrest⟩ := hds.of_cons
      obtain ⟨key, document⟩ := d
      cases hname
      have hmade : ∀ made, e.document? (.str name, document) = some made → made.1 = name := by
        intro made hmade
        rw [EntityType.document?.eq_def] at hmade
        split at hmade
        · next heq =>
          obtain ⟨-, hmade⟩ := Option.ite_none_right_eq_some.1 hmade
          cases hmade
          cases heq
          rfl
        · cases hmade
      rw [List.filterMap_cons, Entries.get?_cons_str]
      by_cases hsame : name = id
      · subst hsame
        rw [if_pos rfl, Option.bind_some]
        cases hdocument : e.document? (.str name, document) with
        | none =>
          rw [ih hrest, hnone]
          rfl
        | some made =>
          exact List.find?_cons_of_pos (beq_iff_eq.2 (hmade made hdocument))
      · rw [if_neg hsame]
        cases hdocument : e.document? (.str name, document) with
        | none => exact ih hrest
        | some made =>
          rw [← ih hrest]
          refine List.find?_cons_of_neg ?_
          rw [hmade made hdocument, beq_iff_eq]
          exact hsame
  exact hfind hm.named

/-- Documents of a type are there under their own ids. -/
theorem Store.Memory.OwnIds.getD_id (hown : m.OwnIds) {d : String × Entries}
    (hd : d ∈ m.documentsOf e) : d.2.getD "_id" = .str d.1 := by
  obtain ⟨entry, hmem, hd⟩ := List.mem_filterMap.1 hd
  obtain ⟨id, es, rfl, -⟩ := hm.exists_of_mem hmem
  rw [EntityType.document?, Option.ite_none_right_eq_some] at hd
  obtain ⟨-, hd⟩ := hd
  cases hd
  exact hown _ hmem es rfl

/-- Under the id for its key a document has one row, the others have none. -/
theorem Store.Memory.withKey_id (hown : m.OwnIds) (id : String) :
    (Index.withKey (m.rows e ["_id"]) (.list [.str id])).map Row.toDocument =
      (m.documentNamed? e id).toList := by
  have hperm := hm.filter_toDocument_perm e ["_id"] fun r => r.key.equal (.list [.str id])
  have hkey : ∀ d ∈ m.documentsOf e,
      (Row.ofDocument ["_id"] d).key.equal (.list [.str id]) = (d.1 == id) := by
    intro d hd
    rw [Row.ofDocument, List.map_singleton, hown.getD_id hm hd]
    simp [Value.equal, Value.agree, Value.agreeAll, Value.isSameNaN]
  have hone {ds : List (String × Entries)} (hds : (ds.map (·.1)).Nodup) :
      ds.filter (·.1 == id) = (ds.find? (·.1 == id)).toList := by
    induction ds with
    | nil => rfl
    | cons d ds ih =>
      obtain ⟨hnew, hds⟩ := List.nodup_cons.1 hds
      by_cases hsame : d.1 = id
      · have hrest : ds.filter (·.1 == id) = [] := by
          refine List.filter_eq_nil_iff.2 fun d' hd' heq => hnew (List.mem_map.2 ⟨d', hd', ?_⟩)
          exact (beq_iff_eq.1 heq).trans hsame.symm
        simp [hsame, hrest]
      · simp [hsame, ih hds]
  rw [List.filter_congr hkey, hone (hm.nodup_documentsOf e)] at hperm
  rw [Index.withKey, documentNamed?]
  cases hfound : (m.documentsOf e).find? (·.1 == id) with
  | none =>
    rw [hfound] at hperm
    exact List.perm_nil.1 hperm
  | some d =>
    rw [hfound] at hperm
    exact List.perm_singleton.1 hperm

/-- So the ids find their documents, in order. -/
theorem Store.Memory.withKeys_ids (hown : m.OwnIds) {ids : List String} (hids : ids.Nodup) :
    (Index.withKeys (m.rows e ["_id"]) (Query.keysOf [.list (ids.map .str)])).map Row.toDocument =
      ids.filterMap (m.documentNamed? e) := by
  have hkeys : Query.keysOf [.list (ids.map .str)] = ids.map fun id => .list [.str id] := by
    have hchoices : (Query.combinations [ids.map Value.str]).map Value.list =
        ids.map fun id => .list [.str id] := by
      simp [Query.combinations, List.flatMap_map, ← List.map_eq_flatMap]
    refine (congrArg (Value.distinct Value.sameItem) hchoices).trans (Value.distinct_of_pairwise ?_)
    refine List.pairwise_map.2 (hids.imp fun {a b} hne => ?_)
    simpa [Value.sameItem, Value.equal, Value.agree, Value.agreeAll, Value.isSameNaN] using hne
  rw [hkeys, Index.withKeys, List.flatMap_map, List.map_flatMap, List.filterMap_eq_flatMap_toList]
  exact List.flatMap_congr fun id _ => withKey_id hm hown id

end

/-! ## Loading -/

/-- The conditions that several ids are looked up with. -/
def Store.idConditions (ids : List String) : Entries := [(.str "_id", .list (ids.map .str))]

/-- What documents come to that are loaded together, in the order of the type. -/
def EntityType.loadAll (e : EntityType) (readonly : Value) (ds : List (String × Entries)) :
    Except Fault Result :=
  (ds.mapM (e.makeRecord readonly)).bind fun rs =>
    (if e.defaultSort.truthy then Record.sort rs e.defaultSort else pure rs).map .records

/-- What a document comes to that is loaded alone, if it meets the conditions. -/
def EntityType.loadOne? (e : EntityType) (readonly : Value) (conditions : Entries)
    (d : String × Entries) : Option Record :=
  if Finder.meets d.2 conditions then (e.makeRecord readonly d).toOption else none

section
variable {m : Memory} {e : EntityType} {designName : String} (hm : m.HoldsJson) (hown : m.OwnIds)

include hm hown in
/-- Something is made of each document of a type. -/
theorem exists_instantiate_of_mem {d : String × Entries} (hd : d ∈ m.documentsOf e) :
    ∃ record, e.instantiate (.dict d.2) = .ok record :=
  e.exists_instantiate ((Value.isJson_dict d.2).1 (hm.isJson_of_mem hd)).1 (hown.getD_id hm hd)

variable (he : e.HasIdentifiers) (hdesign : e.designName = .ok designName)
  (habsent : m.documents.get? (Registry.designId designName) = none)
include hm hown he hdesign habsent

/-- Looking up ids finds their documents, in order. -/
theorem findWith_ids_ends {ids : List String} (hne : ids ≠ []) (hids : ids.Nodup) (readonly : Value)
    (p : Profile) (allowAdHoc : Bool) : ∃ after,
      ((Database.finderOf e designName p allowAdHoc).findWith
        { conditions := .dict (idConditions ids), readonly }).Ends m
      (e.loadAll readonly (ids.filterMap (m.documentNamed? e))) after := by
  have hnames : ∀ c ∈ idConditions ids, c.1.isIdentifier = true :=
    List.forall_mem_singleton.2 (show Value.isIdentifier (.str "_id") = true by decide)
  have hdistinct : ((idConditions ids).map fun c => Name.normalizeField c.1.text).Nodup :=
    List.nodup_singleton _
  have hchoice : ∀ c ∈ idConditions ids, Condition.isChoice c.2 = true :=
    List.forall_mem_singleton.2 (by simp [Condition.isChoice, Value.isAtom, hne])
  have hsearched := Query.searchFields_conditions hnames hdistinct e (List.cons_ne_nil _ _)
    (o := { conditions := .dict (idConditions ids), readonly }) rfl rfl
  have hanswerable := (Query.answerable_conditions hnames hdistinct
    (s := (Database.finderOf e designName p allowAdHoc).setting) hm he hdesign habsent
      (List.cons_ne_nil _ _)).congr hsearched rfl
  obtain ⟨q, total, after, hq, hends⟩ := Query.find_ends hanswerable ⟨rfl, rfl, rfl, rfl, rfl⟩ rfl
    hchoice ⟨.inl rfl, .inl rfl⟩ (List.cons_ne_nil _ _)
  have hrows : ∀ r ∈ Index.withKeys (m.rows e ["_id"]) (Query.keysOf [.list (ids.map .str)]),
      ∃ d ∈ m.documentsOf e, r = Row.ofDocument ["_id"] d := fun r hr =>
    hm.exists_of_mem_rows (Index.mem_of_mem_withKeys hr)
  have hraw : (Value.bool false).truthy = false := rfl
  have hmade := EntityType.materialize_of_made (e := e) total 0
    (fun r hr => by
      obtain ⟨d, -, rfl⟩ := hrows r hr
      exact ⟨d.2, rfl⟩)
    (fun r hr => by
      obtain ⟨d, hd, rfl⟩ := hrows r hr
      exact exists_instantiate_of_mem hm hown hd) hraw readonly .null
  have hfind := Finder.findWith_ends (f := Database.finderOf e designName p allowAdHoc) hq hends
  rw [Window.cut_of_null rfl rfl] at hfind
  rw [Store.Memory.withKeys_ids hm hown hids] at hmade
  rw [EntityType.loadAll]
  exact ⟨after, hmade ▸ hfind⟩

/-- What loading by several ids comes to. -/
theorem outcome_getMany {options readonly : Value} {conditions : Entries}
    (hoptions : Options.ofValue options = .ok { conditions := .dict conditions, readonly })
    {ids : List (Option String)} {a b : String} {rest : List String}
    (hids : namedIds ids = a :: b :: rest) (p : Profile) (allowAdHoc : Bool) :
    m.outcome p allowAdHoc e (·.getMany (.list (ids.map idValue)) options) =
      e.loadAll readonly ((namedIds ids).filterMap (m.documentNamed? e)) := by
  have hnodup : (namedIds ids).Nodup := nodup_eraseDups _
  obtain ⟨after, hends⟩ := findWith_ids_ends hm hown he hdesign habsent
    (by rw [hids]; exact List.cons_ne_nil _ _) hnodup readonly p allowAdHoc
  refine Dialogue.Ends.outcome_eq hdesign (?_ : Dialogue.Ends _ m _ after)
  refine Dialogue.ends_lift rfl ?_
  rw [distinct_ids, hids]
  rw [hids] at hends
  exact Dialogue.ends_lift hoptions hends

omit habsent in
/-- What loading by one id comes to, if to anything. -/
theorem toOption_outcome_get {options readonly : Value} {conditions : Entries}
    (hoptions : Options.ofValue options = .ok { conditions := .dict conditions, readonly })
    {id : String} (hid : id.startsWith Index.designPrefix = false) (p : Profile) (allowAdHoc : Bool) :
    (m.outcome p allowAdHoc e (·.get (.str id) options)).toOption =
      (m.documentNamed? e id).bind (e.loadOne? readonly conditions) := by
  rw [Store.Memory.documentNamed?_eq hm hid]
  cases hdoc : m.documents.get? id with
  | none =>
    have hends := Finder.getWith_ends_missing (f := Database.finderOf e designName p allowAdHoc)
      (o := { conditions := .dict conditions, readonly }) hdoc
    rw [Dialogue.Ends.outcome_eq hdesign (Dialogue.ends_lift hoptions hends)]
    rfl
  | some document =>
    have hmem := Entries.mem_of_get? hdoc
    obtain ⟨es, rfl, hjson⟩ := hm.objects _ hmem
    obtain ⟨field, hfield, -⟩ := Value.exists_of_isIdentifier he.field
    obtain ⟨record, hrecord⟩ :=
      e.exists_instantiate ((Value.isJson_dict es).1 hjson).1 (hown _ hmem es rfl)
    rw [outcome_get hdesign (by rw [hfield]; rfl) hdoc hoptions rfl hrecord, Option.bind_some,
      EntityType.document?_eq hid]
    cases e.isType es with
    | false => rfl
    | true =>
      cases hmeets : Finder.meets es conditions <;>
        simp [EntityType.loadOne?, hmeets, Except.toOption]

end

namespace EntityType

section
variable {e : EntityType} {readonly : Value} {ds : List (String × Entries)}

/-- Only documents can be marked, and only one factory makes them. -/
theorem factory_eq_of_makeRecord (hreadonly : readonly.truthy = true) {d : String × Entries}
    {record : Record} (h : e.makeRecord readonly d = .ok record) : e.factory = .document := by
  obtain ⟨made, hmade, hmarked⟩ := Fault.bind_eq_ok_iff.1 h
  rw [if_pos hreadonly] at hmarked
  rw [instantiate] at hmade
  cases hfactory : e.factory with
  | document => rfl
  | mapping =>
    rw [hfactory] at hmade
    cases hmade
    cases hmarked
  | object | identity =>
    rw [hfactory] at hmade
    simp only [Except.map] at hmade
    split at hmade
    · cases hmade
    · cases hmade
      cases hmarked

/-- A document that something is made of becomes something, if it need not be marked or can be. -/
theorem exists_makeRecord {d : String × Entries}
    (hmade : ∃ record, e.instantiate (.dict d.2) = .ok record)
    (hmark : readonly.truthy = true → e.factory = .document) :
    ∃ record, e.makeRecord readonly d = .ok record := by
  by_cases hreadonly : readonly.truthy = true
  · exact ⟨_, makeRecord_eq (hmark hreadonly) readonly d⟩
  · obtain ⟨record, hrecord⟩ := hmade
    exact ⟨record, by rw [makeRecord, hrecord]; exact if_neg hreadonly⟩

/-- Records made of JSON documents are JSON. -/
theorem isJson_of_makeRecord {d : String × Entries} (hd : (Value.dict d.2).isJson = true)
    {record : Record} (h : e.makeRecord readonly d = .ok record) : record.isJson = true := by
  obtain ⟨made, hmade, hmarked⟩ := Fault.bind_eq_ok_iff.1 h
  have hjson := isJson_of_instantiate hd hmade
  split at hmarked
  · exact Record.isJson_of_markReadonly hjson hmarked
  · cases hmarked
    exact hjson

variable {conditions : Entries}

theorem exists_of_loadOne? {d : String × Entries}
    (h : (e.loadOne? readonly conditions d).isSome = true) :
    Finder.meets d.2 conditions = true ∧ ∃ record, e.makeRecord readonly d = .ok record := by
  rw [loadOne?] at h
  split at h
  · next hmeets =>
    cases hrecord : e.makeRecord readonly d with
    | error fault =>
      rw [hrecord] at h
      cases h
    | ok record => exact ⟨hmeets, record, rfl⟩
  · cases h

/-- Documents that all meet the conditions are loaded one by one as they are together. -/
theorem filterMap_loadOne? {rs : List Record} (hrs : ds.mapM (e.makeRecord readonly) = .ok rs)
    (hmeets : ∀ d ∈ ds, Finder.meets d.2 conditions = true) :
    ds.filterMap (e.loadOne? readonly conditions) = rs := by
  rw [Fault.mapM_eq_ok_iff] at hrs
  induction hrs with
  | nil => rfl
  | @cons d r ds rs hr _ ih =>
    obtain ⟨hd, hds⟩ := List.forall_mem_cons.1 hmeets
    have hone : e.loadOne? readonly conditions d = some r := by
      rw [loadOne?, if_pos hd, hr]
      rfl
    rw [List.filterMap_cons_some hone, ih hds]

theorem loadAll_eq_ok_iff {rs : List Record} : e.loadAll readonly ds = .ok (.records rs) ↔
    ∃ made, ds.mapM (e.makeRecord readonly) = .ok made ∧
      (if e.defaultSort.truthy then Record.sort made e.defaultSort else pure made) = .ok rs := by
  have hrecords (x : Except Fault (List Record)) :
      x.map Result.records = .ok (.records rs) ↔ x = .ok rs := by
    cases x <;> simp [Except.map]
  rw [loadAll]
  refine Fault.bind_eq_ok_iff.trans ?_
  simp only [hrecords]

variable (hjson : ∀ d ∈ ds, (Value.dict d.2).isJson = true)
include hjson

/-- As many come back as there are documents. -/
theorem length_of_loadAll {rs : List Record} (h : e.loadAll readonly ds = .ok (.records rs)) :
    rs.length = ds.length := by
  obtain ⟨made, hmade, hrs⟩ := loadAll_eq_ok_iff.1 h
  have hmadejson : ∀ r ∈ made, r.isJson = true := fun r hr => by
    obtain ⟨d, hd, hmakes⟩ := Fault.exists_of_mem_mapM hmade hr
    exact isJson_of_makeRecord (hjson d hd) hmakes
  rw [(Fault.mapM_eq_ok_iff.1 hmade).length_eq]
  split at hrs
  · exact (Record.sort_perm hmadejson hrs).length_eq
  · exact congrArg List.length (Except.ok.inj hrs).symm

/-- Loading documents together agrees with loading each of them if and only if they can be marked where
that is asked for, all of them meet the conditions, and the order of the type, if it has one, leaves them
where they are. -/
theorem loadAll_eq_iff (hmade : ∀ d ∈ ds, ∃ record, e.instantiate (.dict d.2) = .ok record)
    (hne : ds ≠ []) :
    e.loadAll readonly ds = .ok (.records (ds.filterMap (e.loadOne? readonly conditions))) ↔
      (readonly.truthy = true → e.factory = .document) ∧
      (∀ d ∈ ds, Finder.meets d.2 conditions = true) ∧
      (e.defaultSort.truthy = true → ∀ rs, ds.mapM (e.makeRecord readonly) = .ok rs →
        Record.sort rs e.defaultSort = .ok rs) := by
  constructor
  · intro h
    -- as many come back as there are documents, so each of them was loaded
    have hloaded : ∀ d ∈ ds, Finder.meets d.2 conditions = true ∧
        ∃ record, e.makeRecord readonly d = .ok record := fun d hd =>
      exists_of_loadOne? (List.filterMap_length_eq_length.1 (length_of_loadAll hjson h) d hd)
    obtain ⟨made, hall, hsorted⟩ := loadAll_eq_ok_iff.1 h
    refine ⟨fun hreadonly => ?_, fun d hd => (hloaded d hd).1, fun hsort rs hrs => ?_⟩
    · obtain ⟨d, hd⟩ := List.exists_mem_of_ne_nil ds hne
      obtain ⟨record, hrecord⟩ := (hloaded d hd).2
      exact factory_eq_of_makeRecord hreadonly hrecord
    · rw [hall, Except.ok.injEq] at hrs
      subst hrs
      rwa [if_pos hsort, filterMap_loadOne? hall fun d hd => (hloaded d hd).1] at hsorted
  · rintro ⟨hmark, hmeets, hsorted⟩
    have hall := Fault.mapM_eq_ok (f := e.makeRecord readonly)
      (g := fun d => (e.makeRecord readonly d).toOption.getD default) (l := ds) fun d hd => by
        obtain ⟨record, hrecord⟩ := exists_makeRecord (hmade d hd) hmark
        rw [hrecord]
        rfl
    refine loadAll_eq_ok_iff.2 ⟨_, hall, ?_⟩
    rw [filterMap_loadOne? hall hmeets]
    split
    · next hsort => exact hsorted hsort _ hall
    · rfl

end

end EntityType

section
variable {m : Memory} {e : EntityType} {designName : String} (hm : m.HoldsJson) (hown : m.OwnIds)
  (he : e.HasIdentifiers) (hdesign : e.designName = .ok designName)
  (habsent : m.documents.get? (Registry.designId designName) = none)
  {options readonly : Value} {conditions : Entries}
  (hoptions : Options.ofValue options = .ok { conditions := .dict conditions, readonly })
  {ids : List (Option String)}
  (hids : ∀ id ∈ namedIds ids, id.startsWith Index.designPrefix = false)
  (htwo : 2 ≤ ((namedIds ids).filterMap (m.documentNamed? e)).length)
include hm hown he hdesign habsent hoptions hids htwo

/-- Loading several documents agrees with loading each of them if and only if they can be marked where
that is asked for, all of them meet the conditions, and the order of the type, if it has one, leaves them
where they are. -/
theorem getMany_agrees_iff (p : Profile) (allowAdHoc : Bool) :
    m.outcome p allowAdHoc e (·.getMany (.list (ids.map idValue)) options) =
        .ok (.records ((namedIds ids).filterMap fun id =>
          (m.outcome p allowAdHoc e (·.get (.str id) options)).toOption)) ↔
      (readonly.truthy = true → e.factory = .document) ∧
      (∀ d ∈ (namedIds ids).filterMap (m.documentNamed? e), Finder.meets d.2 conditions = true) ∧
      (e.defaultSort.truthy = true → ∀ rs,
        ((namedIds ids).filterMap (m.documentNamed? e)).mapM (e.makeRecord readonly) = .ok rs →
          Record.sort rs e.defaultSort = .ok rs) := by
  obtain ⟨a, b, rest, hnamed⟩ : ∃ a b rest, namedIds ids = a :: b :: rest := by
    have hlength := Nat.le_trans htwo (List.length_filterMap_le _ _)
    match namedIds ids, hlength with
    | a :: b :: rest, _ => exact ⟨a, b, rest, rfl⟩
  have hgot : (namedIds ids).filterMap (fun id =>
      (m.outcome p allowAdHoc e (·.get (.str id) options)).toOption) =
        ((namedIds ids).filterMap (m.documentNamed? e)).filterMap
          (e.loadOne? readonly conditions) := by
    rw [List.filterMap_filterMap]
    exact List.filterMap_congr fun id hid =>
      toOption_outcome_get hm hown he hdesign hoptions (hids id hid) p allowAdHoc
  have hfound : ∀ d ∈ (namedIds ids).filterMap (m.documentNamed? e), d ∈ m.documentsOf e := by
    intro d hd
    obtain ⟨id, -, hid⟩ := List.mem_filterMap.1 hd
    exact List.mem_of_find?_eq_some hid
  have hne : (namedIds ids).filterMap (m.documentNamed? e) ≠ [] :=
    List.ne_nil_of_length_pos (Nat.lt_of_lt_of_le (by decide) htwo)
  rw [outcome_getMany hm hown he hdesign habsent hoptions hnamed, hgot]
  exact EntityType.loadAll_eq_iff (fun d hd => hm.isJson_of_mem (hfound d hd))
    (fun d hd => exists_instantiate_of_mem hm hown (hfound d hd)) hne

end

/-- Ids of people, one of them twice, one of nobody. -/
def peopleIds : List (Option String) := [some "p2", none, some "p1", some "p9", some "p2"]

theorem getMany_people_agrees :
    people.outcome ⟨{ minor := 9 }⟩ true person (·.getMany (.list (peopleIds.map idValue))
        (.dict [(.str "conditions", .dict [(.str "doc_type", .str "Person")])])) =
      .ok (.records ((namedIds peopleIds).filterMap fun id =>
        (people.outcome ⟨{ minor := 9 }⟩ true person (·.get (.str id)
          (.dict [(.str "conditions", .dict [(.str "doc_type", .str "Person")])]))).toOption)) :=
  (getMany_agrees_iff holdsJson_people ownIds_people hasIdentifiers_person rfl (absent_people _)
    (Options.ofValue_conditions _) (by decide +kernel) (by decide +kernel) _ true).2
      ⟨nofun, by decide +kernel, nofun⟩

/-- The attributes of the second of the people. -/
def secondPerson : Entries :=
  [(.str "_id", .str "p2"), (.str "doc_type", .str "Person"), (.str "grade", .int 11)]

/-- Who has not the grade that is asked for is loaded with another one, though not alone. -/
theorem getMany_people_differs :
    people.outcome ⟨{ minor := 9 }⟩ true person
        (·.getMany (.list ([some "p1", some "p2"].map idValue))
          (.dict [(.str "conditions", .dict [(.str "grade", .int 9)])])) =
      .ok (.records [person.recordOf ("p1", firstPerson), person.recordOf ("p2", secondPerson)]) ∧
    people.outcome ⟨{ minor := 9 }⟩ true person (·.get (.str "p2")
        (.dict [(.str "conditions", .dict [(.str "grade", .int 9)])])) =
      .error (.notFound (.ofType "Person" "p2")) := by
  have hstored : people.documents.get? "p2" = some (.dict secondPerson) := by
    simp [people, secondPerson]
  have hids : namedIds [some "p1", some "p2"] = ["p1", "p2"] := by decide +kernel
  have hnamed {id : String} {doc : Entries} (hid : id.startsWith Index.designPrefix = false)
      (hdoc : people.documents.get? id = some (.dict doc)) (htype : person.isType doc = true) :
      people.documentNamed? person id = some (id, doc) := by
    rw [Memory.documentNamed?_eq holdsJson_people hid, hdoc, Option.bind_some,
      EntityType.document?_eq hid, if_pos htype]
  refine ⟨?_, ?_⟩
  · rw [outcome_getMany holdsJson_people ownIds_people hasIdentifiers_person rfl (absent_people _)
      (Options.ofValue_conditions _) hids, hids, List.filterMap_cons,
      hnamed (by decide +kernel) get?_people (by decide +kernel), List.filterMap_cons,
      hnamed (by decide +kernel) hstored (by decide +kernel)]
    rfl
  · rw [outcome_get rfl rfl hstored (Options.ofValue_conditions _) rfl
      (EntityType.instantiate_dict rfl _), if_neg (by decide +kernel)]
    rfl

end ViewFinder
