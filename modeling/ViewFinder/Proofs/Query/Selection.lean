import ViewFinder.Proofs.Query.Chosen
import ViewFinder.Proofs.Query.Fields

/-!
# The rows that a query comes to

Where a store can answer the queries of a type (`Query.Answerable`), finding comes to the window of
the rows that are chosen, and counting to their number (`Query.find_ends_of_restriction`,
`Query.count_ends_of_restriction`). For acceptable values these are the rows of their keys, one key
after the other (`Query.find_ends`), however many keys the store takes in one request.
-/

namespace ViewFinder

open Store

namespace Query

/-! ## Queries that a store can answer -/

/-- The name of a design document holds no character that no name holds. -/
theorem not_mem_designName {e : EntityType} (he : e.name.isHyphenated = true) {designName : String}
    (h : e.designName = .ok designName) {c : Char} (hc : Text.isNameChar c = false) :
    c ∉ designName.toList := by
  obtain ⟨name, hname, hhyphens⟩ := Value.exists_of_isHyphenated he
  rw [EntityType.designName, hname] at h
  cases h
  rw [Name.underscore, String.toList_ofList]
  exact Text.not_mem_of_nameChars (Name.nameChars_underscoreChars hhyphens) hc

/-- The path of the view of a query leads to the design document of the type, and in it to what the
name of the view has before any slash. -/
theorem Compiles.viewAt?_viewPath {q : CompiledQuery} {s : Setting} {e : EntityType} {o : Options}
    {operation : String} {fields : List String} {base : Entries}
    (h : Compiles q e s.profile o operation fields base) (he : e.HasIdentifiers)
    (hdesign : e.designName = .ok s.designName) {first : List Char} {rest : List (List Char)}
    (hview : (Query.viewName fields operation).toList.splitOn '/' = first :: rest) :
    Memory.viewAt? (q.viewPath s.profile) = some (s.designName, String.ofList first) := by
  have hsame := h.designName
  rw [hdesign, Except.ok.injEq] at hsame
  rw [CompiledQuery.viewPath, h.viewName, ← hsame]
  exact s.profile.viewAt?_viewPath (not_mem_designName he.isHyphenated hdesign (by decide)) hview

/-- The documents of the rows chosen are documents of the type. -/
theorem mem_documentsOf_of_mem_chosen {m : Memory} (hm : m.HoldsJson) {e : EntityType}
    {base : Entries} {fields : List String} {d : String × Entries}
    (hd : d ∈ (chosen base (m.rows e fields)).map Row.toDocument) : d ∈ m.documentsOf e := by
  obtain ⟨r, hr, rfl⟩ := List.mem_map.1 hd
  obtain ⟨d, hmem, rfl⟩ := hm.exists_of_mem_rows (mem_of_mem_chosen hr)
  exact hmem

/-- A store can answer queries of a type with some options: their map function can be read, as one
that emits some fields, and their views can be registered, or need not be. -/
structure Answerable (m : Memory) (s : Setting) (e : EntityType) (o : Options)
    (fields keyFields : List String) : Prop where
  json : m.HoldsJson
  identifiers : e.HasIdentifiers
  designName : e.designName = .ok s.designName
  searched : searchFields e o = .ok fields
  permitted : o.slow.truthy = true → s.allowAdHoc = true
  slashless : o.slow.truthy = false → ∀ f ∈ fields, '/' ∉ f.toList
  source : ∃ source, mapFunction e fields = .ok source ∧
    Emission.ofSource (.str source) = .ok (e.emission keyFields) ∧
      (o.slow.truthy = false → ∀ operation ∈ [findPrefix, countOperation s.profile],
        Registry.Admits m s.designName
          ⟨.str (viewName fields operation), .str source, reduceSource s.profile⟩)

/-- Names that hold neither slash nor line break make up a key whose map function can be read. -/
theorem exists_readable {e : EntityType} (he : e.IsTagged) {o : Options} {names : List Value}
    (hgiven : givenNames o = .ok names)
    (hclear : ∀ n ∈ names, '/' ∉ n.text.toList ∧ '\n' ∉ n.text.toList) :
    ∃ fields source keyFields, searchFields e o = .ok fields ∧ mapFunction e fields = .ok source ∧
      Emission.ofSource (.str source) = .ok (e.emission keyFields) ∧
        ∀ f ∈ fields, '/' ∉ f.toList := by
  obtain ⟨fields, hsearched, -, hfields⟩ := exists_searchFields e hgiven
  have hnot {c : Char} (hc : Text.isNameChar c = false) (hnames : ∀ n ∈ names, c ∉ n.text.toList) :
      ∀ f ∈ fields, c ∉ f.toList := by
    intro f hf
    rcases hfields f hf with rfl | ⟨n, hn, rfl⟩
    · exact Text.not_mem_of_nameChars
        (Name.nameChars_of_isIdentifier (isIdentifier_defaultKeyField e)) hc
    · exact not_mem_normalizeField hc (hnames n hn)
  obtain ⟨source, keyFields, hsource, hread⟩ := exists_ofSource_mapFunction he
    (hnot (by decide) fun n hn => (hclear n hn).2)
  exact ⟨fields, source, keyFields, hsearched, hsource, hread,
    hnot (by decide) fun n hn => (hclear n hn).1⟩

/-- An identifier holds neither slash nor line break. -/
theorem clear_of_isIdentifier {v : Value} (h : v.isIdentifier = true) :
    '/' ∉ v.text.toList ∧ '\n' ∉ v.text.toList := by
  obtain ⟨name, rfl, hname⟩ := Value.exists_of_isIdentifier h
  have hchars := Name.nameChars_of_isIdentifier hname
  exact ⟨Text.not_mem_of_nameChars hchars (by decide), Text.not_mem_of_nameChars hchars (by decide)⟩

/-- The values of conditions in the order of the stored names. -/
def sortedValues (conditions : Entries) : List Value := (sortedConditions conditions).map (·.2)

section
variable {m : Memory} {s : Setting} {e : EntityType} {o : Options} {fields keyFields : List String}
  {conditions : Entries}

/-- Sorting conditions changes only their order. -/
theorem sortedConditions_perm (conditions : Entries) : (sortedConditions conditions).Perm
    (conditions.map fun c => (Name.normalizeField c.1.text, c.2)) :=
  Sorting.sort_perm _ _

theorem mem_sortedValues {v : Value} :
    v ∈ sortedValues conditions ↔ ∃ c ∈ conditions, c.2 = v := by
  rw [sortedValues, ((sortedConditions_perm conditions).map _).mem_iff, List.map_map, List.mem_map]
  exact Iff.rfl

theorem forall_mem_sortedValues {p : Value → Prop} :
    (∀ v ∈ sortedValues conditions, p v) ↔ ∀ c ∈ conditions, p c.2 := by
  simp only [mem_sortedValues]
  exact ⟨fun h c hc => h c.2 ⟨c, hc, rfl⟩, fun h v ⟨c, hc, heq⟩ => heq ▸ h c hc⟩

/-- What can be answered depends on the fields of the key, and on whether there is a stored view. -/
theorem Answerable.congr {o' : Options} (h : Answerable m s e o fields keyFields)
    (hsearched : searchFields e o' = .ok fields) (hslow : o'.slow = o.slow) :
    Answerable m s e o' fields keyFields := by
  refine ⟨h.json, h.identifiers, h.designName, hsearched, ?_, ?_, ?_⟩
  · rw [hslow]
    exact h.permitted
  · rw [hslow]
    exact h.slashless
  · rw [hslow]
    exact h.source

/-- The window of the options does not matter to it. -/
theorem Answerable.window (h : Answerable m s e o fields keyFields) (limit offset : Value) :
    Answerable m s e { o with limit, offset } fields keyFields :=
  h.congr h.searched rfl

section
variable (h : Answerable m s e o fields keyFields) {q : CompiledQuery} {operation : String}
  {base : Entries} (hq : Compiles q e s.profile o operation fields base)
include h hq

theorem Answerable.ofDocuments_eq :
    Index.ofDocuments q.mapSource m.documents = .ok (m.rows e keyFields) := by
  obtain ⟨source, hsource, hread, -⟩ := h.source
  obtain ⟨source', hsource', heq⟩ := hq.mapSource
  rw [hsource] at hsource'
  cases hsource'
  rw [heq]
  exact h.json.ofDocuments_eq h.identifiers.isTagged hread

/-- Queries that can be answered are served. -/
theorem Answerable.served (hop : operation ∈ [findPrefix, countOperation s.profile]) :
    q.Served s m := by
  obtain ⟨source, hsource, -, hadmits⟩ := h.source
  obtain ⟨source', hsource', heq⟩ := hq.mapSource
  rw [hsource] at hsource'
  cases hsource'
  refine ⟨fun hslow => h.permitted (hq.slow ▸ hslow), fun hslow => ?_⟩
  rw [hq.slow] at hslow
  refine ⟨_, hq.viewName, ?_, ?_⟩
  · have hprefixes : ∀ operation ∈ [findPrefix, countPrefix], '/' ∉ operation.toList := by decide
    have hprefix : operation ∈ [findPrefix, countPrefix] := by
      rcases List.mem_cons.1 hop with rfl | hop
      · exact List.mem_cons_self ..
      · exact List.mem_singleton.1 hop ▸ countOperation_mem _
    have hview : '/' ∉ (Query.viewName fields operation).toList :=
      not_mem_viewName (by decide) (h.slashless hslow) (hprefixes operation hprefix)
    have hpath := hq.viewAt?_viewPath h.identifiers h.designName (List.splitOn_eq_singleton hview)
    rwa [String.ofList_toList] at hpath
  · rw [CompiledQuery.view, hq.viewName, heq, hq.reduceSource]
    exact hadmits hslow operation hop

end

/-- Where there is no design document queries can be answered, if their map function can be read. -/
theorem answerable_of_absent (hm : m.HoldsJson) (he : e.HasIdentifiers)
    (hdesign : e.designName = .ok s.designName)
    (habsent : m.documents.get? (Registry.designId s.designName) = none)
    (hfields : searchFields e o = .ok fields)
    (hpermitted : o.slow.truthy = true → s.allowAdHoc = true)
    (hslashless : o.slow.truthy = false → ∀ f ∈ fields, '/' ∉ f.toList) {source : String}
    (hsource : mapFunction e fields = .ok source)
    (hread : Emission.ofSource (.str source) = .ok (e.emission keyFields)) :
    Answerable m s e o fields keyFields :=
  ⟨hm, he, hdesign, hfields, hpermitted, hslashless, source, hsource, hread,
    fun _ _ _ => .absent _ rfl habsent⟩

/-- Where there is no design document queries for identifiers can be answered. -/
theorem exists_answerable (hm : m.HoldsJson) (he : e.HasIdentifiers)
    (hdesign : e.designName = .ok s.designName)
    (habsent : m.documents.get? (Registry.designId s.designName) = none) {names : List Value}
    (hgiven : givenNames o = .ok names) (hnames : ∀ n ∈ names, n.isIdentifier = true)
    (hpermitted : o.slow.truthy = true → s.allowAdHoc = true) :
    ∃ fields keyFields, Answerable m s e o fields keyFields := by
  obtain ⟨fields, source, keyFields, hsearched, hsource, hread, hslashless⟩ :=
    exists_readable he.isTagged hgiven fun n hn => clear_of_isIdentifier (hnames n hn)
  exact ⟨fields, keyFields, answerable_of_absent hm he hdesign habsent hsearched hpermitted
    (fun _ => hslashless) hsource hread⟩

/-- Exact values have one key. -/
theorem keysOf_of_exact {values : List Value}
    (h : ∀ v ∈ values, Condition.isDiscrete v = false) : keysOf values = [.list values] := by
  have hcombinations : combinations (values.map Condition.accepted) = [values] := by
    induction values with
    | nil => rfl
    | cons v values ih =>
      obtain ⟨hv, hvalues⟩ := List.forall_mem_cons.1 h
      rw [List.map_cons, Condition.accepted_of_exact hv, combinations, ih hvalues]
      rfl
  rw [keysOf, hcombinations]
  rfl

/-! ## Finding and counting -/

section
variable {base params : Entries} (h : Answerable m s e o fields keyFields)
  (hparams : searchValues s.profile o = .ok params)
  (hget : ∀ n, params.get? n = ((windowParams s.profile o).get? n).or (base.get? n))
  (hr : Restriction s.profile base) (hsel : Index.Selectable base)
include h hparams hget hr hsel

/-- A query comes to the window of the rows that are chosen. -/
theorem find_ends_of_restriction (hw : o.HasWindow) :
    ∃ q total after, find e s.profile o = .ok q ∧
      (q.execute s).Ends m (.ok (Window.response total o.skip ((Window.cut o.skip o.limit?
        (chosen base (m.rows e keyFields))).map Row.toValue))) after := by
  obtain ⟨q, hq, hcompiles, hruns⟩ :=
    exists_find h.identifiers.isTagged h.identifiers.exists_name hget h.searched hparams
  obtain ⟨total, after, hends, -⟩ := hcompiles.execute_ends hr hsel
    (h.served hcompiles (List.mem_cons_self ..)) (h.ofDocuments_eq hcompiles) hw hruns
  exact ⟨q, total, after, hq, hends⟩

/-- Counting comes to the number of the rows that are chosen. -/
theorem count_ends_of_restriction (hlimit : o.limit = .null) (hoffset : o.offset = .null) :
    ∃ q response after, count e s.profile o = .ok q ∧ (q.execute s).Ends m (.ok response) after ∧
      (if q.reduced.truthy then Count.reduced response else Count.rows response) =
        .ok (chosen base (m.rows e keyFields)).length := by
  obtain ⟨q, hq, hcompiles, hreduced, hruns, hgroup⟩ :=
    exists_count h.identifiers.isTagged h.identifiers.exists_name hget h.searched hparams
      hr.unreduced
  have hserved := h.served hcompiles (List.mem_cons_of_mem _ (List.mem_cons_self ..))
  have hrows := h.ofDocuments_eq hcompiles
  cases hcounting : s.profile.reduceCounting with
  | true =>
    obtain ⟨response, after, hends, hn⟩ := hcompiles.execute_ends_counted hr hsel hserved hrows
      hcounting (hruns.trans hcounting) (hgroup hcounting)
    refine ⟨q, response, after, hq, hends, ?_⟩
    rw [hreduced, hcounting]
    exact hn
  | false =>
    have hw : o.HasWindow := ⟨.inl hlimit, .inl hoffset⟩
    have hcut (rows : List Row) : Window.cut o.skip o.limit? rows = rows := by
      simp [Options.skip, Options.limit?, hlimit, hoffset]
    obtain ⟨total, after, hends, -⟩ :=
      hcompiles.execute_ends hr hsel hserved hrows hw (hruns.trans hcounting)
    rw [hcut] at hends
    refine ⟨q, _, after, hq, hends, ?_⟩
    rw [hreduced, hcounting, ← List.length_map (f := Row.toValue)]
    exact Count.rows_response total o.skip _

end

/-! ## Keys -/

/-- Where the conditions ask for one thing the parameters are that and the window. -/
theorem exists_searchValues_of_singleton {p : Profile} (ho : o.Plain)
    (hc : o.conditions = .dict conditions) {n : String} (hn : n ∈ ["key", keysName p])
    {vs : List Value}
    (hbase : conditionParams p (sortedValues conditions) = .ok [(.str n, .list vs)]) :
    (∃ params, searchValues p o = .ok params ∧ ∀ k, params.get? k =
      ((windowParams p o).get? k).or (Entries.get? [(.str n, .list vs)] k)) ∧
    Restriction p [(.str n, .list vs)] ∧ Index.Selectable [(.str n, .list vs)] := by
  obtain ⟨hnamed, hnull, -, hr⟩ := restriction_of_conditionParams hbase
  exact ⟨exists_searchValues ho hc hbase hnamed hnull (get?_key_of_bound hn vs), hr,
    selectable_singleton hn vs⟩

/-- Sets of acceptable values ask for the keys of all combinations. -/
theorem exists_params_of_keys {p : Profile} (ho : o.Plain) (hc : o.conditions = .dict conditions)
    (hrange : ∀ c ∈ conditions, Condition.isRange c.2 = false)
    (hdiscrete : ∃ c ∈ conditions, Condition.isDiscrete c.2 = true) {keys : List Value}
    (hkeys : expandKeys (sortedValues conditions) = .ok keys) :
    (∃ params, searchValues p o = .ok params ∧ ∀ k, params.get? k =
      ((windowParams p o).get? k).or (Entries.get? [(.str (keysName p), .list keys)] k)) ∧
    Restriction p [(.str (keysName p), .list keys)] ∧
      Index.Selectable [(.str (keysName p), .list keys)] := by
  obtain ⟨c, hcmem, hdiscrete⟩ := hdiscrete
  have hbase : conditionParams p (sortedValues conditions) =
      .ok [(.str (keysName p), .list keys)] :=
    conditionParams_of_discrete (forall_mem_sortedValues.2 hrange)
      ⟨c.2, mem_sortedValues.2 ⟨c, hcmem, rfl⟩, hdiscrete⟩ hkeys
  exact exists_searchValues_of_singleton ho hc (by simp) hbase

section
variable (h : Answerable m s e o fields keyFields) (ho : o.Plain)
  (hc : o.conditions = .dict conditions) (hrange : ∀ c ∈ conditions, Condition.isRange c.2 = false)
include h ho hc hrange

/-- A query for several keys comes to the window of the rows that it selects. -/
theorem find_ends_of_keys (hw : o.HasWindow)
    (hdiscrete : ∃ c ∈ conditions, Condition.isDiscrete c.2 = true) {keys : List Value}
    (hkeys : expandKeys (sortedValues conditions) = .ok keys)
    (hnodup : ((Index.withKeys (m.rows e keyFields) keys).map Row.id).Nodup) :
    ∃ q total after, find e s.profile o = .ok q ∧
      (q.execute s).Ends m (.ok (Window.response total o.skip ((Window.cut o.skip o.limit?
        (selected s.profile (m.rows e keyFields) keys)).map Row.toValue))) after := by
  obtain ⟨⟨params, hparams, hget⟩, hr, hsel⟩ :=
    exists_params_of_keys ho hc hrange hdiscrete hkeys
  rw [← chosen_keys _ hnodup]
  exact find_ends_of_restriction h hparams hget hr hsel hw

/-- Counting comes to the number of the rows that the query for several keys selects. -/
theorem count_ends_of_keys (hlimit : o.limit = .null) (hoffset : o.offset = .null)
    (hdiscrete : ∃ c ∈ conditions, Condition.isDiscrete c.2 = true) {keys : List Value}
    (hkeys : expandKeys (sortedValues conditions) = .ok keys)
    (hnodup : ((Index.withKeys (m.rows e keyFields) keys).map Row.id).Nodup) :
    ∃ q response after, count e s.profile o = .ok q ∧ (q.execute s).Ends m (.ok response) after ∧
      (if q.reduced.truthy then Count.reduced response else Count.rows response) =
        .ok (selected s.profile (m.rows e keyFields) keys).length := by
  obtain ⟨⟨params, hparams, hget⟩, hr, hsel⟩ :=
    exists_params_of_keys ho hc hrange hdiscrete hkeys
  rw [← chosen_keys _ hnodup]
  exact count_ends_of_restriction h hparams hget hr hsel hlimit hoffset

/-- A query for exact values comes to the window of the rows of their key. -/
theorem find_ends_of_exact (hw : o.HasWindow) (hne : conditions ≠ [])
    (hexact : ∀ c ∈ conditions, Condition.isDiscrete c.2 = false) :
    ∃ q total after, find e s.profile o = .ok q ∧
      (q.execute s).Ends m (.ok (Window.response total o.skip ((Window.cut o.skip o.limit?
        (Index.withKey (m.rows e keyFields) (.list (sortedValues conditions)))).map
          Row.toValue))) after := by
  have hsome : sortedValues conditions ≠ [] := by
    obtain ⟨c, hcmem⟩ := List.exists_mem_of_ne_nil _ hne
    exact List.ne_nil_of_mem (mem_sortedValues.2 ⟨c, hcmem, rfl⟩)
  have hbase := conditionParams_of_exact (p := s.profile)
    (forall_mem_sortedValues.2 hrange) (forall_mem_sortedValues.2 hexact) hsome
  obtain ⟨⟨params, hparams, hget⟩, hr, hsel⟩ :=
    exists_searchValues_of_singleton ho hc (by simp) hbase
  rw [← chosen_key]
  exact find_ends_of_restriction h hparams hget hr hsel hw

end

/-- A query for acceptable atoms comes to the window of the rows of its keys. -/
theorem find_ends (h : Answerable m s e o fields keyFields) (ho : o.Plain)
    (hc : o.conditions = .dict conditions)
    (hchoice : ∀ c ∈ conditions, Condition.isChoice c.2 = true) (hw : o.HasWindow)
    (hne : conditions ≠ []) : ∃ q total after, find e s.profile o = .ok q ∧
      (q.execute s).Ends m (.ok (Window.response total o.skip ((Window.cut o.skip o.limit?
        (Index.withKeys (m.rows e keyFields) (keysOf (sortedValues conditions)))).map
          Row.toValue))) after := by
  have hvalues : ∀ v ∈ sortedValues conditions, Condition.isChoice v = true :=
    forall_mem_sortedValues.2 hchoice
  have hrange : ∀ c ∈ conditions, Condition.isRange c.2 = false := fun c hcmem =>
    Condition.isRange_of_isChoice (hchoice c hcmem)
  by_cases hdiscrete : ∃ c ∈ conditions, Condition.isDiscrete c.2 = true
  · have hkeys := find_ends_of_keys h ho hc hrange hw hdiscrete (expandKeys_eq hvalues)
      (Index.nodup_withKeys h.json hvalues)
    rwa [selected_of_ne_nil _ _ (keysOf_ne_nil hvalues)] at hkeys
  · have hexact : ∀ c ∈ conditions, Condition.isDiscrete c.2 = false := fun c hcmem =>
      Bool.eq_false_iff.2 fun hdisc => hdiscrete ⟨c, hcmem, hdisc⟩
    rw [keysOf_of_exact (forall_mem_sortedValues.2 hexact), Index.withKeys,
      List.flatMap_singleton]
    exact find_ends_of_exact h ho hc hrange hw hne hexact

end

end Query

end ViewFinder
