import ViewFinder.Proofs.Found

/-!
# Keys that the caller lists

Keys can be listed as a parameter of the view in place of conditions. A store that takes several in one
request gets them as they are: one that is no list is the key of no row, and one that is listed twice
brings its rows twice. Where they are asked for one by one each is made a list, and the rows of a
document come up once (`CompiledQuery.fresh_withKeys`). So both find the same only if the keys that have
rows stay what they are, and in their order, when each is made a list and repetitions are left out
(`find_keys_agree_iff`).
-/

namespace ViewFinder

open Store

/-- Can a value be listed as the key of one field: is it an atom, or a list of one? -/
def Value.isFieldKey : Value → Bool
  | .list [a] => a.isAtom
  | v => v.isAtom

/-- As a key it is a list of one atom. -/
theorem Value.exists_asKey_of_isFieldKey {k : Value} (h : k.isFieldKey = true) :
    ∃ a, a.isAtom = true ∧ Query.asKey k = .list [a] ∧ (k = a ∨ k = .list [a]) := by
  unfold isFieldKey at h
  split at h
  · next a => exact ⟨a, h, rfl, .inr rfl⟩
  · next hlist =>
    refine ⟨k, h, ?_, .inl rfl⟩
    cases k with
    | list vs => cases h
    | tuple vs => cases h
    | _ => rfl

theorem Value.isFieldKey_asKey {k : Value} (h : k.isFieldKey = true) :
    (Query.asKey k).isFieldKey = true := by
  obtain ⟨a, ha, heq, -⟩ := exists_asKey_of_isFieldKey h
  rw [heq]
  exact ha

namespace Store.Index

/-! ## Rows that have one key at most -/

/-- Does an index have rows with a key? -/
def hasKey (rows : List Row) (key : Value) : Bool := !(withKey rows key).isEmpty

/-- No row has two of the keys. -/
def TellsApart (rows : List Row) (keys : List Value) : Prop :=
  ∀ r ∈ rows, ∀ k ∈ keys, ∀ l ∈ keys, r.key.equal k = true → r.key.equal l = true → k = l

section
variable {rows : List Row} {keys others : List Value}

theorem TellsApart.mono (h : TellsApart rows keys) (hsub : others ⊆ keys) :
    TellsApart rows others :=
  fun r hr k hk l hl => h r hr k (hsub hk) l (hsub hl)

theorem withKeys_cons (rows : List Row) (key : Value) (keys : List Value) :
    withKeys rows (key :: keys) = withKey rows key ++ withKeys rows keys :=
  List.flatMap_cons

theorem withKeys_concat (rows : List Row) (keys : List Value) (key : Value) :
    withKeys rows (keys ++ [key]) = withKeys rows keys ++ withKey rows key := by
  rw [withKeys, List.flatMap_append, List.flatMap_singleton, ← withKeys]

theorem mem_withKey_iff {r : Row} {key : Value} :
    r ∈ withKey rows key ↔ r ∈ rows ∧ r.key.equal key = true :=
  List.mem_filter

/-- A key with rows has a first one. -/
theorem exists_cons_of_hasKey {key : Value} (h : hasKey rows key = true) :
    ∃ r matched, withKey rows key = r :: matched := by
  cases hrows : withKey rows key with
  | nil =>
    rw [hasKey, hrows] at h
    cases h
  | cons r matched => exact ⟨r, matched, rfl⟩

/-- Keys without rows bring none. -/
theorem withKeys_filter_hasKey (rows : List Row) (keys : List Value) :
    withKeys rows (keys.filter (hasKey rows)) = withKeys rows keys := by
  induction keys with
  | nil => rfl
  | cons key keys ih =>
    rw [List.filter_cons, withKeys_cons]
    cases hkey : hasKey rows key with
    | true => rw [if_pos rfl, withKeys_cons, ih]
    | false =>
      have hnil : withKey rows key = [] := by simpa [hasKey] using hkey
      rw [if_neg Bool.false_ne_true, ih, hnil, List.nil_append]

section
variable {β : Type} {f : Row → β} (hf : ∀ r ∈ rows, ∀ s ∈ rows, f r = f s → r.key = s.key)
include hf

/-- If no row has two of them, and rows tell their keys, keys that all have rows bring the same only if
they are the same. -/
theorem eq_of_withKeys_eq (h : TellsApart rows (keys ++ others))
    (hkeys : ∀ k ∈ keys, hasKey rows k = true) (hothers : ∀ k ∈ others, hasKey rows k = true)
    (heq : (withKeys rows keys).map f = (withKeys rows others).map f) : keys = others := by
  induction keys generalizing others with
  | nil =>
    cases others with
    | nil => rfl
    | cons l others =>
      obtain ⟨r, matched, hrows⟩ := exists_cons_of_hasKey (List.forall_mem_cons.1 hothers).1
      rw [withKeys_cons, hrows] at heq
      cases heq
  | cons k keys ih =>
    obtain ⟨hk, hkeys⟩ := List.forall_mem_cons.1 hkeys
    obtain ⟨r, matched, hrows⟩ := exists_cons_of_hasKey hk
    cases others with
    | nil =>
      rw [withKeys_cons, hrows] at heq
      cases heq
    | cons l others =>
      obtain ⟨hl, hrest⟩ := List.forall_mem_cons.1 hothers
      obtain ⟨s, further, hrows'⟩ := exists_cons_of_hasKey hl
      obtain ⟨hr, hrk⟩ := mem_withKey_iff.1 (hrows ▸ List.mem_cons_self .. : r ∈ withKey rows k)
      obtain ⟨hs, hsl⟩ := mem_withKey_iff.1 (hrows' ▸ List.mem_cons_self .. : s ∈ withKey rows l)
      rw [withKeys_cons, withKeys_cons, List.map_append, List.map_append] at heq
      -- the first rows of both have one key
      have hkey : r.key = s.key := by
        rw [hrows, hrows', List.map_cons, List.map_cons] at heq
        exact hf r hr s hs (List.cons.inj heq).1
      have hkl : k = l := h r hr k (by simp) l (by simp) hrk (hkey ▸ hsl)
      subst hkl
      have happart : TellsApart rows (keys ++ others) := h.mono fun a ha =>
        (List.mem_append.1 ha).elim (fun ha => List.mem_append_left _ (List.mem_cons_of_mem _ ha))
          fun ha => List.mem_append_right _ (List.mem_cons_of_mem _ ha)
      rw [ih happart hkeys hrest (List.append_cancel_left heq)]

/-- So what keys bring is the same only if the keys that have rows are. -/
theorem filter_hasKey_eq (h : TellsApart rows (keys ++ others))
    (heq : (withKeys rows keys).map f = (withKeys rows others).map f) :
    keys.filter (hasKey rows) = others.filter (hasKey rows) := by
  rw [← withKeys_filter_hasKey rows keys, ← withKeys_filter_hasKey rows others] at heq
  refine eq_of_withKeys_eq hf (h.mono ?_) (fun k hk => (List.mem_filter.1 hk).2)
    (fun k hk => (List.mem_filter.1 hk).2) heq
  exact List.append_subset.2
    ⟨List.Subset.trans (List.filter_subset_self ..) (List.subset_append_left ..),
      List.Subset.trans (List.filter_subset_self ..) (List.subset_append_right ..)⟩

end

end

end Store.Index

/-! ## Rows that come up once -/

/-- The rows of keys asked for one by one are those of the distinct keys, if no row has two of them. -/
theorem CompiledQuery.fresh_withKeys {rows : List Row} (hnodup : (rows.map Row.id).Nodup)
    {keys : List Value} (hsame : ∀ k ∈ keys, ∀ l ∈ keys, k.sameItem l = true ↔ k = l)
    (h : Index.TellsApart rows keys) :
    fresh [] (Index.withKeys rows keys) =
      Index.withKeys rows (Value.distinct Value.sameItem keys) := by
  induction keys using List.reverseRecOn with
  | nil => rfl
  | append_singleton keys key ih =>
    have hsub : keys ⊆ keys ++ [key] := List.subset_append_left ..
    have hsame' : ∀ k ∈ keys, ∀ l ∈ keys, k.sameItem l = true ↔ k = l :=
      fun k hk l hl => hsame k (hsub hk) l (hsub hl)
    have hfresh := ih hsame' (h.mono hsub)
    have hseen {s : String} : s ∈ seenAfter [] (Index.withKeys rows keys) ↔
        ∃ r ∈ Index.withKeys rows (Value.distinct Value.sameItem keys), r.id = s := by
      rw [seenAfter, hfresh, List.append_nil, List.mem_reverse, List.mem_map]
    have hmem {k : Value} : k ∈ Value.distinct Value.sameItem keys ↔ k ∈ keys :=
      Value.mem_distinct hsame'
    have hany : (Value.distinct Value.sameItem keys).any (Value.sameItem · key) = true ↔
        key ∈ keys := by
      rw [List.any_eq_true]
      constructor
      · rintro ⟨k, hk, heq⟩
        rwa [← (hsame k (hsub (hmem.1 hk)) key (by simp)).1 heq, ← hmem]
      · exact fun hkey => ⟨key, hmem.2 hkey, (hsame' key hkey key hkey).2 rfl⟩
    rw [Index.withKeys_concat, fresh_append, hfresh, Value.distinct_concat]
    by_cases hkey : key ∈ keys
    · -- the rows of the key have come up already
      have hold : ∀ r ∈ Index.withKey rows key, r.id ∈ seenAfter [] (Index.withKeys rows keys) :=
        fun r hr => hseen.2 ⟨r, List.mem_flatMap.2 ⟨key, hmem.2 hkey, hr⟩, rfl⟩
      rw [if_pos (hany.2 hkey), fresh_of_seen hold, List.append_nil]
    · -- no row of an earlier key has this one, and rows of one id are the same
      have hnew : ∀ r ∈ Index.withKey rows key, r.id ∉ seenAfter [] (Index.withKeys rows keys) := by
        intro r hr hid
        obtain ⟨s, hs, hsame⟩ := hseen.1 hid
        obtain ⟨k, hk, hsk⟩ := List.mem_flatMap.1 hs
        obtain ⟨hrmem, hrkey⟩ := Index.mem_withKey_iff.1 hr
        obtain ⟨hsmem, hskey⟩ := Index.mem_withKey_iff.1 hsk
        have heq : s = r := List.inj_on_of_nodup_map hnodup hsmem hrmem hsame
        have hkk : k = key := h r hrmem k (hsub (hmem.1 hk)) key (by simp) (heq ▸ hskey) hrkey
        exact hkey (hkk ▸ hmem.1 hk)
      have hdistinct : ((Index.withKey rows key).map Row.id).Nodup :=
        hnodup.sublist (List.filter_sublist.map _)
      rw [if_neg (fun hold => hkey (hany.1 hold)), fresh_of_not_seen hdistinct hnew,
        Index.withKeys_concat]

/-! ## Queries for listed keys -/

/-- Options that list keys of one field. -/
def Options.forKeys (name : String) (keys : List Value) : Options :=
  { useKey := .str name, extra := .dict [(.str "keys", .list keys)] }

namespace Query

/-- The keys that a query asks for where the caller lists some: these, or lists of them where they are
asked for one by one. -/
def listedKeys (p : Profile) (keys : List Value) : List Value :=
  if p.multiKey then keys else keys.map asKey

/-- The rows of listed keys: those of each key in turn, or of each distinct list where keys are asked
for one by one. -/
def rowsOfListed (p : Profile) (rows : List Row) (keys : List Value) : List Row :=
  if p.multiKey then Index.withKeys rows keys
  else Index.withKeys rows (Value.distinct Value.sameItem (keys.map asKey))

section
variable (p : Profile) (name : String) (keys : List Value)

/-- The keys are handed on with the further parameters. -/
theorem pagingParams_forKeys : pagingParams p (.forKeys name keys) =
    .ok [(.str (keysName p), .list (listedKeys p keys))] := by
  have hextra : pagingParams p (.forKeys name keys) =
      extraParams p [] [(.str "keys", .list keys)] := rfl
  rw [hextra, extraParams, get?_singleton, listedKeys]
  cases hmulti : p.multiKey with
  | true =>
    rw [keysName_of_multiKey hmulti]
    rfl
  | false =>
    have herase : Entries.erase [(.str "keys", .list keys)] "keys" = [] := by simp [Entries.erase]
    rw [keysName_of_singleKey hmulti]
    simp only [Value.items, herase, bind, Except.bind, Bool.false_eq_true, if_false]
    rfl

/-- Nothing else is asked for. -/
theorem exists_searchValues_forKeys : ∃ params, searchValues p (.forKeys name keys) = .ok params ∧
    ∀ n, params.get? n = ((windowParams p (.forKeys name keys)).get? n).or
      (Entries.get? [(.str (keysName p), .list (listedKeys p keys))] n) := by
  refine ⟨settle [(.str (keysName p), .list (listedKeys p keys))], ?_, fun n => ?_⟩
  · have hbase : conditionParams p ((sortedConditions []).map (·.2)) = .ok [] := rfl
    have hc : (Options.forKeys name keys).conditions = .dict [] := rfl
    rw [searchValues, hc]
    simp only [Value.entries, hbase, pagingParams_forKeys, bind, Except.bind, pure, Except.pure]
    rfl
  · have hnone := get?_key_of_bound (p := p) (n := keysName p) (by simp) (listedKeys p keys)
    have hnull (k : String) :
        Entries.get? [(.str (keysName p), .list (listedKeys p keys))] k ≠ some .null := by
      rw [Entries.get?_cons_str]
      split <;> simp
    have hsettled := get?_asked_of_plain (o := {}) ⟨rfl, rfl, rfl, rfl, rfl⟩
      (Entries.Named.nil.cons rfl) hnull (hnone _ (List.mem_cons_self ..)) n
    refine hsettled.trans ?_
    split
    · next hn =>
      rw [hnone n (List.mem_cons_of_mem _ hn)]
      rfl
    · rfl

variable {name} in
/-- One name is the field of the key. -/
theorem searchFields_forKeys (hname : Name.isIdentifier name = true) (e : EntityType) :
    searchFields e (.forKeys name keys) = .ok [Name.normalizeField name] := by
  have hgiven : givenNames (.forKeys name keys) = .ok [.str name] :=
    if_pos (Value.truthy_of_isIdentifier hname)
  rw [searchFields_eq e hgiven (List.cons_ne_nil _ _)]
  rfl

end

/-- The rows chosen are those of the listed keys. -/
theorem chosen_listedKeys (p : Profile) {rows : List Row} (hnodup : (rows.map Row.id).Nodup)
    {keys : List Value} (hne : keys ≠ []) (hkeys : ∀ k ∈ keys, k.isFieldKey = true)
    (h : Index.TellsApart rows (keys.map asKey)) :
    chosen [(.str (keysName p), .list (listedKeys p keys))] rows = rowsOfListed p rows keys := by
  cases hmulti : p.multiKey with
  | true =>
    rw [keysName_of_multiKey hmulti, listedKeys, rowsOfListed, hmulti]
    exact chosen_keys_of_multiKey
  | false =>
    have hsame : ∀ k ∈ keys.map asKey, ∀ l ∈ keys.map asKey, k.sameItem l = true ↔ k = l := by
      simp only [List.forall_mem_map]
      intro k hk l hl
      obtain ⟨a, ha, hka, -⟩ := Value.exists_asKey_of_isFieldKey (hkeys k hk)
      obtain ⟨b, hb, hlb, -⟩ := Value.exists_asKey_of_isFieldKey (hkeys l hl)
      rw [hka, hlb, Value.sameItem_list_iff (List.forall_mem_singleton.2 ha)
        (List.forall_mem_singleton.2 hb), Value.list.injEq]
    rw [keysName_of_singleKey hmulti, listedKeys, rowsOfListed, hmulti, if_neg Bool.false_ne_true,
      if_neg Bool.false_ne_true, chosen_keys_of_singleKey, if_neg (by simpa using hne),
      CompiledQuery.fresh_withKeys hnodup hsame h]

/-- When each key is made a list and repetitions are left out, the keys that have rows stay what they
are, and in their order. -/
def ListsOnce (rows : List Row) (keys : List Value) : Prop :=
  keys.filter (Index.hasKey rows) =
    (Value.distinct Value.sameItem (keys.map asKey)).filter (Index.hasKey rows)

/-- So it is where all are lists, and no two the same. -/
theorem listsOnce_of_nodup (rows : List Row) {keys : List Value}
    (hkeys : ∀ k ∈ keys, ∃ a, a.isAtom = true ∧ k = .list [a]) (hnodup : keys.Nodup) :
    ListsOnce rows keys := by
  have hlists : keys.map asKey = keys := by
    refine (List.map_congr_left fun k hk => ?_).trans (List.map_id keys)
    obtain ⟨a, -, rfl⟩ := hkeys k hk
    rfl
  have hapart : keys.Pairwise fun k l => k.sameItem l = false := by
    refine hnodup.imp_of_mem fun {k l} hk hl hne => Bool.eq_false_iff.2 fun hsame => hne ?_
    obtain ⟨a, ha, rfl⟩ := hkeys k hk
    obtain ⟨b, hb, rfl⟩ := hkeys l hl
    exact congrArg Value.list ((Value.sameItem_list_iff (List.forall_mem_singleton.2 ha)
      (List.forall_mem_singleton.2 hb)).1 hsame)
  rw [ListsOnce, hlists, Value.distinct_of_pairwise hapart]

end Query

/-- The rows of JSON documents have one of such keys at most. -/
theorem Store.Memory.HoldsJson.tellsApart {m : Memory} (hm : m.HoldsJson) (e : EntityType)
    (fields : List String) {keys : List Value} (hkeys : ∀ k ∈ keys, k.isFieldKey = true) :
    Index.TellsApart (m.rows e fields) keys := by
  intro r hr k hk l hl hrk hrl
  obtain ⟨d, hd, rfl⟩ := hm.exists_of_mem_rows hr
  have hatoms {k : Value} (hk : k ∈ keys)
      (hrk : (Value.list (fields.map d.2.getD)).equal k = true) :
      ∃ a, a.isAtom = true ∧ k = .list [a] := by
    obtain ⟨a, ha, -, rfl | rfl⟩ := Value.exists_asKey_of_isFieldKey (hkeys k hk)
    · cases k <;> simp_all [Value.equal, Value.agree, Value.isAtom]
    · exact ⟨a, ha, rfl⟩
  obtain ⟨a, ha, rfl⟩ := hatoms hk hrk
  obtain ⟨b, hb, rfl⟩ := hatoms hl hrl
  exact congrArg Value.list (Value.eq_of_equal_list (hm.isJson_fields hd fields)
    (List.forall_mem_singleton.2 ha) (List.forall_mem_singleton.2 hb) hrk hrl)

/-! ## What is found by listed keys -/

/-- What the rows of a view become where nothing is said of it. -/
def EntityType.presents (e : EntityType) (rows : List Row) : Except Fault Result :=
  e.materialize (Window.response rows.length 0 (rows.map Row.toValue)) (.bool false) (.bool false)
    .null

/-- By default the rows of keys become the records of their documents. -/
theorem Store.Memory.HoldsJson.presents_withKeys {m : Memory} (hm : m.HoldsJson) {e : EntityType}
    (hfactory : e.factory = .document) (hsort : e.defaultSort.truthy = false)
    (fields : List String) (keys : List Value) :
    e.presents (Index.withKeys (m.rows e fields) keys) =
      .ok (.records (((Index.withKeys (m.rows e fields) keys).map Row.toDocument).map
        (e.recordAs (.bool false)))) := by
  have horder : (Value.orElse .null e.defaultSort).truthy = false := hsort
  refine (EntityType.becomes_materialize _ _ (fun r hr => ?_) rfl horder).eq_ok hfactory
  obtain ⟨k, -, hrk⟩ := List.mem_flatMap.1 hr
  exact (hm.exists_dict_of_mem_rows (Index.mem_withKey_iff.1 hrk).1).imp fun _ => And.left

section
variable {m : Memory} (hm : m.HoldsJson) {e : EntityType} (he : e.HasIdentifiers)
  {designName : String} (hdesign : e.designName = .ok designName)
  (habsent : m.documents.get? (Registry.designId designName) = none) {name : String}
  (hname : Name.isIdentifier name = true) {keys : List Value} (hne : keys ≠ [])
  (hkeys : ∀ k ∈ keys, k.isFieldKey = true)
include hm he hdesign habsent hname hne hkeys

/-- Finding by listed keys comes to the rows of the keys, and counting to their number. -/
theorem outcome_forKeys (p : Profile) (allowAdHoc : Bool) :
    m.outcome p allowAdHoc e (·.findWith (.forKeys name keys)) =
      e.presents (Query.rowsOfListed p (m.rows e [Name.normalizeField name]) keys) ∧
    m.outcome p allowAdHoc e (·.countWith (.forKeys name keys)) =
      .ok (.int (Query.rowsOfListed p (m.rows e [Name.normalizeField name]) keys).length) := by
  have hfield := Name.isIdentifier_normalizeField hname
  obtain ⟨source, hsource, hread⟩ := Query.ofSource_mapFunction he.isTagged
    (List.forall_mem_singleton.2 hfield) (List.cons_ne_nil _ _)
  have hsearched := Query.searchFields_forKeys keys hname e
  have h := Query.answerable_of_absent (s := (Database.finderOf e designName p allowAdHoc).setting)
    hm he hdesign habsent hsearched nofun
    (fun _ => List.forall_mem_singleton.2
      (Text.not_mem_of_nameChars (Name.nameChars_of_isIdentifier hfield) (by decide))) hsource hread
  obtain ⟨params, hparams, hget⟩ := Query.exists_searchValues_forKeys p name keys
  have hmem : Query.keysName p ∈ ["key", Query.keysName p] := by simp
  have hr := Query.restriction_singleton hmem (Query.listedKeys p keys)
  have hsel := Query.selectable_singleton hmem (Query.listedKeys p keys)
  have hw : (Options.forKeys name keys).HasForwardWindow := ⟨.inl rfl, .inl rfl⟩
  have hchosen := Query.chosen_listedKeys p (hm.nodup_rows e [Name.normalizeField name]) hne hkeys
    (hm.tellsApart e _ (List.forall_mem_map.2 fun k hk => Value.isFieldKey_asKey (hkeys k hk)))
  constructor
  · obtain ⟨q, total, after, hq, hends⟩ :=
      Query.find_ends_of_restriction h hparams hget hr hsel hw.hasWindow
    rw [(Finder.findWith_ends hq hends).outcome_eq hdesign, hchosen,
      Window.cut_of_null (o := .forKeys name keys) rfl rfl]
    exact EntityType.materialize_response _ _ rfl _ _ _ _ _
  · obtain ⟨q, response, after, hq, hends, hn⟩ :=
      Query.count_ends_of_restriction h hparams hget hr hsel rfl rfl
    rw [(Finder.countWith_ends hq hends hn).outcome_eq hdesign, hchosen]
    rfl

/-- Keys that are listed, on a store that takes several of them in one request and on one that takes
one. The first brings the rows of each key in turn as it is given, the second those of each distinct
list. Both find and count the same if lists without repetition leave the keys with rows as they are
(`Query.ListsOnce`); where documents become records and no order is kept, only then. -/
theorem find_keys_agree_iff {p p' : Profile} (allowAdHoc : Bool) (hmulti : p.multiKey = true)
    (hsingle : p'.multiKey = false) :
    let o := Options.forKeys name keys
    let rows := m.rows e [Name.normalizeField name]
    let lists := Value.distinct Value.sameItem (keys.map Query.asKey)
    (m.outcome p allowAdHoc e (·.findWith o) = e.presents (Index.withKeys rows keys) ∧
      m.outcome p allowAdHoc e (·.countWith o) = .ok (.int (Index.withKeys rows keys).length)) ∧
    (m.outcome p' allowAdHoc e (·.findWith o) = e.presents (Index.withKeys rows lists) ∧
      m.outcome p' allowAdHoc e (·.countWith o) = .ok (.int (Index.withKeys rows lists).length)) ∧
    (Query.ListsOnce rows keys →
      m.outcome p allowAdHoc e (·.findWith o) = m.outcome p' allowAdHoc e (·.findWith o) ∧
      m.outcome p allowAdHoc e (·.countWith o) = m.outcome p' allowAdHoc e (·.countWith o)) ∧
    (e.factory = .document → e.defaultSort.truthy = false →
      m.outcome p allowAdHoc e (·.findWith o) = m.outcome p' allowAdHoc e (·.findWith o) →
      Query.ListsOnce rows keys) := by
  intro o rows lists
  have hgiven := outcome_forKeys hm he hdesign habsent hname hne hkeys p allowAdHoc
  rw [Query.rowsOfListed, hmulti, if_pos rfl] at hgiven
  have hlisted := outcome_forKeys hm he hdesign habsent hname hne hkeys p' allowAdHoc
  rw [Query.rowsOfListed, hsingle, if_neg Bool.false_ne_true] at hlisted
  refine ⟨hgiven, hlisted, fun honce => ?_, fun hfactory hsort hfound => ?_⟩
  · have hrows : Index.withKeys rows keys = Index.withKeys rows lists := by
      rw [← Index.withKeys_filter_hasKey rows keys, ← Index.withKeys_filter_hasKey rows lists, honce]
    exact ⟨hgiven.1.trans ((congrArg e.presents hrows).trans hlisted.1.symm),
      hgiven.2.trans ((congrArg (fun rs : List Row => Except.ok (Value.int rs.length)) hrows).trans
        hlisted.2.symm)⟩
  · rw [hgiven.1, hlisted.1, hm.presents_withKeys hfactory hsort,
      hm.presents_withKeys hfactory hsort, List.map_map, List.map_map, Except.ok.injEq,
      Result.records.injEq] at hfound
    refine Index.filter_hasKey_eq (fun r hr s hs heq => ?_) (hm.tellsApart e _ ?_) hfound
    · -- a record has the fields that its row's key is made of
      obtain ⟨d, -, rfl⟩ := hm.exists_of_mem_rows hr
      obtain ⟨d', -, rfl⟩ := hm.exists_of_mem_rows hs
      have hattributes : d.2 = d'.2 := by
        simpa [EntityType.recordAs, Row.toDocument, Row.ofDocument] using heq
      simp only [Row.ofDocument, hattributes]
    · intro k hk
      rcases List.mem_append.1 hk with hk | hk
      · exact hkeys k hk
      · obtain ⟨l, hl, rfl⟩ := List.mem_map.1 (Value.mem_of_mem_distinct hk)
        exact Value.isFieldKey_asKey (hkeys l hl)

end

/-! ## People of a grade -/

/-- People of two grades, each listed once as a list, are the same on a store of release 0.9 and on
one of release 0.8. -/
theorem find_keys_agree_people :
    let o := Options.forKeys "grade" [.list [.int 11], .list [.int 9]]
    people.outcome ⟨{ minor := 9 }⟩ true person (·.findWith o) =
        people.outcome ⟨{ minor := 8 }⟩ true person (·.findWith o) ∧
      people.outcome ⟨{ minor := 9 }⟩ true person (·.countWith o) =
        people.outcome ⟨{ minor := 8 }⟩ true person (·.countWith o) := by
  have hname : Name.isIdentifier "grade" = true := by decide
  have hlists : ∀ k ∈ [Value.list [.int 11], .list [.int 9]],
      ∃ a, a.isAtom = true ∧ k = .list [a] :=
    List.forall_mem_cons.2 ⟨⟨_, rfl, rfl⟩, List.forall_mem_singleton.2 ⟨_, rfl, rfl⟩⟩
  have hkeys : ∀ k ∈ [Value.list [.int 11], .list [.int 9]], k.isFieldKey = true :=
    List.forall_mem_cons.2 ⟨rfl, List.forall_mem_singleton.2 rfl⟩
  have hmulti : (⟨{ minor := 9 }⟩ : Profile).multiKey = true := rfl
  have hsingle : (⟨{ minor := 8 }⟩ : Profile).multiKey = false := rfl
  obtain ⟨-, -, hagree, -⟩ := find_keys_agree_iff holdsJson_people hasIdentifiers_person rfl
    (absent_people _) hname (List.cons_ne_nil _ _) hkeys true hmulti hsingle
  exact hagree (Query.listsOnce_of_nodup _ hlists (by simp))

/-- The person of a grade that is listed as a number is found, and counted, by the second only. -/
theorem find_keys_differ_people :
    let o := Options.forKeys "grade" [.int 9]
    people.outcome ⟨{ minor := 9 }⟩ true person (·.findWith o) ≠
        people.outcome ⟨{ minor := 8 }⟩ true person (·.findWith o) ∧
      people.outcome ⟨{ minor := 9 }⟩ true person (·.countWith o) ≠
        people.outcome ⟨{ minor := 8 }⟩ true person (·.countWith o) := by
  have hname : Name.isIdentifier "grade" = true := by decide
  have hkeys : ∀ k ∈ [Value.int 9], k.isFieldKey = true := List.forall_mem_singleton.2 rfl
  have hoffered (p : Profile) := outcome_forKeys holdsJson_people hasIdentifiers_person rfl
    (absent_people _) hname (List.cons_ne_nil _ _) hkeys p true
  have hgiven := hoffered ⟨{ minor := 9 }⟩
  have hlisted := hoffered ⟨{ minor := 8 }⟩
  have hmulti : (⟨{ minor := 9 }⟩ : Profile).multiKey = true := rfl
  have hsingle : (⟨{ minor := 8 }⟩ : Profile).multiKey = false := rfl
  rw [Query.rowsOfListed, hmulti, if_pos rfl] at hgiven
  rw [Query.rowsOfListed, hsingle, if_neg Bool.false_ne_true] at hlisted
  have hnone : (Index.withKeys (people.rows person ["grade"]) [.int 9]).length = 0 := by
    decide +kernel
  have hone : (Index.withKeys (people.rows person ["grade"]) [.list [.int 9]]).length = 1 := by
    decide +kernel
  constructor
  · rw [hgiven.1, hlisted.1, holdsJson_people.presents_withKeys rfl rfl,
      holdsJson_people.presents_withKeys rfl rfl]
    intro hfound
    have hlength := congrArg List.length (Result.records.inj (Except.ok.inj hfound))
    simp only [List.length_map] at hlength
    exact absurd (hnone.symm.trans (hlength.trans hone)) (by decide)
  · rw [hgiven.2, hlisted.2]
    intro hcount
    have hlength := Int.ofNat.inj (Value.int.inj (Except.ok.inj hcount))
    exact absurd (hnone.symm.trans (hlength.trans hone)) (by decide)

end ViewFinder
