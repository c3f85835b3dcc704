import ViewFinder.Proofs.Query.Selection

/-!
# Queries that cannot be answered

Where there is no design document a query can be answered if it is permitted, if the path of its
view names the view, and if its map function can be read (`Query.Reachable`). A query of which one
of these does not hold comes to a fault on every release of the store (`Query.find_fails`,
`Query.count_fails`).
-/

namespace ViewFinder

open Store

namespace Dialogue

variable {α β : Type} {m after : Memory}

/-- Carried out against a store in memory a dialogue comes to a fault. -/
def Fails (d : Dialogue α) (m : Memory) : Prop := ∃ fault after, d.Ends m (.error fault) after

theorem fails_throw (e : Fault) : (throw e : Dialogue α).Fails m := ⟨e, m, ends_throw e⟩

theorem Fails.bind {d : Dialogue α} {f : α → Dialogue β} (h : d.Fails m) : (d >>= f).Fails m := by
  obtain ⟨fault, after, hends⟩ := h
  exact ⟨fault, after, hends.bind_error⟩

/-- A later part of a dialogue may fail. -/
theorem Ends.bind_fails {d : Dialogue α} {f : α → Dialogue β} {a : α} (hd : d.Ends m (.ok a) after)
    (hf : (f a).Fails after) : (d >>= f).Fails m := by
  obtain ⟨fault, last, hends⟩ := hf
  exact ⟨fault, last, hd.bind hends⟩

/-- A step without request may fail itself. -/
theorem fails_lift_error {x : Except Fault α} {f : α → Dialogue β} {e : Fault} (hx : x = .error e) :
    ((monadLift x : Dialogue α) >>= f).Fails m := by
  subst hx
  exact Fails.bind ⟨e, m, ends_done _⟩

theorem fails_lift {x : Except Fault α} {f : α → Dialogue β} {a : α} (hx : x = .ok a)
    (hf : (f a).Fails m) : ((monadLift x : Dialogue α) >>= f).Fails m := by
  subst hx
  exact Ends.bind_fails (ends_done _) hf

end Dialogue

namespace Query

/-- The name of a view holds what its fields hold. -/
theorem mem_viewName {c : Char} {fields : List String} {f : String} (hf : f ∈ fields)
    (hc : c ∈ f.toList) (operation : String) : c ∈ (viewName fields operation).toList := by
  have hfields : c ∈ "_and_".toList.intercalate (fields.map String.toList) := by
    induction fields with
    | nil => cases hf
    | cons g fields ih =>
      cases fields with
      | nil =>
        rw [List.mem_singleton.1 hf] at hc
        simpa [List.intercalate] using hc
      | cons h fields =>
        rw [List.map_cons, List.map_cons, List.intercalate_cons_cons, ← List.map_cons,
          List.mem_append, List.mem_append]
        rcases List.mem_cons.1 hf with rfl | hf
        · exact .inl (.inl hc)
        · exact .inr (ih hf)
  simp only [viewName, String.toList_append, String.toList_intercalate, List.mem_append]
  exact .inr hfields

/-- Where there is no design document queries with the options can be answered. -/
structure Reachable (s : Setting) (o : Options) (fields : List String) (source : String) :
    Prop where
  permitted : o.slow.truthy = true → s.allowAdHoc = true
  slashless : o.slow.truthy = false → ∀ f ∈ fields, '/' ∉ f.toList
  readable : ∃ emission, Emission.ofSource (.str source) = .ok emission

section
variable {m : Memory} {s : Setting} {e : EntityType} {o : Options} {fields : List String}
  {q : CompiledQuery} {operation : String} {base : Entries}
  (h : Compiles q e s.profile o operation fields base) (hr : Restriction s.profile base)
  (hw : o.HasWindow)
include h hr hw

/-- A query ends as its first request does, if that one comes to a fault: the one for all, or the one
for the first of its keys. -/
theorem Compiles.exists_first : ∃ first : CompiledQuery, (first = q ∨ ∃ key ∈ oneByOne base,
      first = { q with params := q.keyParams s.profile key, fallbackKeys := .list [] }) ∧
    ∀ {fault after}, (first.executeOne s).Ends m (.error fault) after →
      (q.execute s).Ends m (.error fault) after := by
  have hfallback := h.fallbackKeys_eq hr
  cases hlist : oneByOne base with
  | nil =>
    refine ⟨q, .inl rfl, fun hends => ?_⟩
    rw [CompiledQuery.execute, hfallback, hlist]
    exact hends
  | cons key keys =>
    obtain ⟨skip, hskip, -⟩ := h.integerParam?_skip hw hr.windowless
    have hperKey : q.perKey = .ok ((key :: keys).map q.withKey) := by
      rw [CompiledQuery.perKey, hfallback, hlist]
      rfl
    have htruthy : (Value.list (key :: keys)).truthy = true := rfl
    refine ⟨_, .inr ⟨key, List.mem_cons_self .., rfl⟩, fun hends => ?_⟩
    rw [CompiledQuery.execute, hfallback, hlist, if_pos htruthy, CompiledQuery.executePerKey]
    refine Dialogue.ends_lift (h.integerParam?_limit hw hr.windowless) (Dialogue.ends_lift hskip
      (Dialogue.ends_lift hperKey ?_))
    rw [List.map_cons, List.map_cons, CompiledQuery.gather]
    exact hends.bind_error.bind_error

/-- A query fails if every request that it may send fails: the one for all, and those for one key
each. -/
theorem Compiles.execute_fails_of_requests (hone : (q.executeOne s).Fails m)
    (hkeys : ∀ key ∈ oneByOne base, (CompiledQuery.executeOne
      { q with params := q.keyParams s.profile key, fallbackKeys := .list [] } s).Fails m) :
    (q.execute s).Fails m := by
  obtain ⟨first, hfirst, hends⟩ := h.exists_first (m := m) hr hw
  have hfails : (first.executeOne s).Fails m := by
    rcases hfirst with rfl | ⟨key, hkey, rfl⟩
    · exact hone
    · exact hkeys key hkey
  obtain ⟨fault, after, hfault⟩ := hfails
  exact ⟨fault, after, hends hfault⟩

end

section
variable {m : Memory} {s : Setting} {e : EntityType} {o : Options} {fields : List String}
  {source : String} (he : e.HasIdentifiers) (hdesign : e.designName = .ok s.designName)
  (habsent : m.documents.get? (Registry.designId s.designName) = none)
  (hsource : mapFunction e fields = .ok source)

/-- A map function that cannot be read gives no answer. -/
theorem exists_answer_error (h : ¬ ∃ emission, Emission.ofSource (.str source) = .ok emission)
    (documents : Entries) (reduce : Value) (params : Entries) :
    ∃ fault, Index.answer documents (.str source) reduce params = .error fault := by
  cases hread : Emission.ofSource (.str source) with
  | ok emission => exact absurd ⟨emission, hread⟩ h
  | error fault => exact ⟨fault, by rw [Index.answer, Index.ofDocuments, hread]; rfl⟩

section
variable {q : CompiledQuery} {operation : String} {base : Entries}
  (h : Compiles q e s.profile o operation fields base) (params : Entries) (fallbackKeys : Value)
include habsent h

/-- A query whose path leads to no design document has its view registered, and gets what the path
leads to then. -/
theorem Compiles.executeIndexed_ends_of_absent {design viewed : String}
    (hpath : Memory.viewAt? (q.viewPath s.profile) = some (design, viewed))
    (hnone : m.documents.get? (Registry.designId design) = none) :
    (CompiledQuery.executeIndexed { q with params, fallbackKeys } s).Ends m
      ((Registry.afterSave m s.designName [(.str (Query.viewName fields operation), q.view.body)]
        "1-mem").view (q.viewPath s.profile) params)
      (Registry.afterSave m s.designName [(.str (Query.viewName fields operation), q.view.body)]
        "1-mem") := by
  have hensure := Registry.ensure_ends_absent
    (show q.view.name = .str (Query.viewName fields operation) from h.viewName) habsent
  exact CompiledQuery.executeIndexed_ends_of_missing (q := { q with params, fallbackKeys })
    (Registry.view_of_absent hnone hpath params) hensure

/-- A query fails if its view cannot be answered from, even once it is registered. -/
theorem Compiles.executeIndexed_fails {viewed : String}
    (hpath : Memory.viewAt? (q.viewPath s.profile) = some (s.designName, viewed))
    (hview : ∃ fault, (Registry.afterSave m s.designName
      [(.str (Query.viewName fields operation), q.view.body)] "1-mem").view (q.viewPath s.profile)
        params = .error fault) :
    (CompiledQuery.executeIndexed { q with params, fallbackKeys } s).Fails m := by
  obtain ⟨fault, hview⟩ := hview
  have hends := h.executeIndexed_ends_of_absent habsent params fallbackKeys hpath habsent
  exact ⟨fault, _, hview ▸ hends⟩

include he hdesign

/-- The path of a view whose name has a slash does not lead to the view. -/
theorem Compiles.executeIndexed_fails_of_slash (hslash : ∃ f ∈ fields, '/' ∈ f.toList) :
    (CompiledQuery.executeIndexed { q with params, fallbackKeys } s).Fails m := by
  obtain ⟨f, hf, hc⟩ := hslash
  obtain ⟨first, rest, hname, hfirst⟩ :=
    List.eq_append_cons_of_mem (mem_viewName hf hc operation)
  have hsplit : (Query.viewName fields operation).toList.splitOn '/' =
      first :: rest.splitOn '/' := by
    rw [hname, List.splitOn_append_cons_self, List.splitOn_eq_singleton hfirst]
    rfl
  have hother : Query.viewName fields operation ≠ String.ofList first := fun heq => by
    rw [heq, String.toList_ofList] at hname
    rw [hname] at hfirst
    exact hfirst (List.mem_append_right _ (List.mem_cons_self ..))
  have hpath := h.viewAt?_viewPath he hdesign hsplit
  refine h.executeIndexed_fails habsent params fallbackKeys hpath
    ⟨.notFound (.view (q.viewPath s.profile)), ?_⟩
  exact Registry.view_of_lacking (Registry.get?_afterSave ..) (Registry.get?_views_entriesOf ..)
    (get?_singleton_of_ne hother _) hpath params

/-- A view fails that gives no answer whatever the documents are. -/
theorem Compiles.executeIndexed_fails_of_answer (hslashless : ∀ f ∈ fields, '/' ∉ f.toList)
    (hop : operation ∈ [findPrefix, countPrefix]) (hanswer : ∀ documents, ∃ fault,
      Index.answer documents q.mapSource q.reduceSource params = .error fault) :
    (CompiledQuery.executeIndexed { q with params, fallbackKeys } s).Fails m := by
  have hprefixes : ∀ operation ∈ [findPrefix, countPrefix], '/' ∉ operation.toList := by decide
  have hview : '/' ∉ (Query.viewName fields operation).toList :=
    not_mem_viewName (by decide) hslashless (hprefixes operation hop)
  have hpath := h.viewAt?_viewPath he hdesign (List.splitOn_eq_singleton hview)
  rw [String.ofList_toList] at hpath
  refine h.executeIndexed_fails habsent params fallbackKeys hpath ?_
  have hholds : Registry.Holds (Registry.afterSave m s.designName
      [(.str (Query.viewName fields operation), q.view.body)] "1-mem") s.designName q.view :=
    Registry.holds_afterSave m s.designName h.viewName [] "1-mem"
  rw [Registry.view_of_holds hholds h.viewName hpath params]
  exact hanswer _

/-- A query fails that gets no answer whatever the documents are, with or without a stored view. -/
theorem Compiles.executeOne_fails_of_answer (hop : operation ∈ [findPrefix, countPrefix])
    (hanswer : ∀ documents, ∃ fault,
      Index.answer documents q.mapSource q.reduceSource params = .error fault) :
    (CompiledQuery.executeOne { q with params, fallbackKeys } s).Fails m := by
  rw [CompiledQuery.executeOne]
  split
  · rw [CompiledQuery.executeAdHoc]
    by_cases hallow : s.allowAdHoc = true
    · obtain ⟨fault, hanswer⟩ := hanswer m.documents
      have hrequest := Dialogue.ends_request (m := m)
        (.adHoc s.profile.adHocPath q.mapSource q.reduceSource params)
      rw [Memory.answer, Memory.adHoc, hanswer] at hrequest
      rw [if_pos hallow]
      exact ⟨fault, _, hrequest⟩
    · rw [if_neg hallow]
      exact (Dialogue.fails_throw _).bind
  · by_cases hslash : ∃ f ∈ fields, '/' ∈ f.toList
    · exact h.executeIndexed_fails_of_slash he hdesign habsent params fallbackKeys hslash
    · exact h.executeIndexed_fails_of_answer he hdesign habsent params fallbackKeys
        (fun f hf hc => hslash ⟨f, hf, hc⟩) hop hanswer

include hsource

/-- A query that cannot be reached fails, with whatever parameters it is sent. -/
theorem Compiles.executeOne_fails (hop : operation ∈ [findPrefix, countPrefix])
    (hnot : ¬ Reachable s o fields source) :
    (CompiledQuery.executeOne { q with params, fallbackKeys } s).Fails m := by
  obtain ⟨source', hsource', heq⟩ := h.mapSource
  rw [hsource] at hsource'
  cases hsource'
  by_cases hread : ∃ emission, Emission.ofSource (.str source) = .ok emission
  · rw [CompiledQuery.executeOne]
    cases hslow : o.slow.truthy with
    | true =>
      have hforbidden : ¬ s.allowAdHoc = true := fun hallow => by
        refine hnot ⟨fun _ => hallow, fun hfast => ?_, hread⟩
        cases hslow.symm.trans hfast
      rw [if_pos (h.slow ▸ hslow), CompiledQuery.executeAdHoc, if_neg hforbidden]
      exact (Dialogue.fails_throw _).bind
    | false =>
      have hslash : ∃ f ∈ fields, '/' ∈ f.toList := by
        by_contra hslash
        refine hnot ⟨fun hslow' => ?_, fun _ f hf hc => hslash ⟨f, hf, hc⟩, hread⟩
        cases hslow.symm.trans hslow'
      rw [if_neg (by rw [h.slow, hslow]; decide)]
      exact h.executeIndexed_fails_of_slash he hdesign habsent params fallbackKeys hslash
  · exact h.executeOne_fails_of_answer he hdesign habsent params fallbackKeys hop
      fun documents => heq ▸ exists_answer_error hread documents _ _

/-- Where a query cannot be reached it fails, sent once or once for each of several keys. -/
theorem Compiles.execute_fails (hop : operation ∈ [findPrefix, countPrefix])
    (hnot : ¬ Reachable s o fields source) (hw : o.HasWindow) (hr : Restriction s.profile base) :
    (q.execute s).Fails m := by
  have hone := fun params keys =>
    h.executeOne_fails he hdesign habsent hsource params keys hop hnot
  exact h.execute_fails_of_requests hr hw (hone _ _) fun key _ => hone _ _

omit hsource in
/-- Where the bounds of a query have no place in an index it fails. -/
theorem Compiles.execute_fails_of_bounds (hop : operation ∈ [findPrefix, countPrefix])
    (hw : o.HasWindow) (hr : Restriction s.profile base) (hnot : ¬ Index.Selectable base) :
    (q.execute s).Fails m := by
  have hkeys : base.get? "keys" = none := hr.keys.resolve_right fun hkeys => hnot (.inl hkeys)
  have hone (params : Entries) (fallbackKeys : Value)
      (hparams : params.get? "keys" = none ∧ ¬ Index.Selectable params) :
      (CompiledQuery.executeOne { q with params, fallbackKeys } s).Fails m :=
    h.executeOne_fails_of_answer he hdesign habsent params fallbackKeys hop fun documents =>
      Index.exists_answer_error_of_bounds hparams.1 hparams.2 documents _ _
  refine h.execute_fails_of_requests hr hw (hone _ _ ⟨?_, ?_⟩) fun key _ => hone _ _ ⟨?_, ?_⟩
  · rw [h.get?_eq_of_mem _ (by decide), hkeys]
  · rwa [Index.selectable_congr h.get?_eq_of_mem]
  · rw [h.get?_keyParams_of_mem key _ (by decide), Entries.get?_set, if_neg (by decide), hkeys]
  · rwa [Index.selectable_congr (h.get?_keyParams_of_mem key), selectable_set_key]

end

section
variable {conditions : Entries} {keys : List Value} (hsearched : searchFields e o = .ok fields)
  (hnot : ¬ Reachable s o fields source) (ho : o.Plain) (hw : o.HasWindow)
  (hc : o.conditions = .dict conditions) (hrange : ∀ c ∈ conditions, Condition.isRange c.2 = false)
  (hdiscrete : ∃ c ∈ conditions, Condition.isDiscrete c.2 = true)
  (hkeys : expandKeys (sortedValues conditions) = .ok keys)
include he hdesign habsent hsource hsearched hnot ho hw hc hrange hdiscrete hkeys

/-- Finding fails where queries cannot be reached. -/
theorem find_fails : ∃ q, find e s.profile o = .ok q ∧ (q.execute s).Fails m := by
  obtain ⟨⟨params, hparams, hget⟩, hr, -⟩ := exists_params_of_keys ho hc hrange hdiscrete hkeys
  obtain ⟨q, hq, hcompiles, -⟩ := exists_find he.isTagged he.exists_name hget hsearched hparams
  exact ⟨q, hq, hcompiles.execute_fails he hdesign habsent hsource (List.mem_cons_self ..) hnot hw
    hr⟩

/-- Counting fails where queries cannot be reached. -/
theorem count_fails : ∃ q, count e s.profile o = .ok q ∧ (q.execute s).Fails m := by
  obtain ⟨⟨params, hparams, hget⟩, hr, -⟩ := exists_params_of_keys ho hc hrange hdiscrete hkeys
  obtain ⟨q, hq, hcompiles, -⟩ :=
    exists_count he.isTagged he.exists_name hget hsearched hparams hr.unreduced
  exact ⟨q, hq, hcompiles.execute_fails he hdesign habsent hsource (countOperation_mem _) hnot hw
    hr⟩

end

end

end Query

end ViewFinder
