import ViewFinder.Proofs.Query.ExactKeys
import ViewFinder.Proofs.Query.Hits

/-!
# Rows of one type

A view of a type answers a query that runs no reduce step with rows of documents of the type, whatever
its key and the parameters (`EntityType.answers_of_isOf`). So does a query whose design document holds
views of the type only, with or without its view, at once or key by key (`CompiledQuery.execute_safe`);
and what becomes of its response is made of such documents (`EntityType.Answers.materialize`).
-/

namespace ViewFinder

open Store Registry

/-- Each of some rows is of a document of the type. -/
def EntityType.RowsOf (e : EntityType) (m : Memory) (rows : List Value) : Prop :=
  ∀ row ∈ rows, ∃ d ∈ m.documentsOf e, row.required "value" = .ok (.dict d.2)

/-- The rows of a response are of documents of the type. -/
def EntityType.Answers (e : EntityType) (m : Memory) (response : Value) : Prop :=
  ∃ rows, response.member? "rows" = .ok (some (.list rows)) ∧ e.RowsOf m rows

/-- A record is made of a document, perhaps marked read-only. -/
def EntityType.Makes (e : EntityType) (d : String × Entries) (r : Record) : Prop :=
  ∃ made, e.instantiate (.dict d.2) = .ok made ∧ (r = made ∨ made.markReadonly = .ok r)

/-- A result is made of documents of the type that a store holds. -/
def Result.IsOf (e : EntityType) (m : Memory) : Result → Prop
  | .records rs => ∀ r ∈ rs, ∃ d ∈ m.documentsOf e, e.Makes d r
  | .raw response => e.Answers m response

/-- A view of the type: it has a map function of the type, and the reduce function that queries give
it. -/
structure Registry.IsOf (e : EntityType) (p : Profile) (view : ViewDefinition) : Prop where
  map : ∃ fields source, Query.mapFunction e fields = .ok source ∧ view.map = .str source
  reduce : view.reduce = Query.reduceSource p

section
variable {e : EntityType} {p : Profile} {m : Memory}

/-! ## Responses -/

/-- A window on rows of the type shows such rows. -/
theorem EntityType.answers_response {rows : List Value} (h : e.RowsOf m rows) (total : Nat)
    (skip : Int) : e.Answers m (Window.response total skip rows) :=
  ⟨rows, member?_rows total skip rows, h⟩

theorem EntityType.Answers.rowsOf {response : Value} (h : e.Answers m response) {rows : List Value}
    (hrows : CompiledQuery.rowsOf response = .ok rows) : e.RowsOf m rows := by
  obtain ⟨rows', hmember, hof⟩ := h
  rw [CompiledQuery.rowsOf, hmember] at hrows
  cases hrows
  exact hof

/-- A view of the type answers with rows of its documents, if no reduce step is run. -/
theorem EntityType.answers_of_isOf (hm : m.HoldsJson) (he : e.IsTagged) {view : ViewDefinition}
    (hview : Registry.IsOf e p view) {params : Entries}
    (hruns : Index.runsReduce (Query.reduceSource p) params = false) {response : Value}
    (h : Index.answer m.documents view.map view.reduce params = .ok response) :
    e.Answers m response := by
  obtain ⟨fields, source, hsource, hmap⟩ := hview.map
  obtain ⟨rows, hrows, h⟩ := Fault.bind_eq_ok_iff.1 h
  obtain ⟨selected, hselect, h⟩ := Fault.bind_eq_ok_iff.1 h
  rw [hview.reduce, hruns, if_neg Bool.false_ne_true] at h
  obtain ⟨skip, -, h⟩ := Fault.bind_eq_ok_iff.1 h
  obtain ⟨limit, -, h⟩ := Fault.bind_eq_ok_iff.1 h
  cases h
  refine answers_response (List.forall_mem_map.2 fun r hr => ?_) _ _
  have hmem : r ∈ rows := Index.mem_of_mem_select hselect (Window.mem_of_mem_cut hr)
  -- whatever the fields of its key, the view has the test of the type
  rw [hmap] at hrows
  obtain ⟨emission, hread, -⟩ := Fault.bind_eq_ok_iff.1 hrows
  obtain ⟨keyFields, rfl⟩ := Query.eq_emission_of_ofSource he hsource hread
  rw [hm.ofDocuments_eq he hread, Except.ok.injEq] at hrows
  rw [← hrows] at hmem
  obtain ⟨d, hd, rfl⟩ := hm.exists_of_mem_rows hmem
  exact ⟨d, hd, by simp [Row.toValue, Value.required, Row.ofDocument]⟩

/-- The records of a response with rows of the type are made of its documents. -/
theorem EntityType.Answers.exists_of_mem_records (hm : m.HoldsJson) {response : Value}
    (h : e.Answers m response) {made : List Record} (hmade : e.records response = .ok made) :
    ∀ r ∈ made, r.isJson = true ∧ ∃ d ∈ m.documentsOf e, e.instantiate (.dict d.2) = .ok r := by
  obtain ⟨rows, hmember, hrows⟩ := h
  rw [records, hmember] at hmade
  intro r hr
  obtain ⟨row, hrow, hmakes⟩ := Fault.exists_of_mem_mapM hmade hr
  obtain ⟨d, hd, hvalue⟩ := hrows row hrow
  rw [hvalue] at hmakes
  exact ⟨isJson_of_instantiate (hm.isJson_of_mem hd) hmakes, d, hd, hmakes⟩

/-- What becomes of a response with rows of the type is made of its documents. -/
theorem EntityType.Answers.materialize (hm : m.HoldsJson) {response : Value}
    (h : e.Answers m response) {raw readonly order : Value} {result : Result}
    (hresult : e.materialize response raw readonly order = .ok result) : result.IsOf e m := by
  cases hraw : raw.truthy with
  | true =>
    rw [EntityType.materialize, hraw, if_pos rfl] at hresult
    cases hresult
    exact h
  | false =>
    rw [materialize_eq _ hraw] at hresult
    obtain ⟨made, hmade, hresult⟩ := Fault.bind_eq_ok_iff.1 hresult
    obtain ⟨marked, hmarked, hresult⟩ := Fault.bind_eq_ok_iff.1 hresult
    have hof := h.exists_of_mem_records hm hmade
    have hmakes : ∀ r ∈ marked, r.isJson = true ∧ ∃ d ∈ m.documentsOf e, e.Makes d r := by
      intro r hr
      split at hmarked
      · obtain ⟨r', hr', hmark⟩ := Fault.exists_of_mem_mapM hmarked hr
        obtain ⟨hjson, d, hd, hinstance⟩ := hof r' hr'
        exact ⟨Record.isJson_of_markReadonly hjson hmark, d, hd, r', hinstance, .inr hmark⟩
      · cases hmarked
        obtain ⟨hjson, d, hd, hinstance⟩ := hof r hr
        exact ⟨hjson, d, hd, r, hinstance, .inl rfl⟩
    split at hresult
    · cases hsort : Record.sort marked (order.orElse e.defaultSort) with
      | error fault =>
        rw [hsort] at hresult
        cases hresult
      | ok sorted =>
        rw [hsort] at hresult
        cases hresult
        have hperm := Record.sort_perm (fun r hr => (hmakes r hr).1) hsort
        exact fun r hr => (hmakes r (hperm.mem_iff.1 hr)).2
    · cases hresult
      exact fun r hr => (hmakes r hr).2

end

/-! ## Queries -/

namespace CompiledQuery

/-- A query that finds documents of the type: its view is one of the type, and no reduce step is run. -/
structure Finds (q : CompiledQuery) (e : EntityType) (p : Profile) : Prop where
  view : Registry.IsOf e p q.view
  proper : Proper q.view
  designName : e.designName = .ok q.designName
  runs : Index.runsReduce (Query.reduceSource p) q.params = false

theorem finds_of_find {e : EntityType} {p : Profile} {o : Options} {q : CompiledQuery}
    (h : Query.find e p o = .ok q) : q.Finds e p := by
  obtain ⟨fields, source, -, hsource, hdesign, hview⟩ := Query.view_of_find h
  refine ⟨?_, ?_, hdesign, Query.runsReduce_of_find h⟩ <;> rw [hview]
  · exact ⟨⟨fields, source, hsource, rfl⟩, rfl⟩
  · exact proper_of_mapFunction hsource p _

/-- Other parameters make no difference as long as the one of the reduce step is as it was. -/
theorem Finds.withParams {q r : CompiledQuery} {e : EntityType} {p : Profile} (h : q.Finds e p)
    (hview : r.view = q.view) (hdesign : r.designName = q.designName)
    (hreduce : r.params.get? "reduce" = q.params.get? "reduce") : r.Finds e p := by
  refine ⟨hview ▸ h.view, hview ▸ h.proper, hdesign ▸ h.designName, ?_⟩
  rw [Index.runsReduce, hreduce]
  exact h.runs

/-- What queries of one type need to know of a store, and keep: it has the indexes that it had at first,
and the design document of the type holds views of the type only. -/
structure Admits (e : EntityType) (s : Setting) (start : Memory) (I : Memory → Prop) : Prop where
  indexes : ∀ m, I m → SameIndexes start m
  written : ∀ m, I m → Written (Registry.IsOf e s.profile) s.designName
    (m.documents.get? (designId s.designName))
  extended : ∀ m view after, I m → Extends (Registry.IsOf e s.profile) s.designName m view after →
    I after

section
variable {e : EntityType} {s : Setting} {start m : Memory} {I : Memory → Prop} {q : CompiledQuery}
  (hadmits : Admits e s start I) (hstart : start.HoldsJson) (he : e.IsTagged)
  (hname : e.name.isHyphenated = true) (hdesign : e.designName = .ok s.designName)
include hadmits hstart he

/-- An answer from a view of the type is one over the documents at first. -/
theorem Admits.answers (hI : I m) {view : ViewDefinition} (hview : Registry.IsOf e s.profile view)
    (hq : q.Finds e s.profile) {response : Value}
    (h : Index.answer m.documents view.map view.reduce q.params = .ok response) :
    e.Answers start response := by
  rw [(hadmits.indexes m hI).answer_eq] at h
  exact EntityType.answers_of_isOf hstart he hview hq.runs h

include hname hdesign

/-- The path of a query leads to a view of its design document, if not to its own. -/
theorem Admits.request_safe (hI : I m) (hq : q.Finds e s.profile) :
    (Dialogue.request (q.viewRequest s)).Leads m (Dialogue.Safe I (e.Answers start)) := by
  have hsame := hdesign.symm.trans hq.designName
  rw [Except.ok.injEq] at hsame
  obtain ⟨first, rest, hsplit⟩ := List.exists_cons_of_ne_nil
    (List.splitOn_ne_nil '/' q.viewName.text.toList)
  have hpath : Memory.viewAt? (q.viewPath s.profile) = some (s.designName, String.ofList first) := by
    rw [CompiledQuery.viewPath, ← hsame]
    exact s.profile.viewAt?_viewPath (Query.not_mem_designName hname hdesign (by decide)) hsplit
  have hview := (hadmits.written m hI).view_eq hpath q.params
  refine Dialogue.safe_request hI fun response hresponse => ?_
  have hanswer : m.view (q.viewPath s.profile) q.params = .ok response := hresponse
  rw [hview] at hanswer
  cases hstored : viewIn (m.documents.get? (designId s.designName)) (String.ofList first) with
  | none =>
    rw [hstored] at hanswer
    cases hanswer
  | some view =>
    rw [hstored] at hanswer
    exact hadmits.answers hstart he hI ((hadmits.written m hI).of_viewIn hstored).2.1 hq hanswer

/-- A query for its view registers that at most. -/
theorem Admits.executeIndexed_safe (hI : I m) (hq : q.Finds e s.profile) :
    (q.executeIndexed s).Leads m (Dialogue.Safe I (e.Answers start)) := by
  have hfirst := hadmits.request_safe hstart he hname hdesign hI hq
  rw [executeIndexed_eq]
  show (q.settling s (m.answer (q.viewRequest s)).1).Leads m (Dialogue.Safe I (e.Answers start))
  cases hmissed : missed (m.answer (q.viewRequest s)).1 with
  | false =>
    rw [settling_of_not_missed hmissed]
    exact Dialogue.safe_done hI hfirst.2
  | true =>
    obtain ⟨name, hviewName⟩ := hq.proper.name
    rw [settling_of_missed hmissed]
    have hensured := (hadmits.written m hI).ensure_cases hq.proper hq.view hviewName
    have hkept : (ensure s.designName q.view).Leads m (Dialogue.Safe I fun _ => True) :=
      hensured.mono fun log result after hcases => ⟨by
        rcases hcases with rfl | hextends
        · exact hI
        · exact hadmits.extended m q.view after hI hextends, fun _ _ => trivial⟩
    exact hkept.safe_bind fun _ after hafter _ =>
      hadmits.request_safe hstart he hname hdesign hafter hq

/-- A query is sent with or without its view. -/
theorem Admits.executeOne_safe (hI : I m) (hq : q.Finds e s.profile) :
    (q.executeOne s).Leads m (Dialogue.Safe I (e.Answers start)) := by
  rw [executeOne]
  refine Dialogue.leads_ite ?_ (hadmits.executeIndexed_safe hstart he hname hdesign hI hq)
  rw [executeAdHoc]
  -- a query that is not permitted is not sent
  refine Dialogue.leads_ite ⟨hI, fun response hresponse => ?_⟩
    (Dialogue.safe_done hI fun response hresponse => ?_)
  · have hanswer : Index.answer m.documents q.view.map q.view.reduce q.params = .ok response :=
      hresponse
    exact hadmits.answers hstart he hI hq.view hq hanswer
  · cases hresponse

omit hadmits hstart he hname hdesign in
/-- Fresh rows are some of the rows. -/
theorem mem_of_mem_freshRows {seen rows : List Value} {fresh : List Value × List Value}
    (h : freshRows seen rows = .ok fresh) : ∀ row ∈ fresh.1, row ∈ rows := by
  induction rows generalizing seen fresh with
  | nil =>
    cases h
    intro row hrow
    cases hrow
  | cons row rows ih =>
    obtain ⟨id, -, h⟩ := Fault.bind_eq_ok_iff.1 h
    -- a row that is kept stands before the fresh rows of the rest
    have hkept {ids : List Value} {kept : List Value × List Value}
        (hrest : freshRows ids rows = .ok kept) : ∀ r ∈ row :: kept.1, r ∈ row :: rows :=
      List.forall_mem_cons.2 ⟨List.mem_cons_self, fun r hr => List.mem_cons_of_mem _ (ih hrest r hr)⟩
    split at h
    · obtain ⟨kept, hrest, h⟩ := Fault.bind_eq_ok_iff.1 h
      cases h
      exact hkept hrest
    · split at h
      · cases h
      · split at h
        · exact fun r hr => List.mem_cons_of_mem _ (ih h r hr)
        · obtain ⟨kept, hrest, h⟩ := Fault.bind_eq_ok_iff.1 h
          cases h
          exact hkept hrest

/-- Queries of the type are sent one after the other. -/
theorem Admits.gather_safe {qs : List CompiledQuery} (hqs : ∀ q ∈ qs, q.Finds e s.profile)
    (hI : I m) (seen : List Value) :
    (gather s seen qs).Leads m (Dialogue.Safe I (e.RowsOf start)) := by
  induction qs generalizing m seen with
  | nil =>
    refine Dialogue.safe_done hI fun rows hrows => ?_
    cases hrows
    intro row hrow
    cases hrow
  | cons q qs ih =>
    obtain ⟨hq, hqs⟩ := List.forall_mem_cons.1 hqs
    rw [gather]
    refine (hadmits.executeOne_safe hstart he hname hdesign hI hq).safe_bind
      fun response after hafter hanswers => ?_
    refine Dialogue.safe_lift hafter fun rows hrows => ?_
    refine Dialogue.safe_lift hafter fun fresh hfresh => ?_
    refine (ih hqs hafter fresh.2).safe_bind fun rest last hlast hrest => ?_
    refine Dialogue.safe_done hlast fun all hall => ?_
    cases hall
    exact List.forall_mem_append.2 ⟨fun row hrow =>
      hanswers.rowsOf hrows row (mem_of_mem_freshRows hfresh row hrow), hrest⟩

/-- A query that finds documents of the type comes to rows of such documents. -/
theorem Admits.execute_safe (hI : I m) (hq : q.Finds e s.profile) :
    (q.execute s).Leads m (Dialogue.Safe I (e.Answers start)) := by
  rw [execute]
  refine Dialogue.leads_ite ?_ (hadmits.executeOne_safe hstart he hname hdesign hI hq)
  rw [executePerKey]
  refine Dialogue.safe_lift hI fun limit _ => ?_
  refine Dialogue.safe_lift hI fun skip _ => ?_
  refine Dialogue.safe_lift hI fun qs hqs => ?_
  refine (hadmits.gather_safe hstart he hname hdesign (List.forall_mem_map.2 fun r hr => ?_) hI
    []).safe_bind fun rows after hafter hrows => Dialogue.safe_done hafter fun response hresponse => ?_
  · obtain ⟨keys, -, hkeys⟩ := Fault.bind_eq_ok_iff.1 hqs
    cases hkeys
    obtain ⟨key, -, rfl⟩ := List.mem_map.1 hr
    have hlimit : s.profile.limitParam ≠ "reduce" :=
      ne_of_mem_of_not_mem (Query.limitParam_mem _) (by decide)
    exact hq.withParams rfl rfl (by simp [CompiledQuery.withKey, Profile.offsetParam, hlimit])
  · cases hresponse
    exact EntityType.answers_response (fun row hrow => hrows row (Window.mem_of_mem_cut hrow)) _ _

end

end CompiledQuery

namespace Finder

/-- Finding comes to a result that is made of documents of the type. -/
theorem findWith_safe {f : Finder} {start m : Memory} {I : Memory → Prop}
    (hadmits : CompiledQuery.Admits f.entityType f.setting start I) (hstart : start.HoldsJson)
    (he : f.entityType.IsTagged) (hname : f.entityType.name.isHyphenated = true)
    (hdesign : f.entityType.designName = .ok f.designName) (hI : I m) (o : Options) :
    (f.findWith o).Leads m (Dialogue.Safe I fun result => result.IsOf f.entityType start) := by
  refine Dialogue.safe_lift hI fun q hq => ?_
  refine (hadmits.execute_safe hstart he hname hdesign hI
    (CompiledQuery.finds_of_find hq)).safe_bind fun response after hafter hanswers => ?_
  exact Dialogue.safe_done hafter fun result hresult => hanswers.materialize hstart hresult

end Finder

end ViewFinder
