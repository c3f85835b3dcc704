import ViewFinder.Proofs.Finder

/-!
# One request for several keys, or one request each

A store that cannot look up several keys in one request is asked for one after the other, and the
window is cut out of what comes together. For the caller that makes no difference: on stores that
hold the same documents, of whatever release, finding comes to the same records in the same order,
and counting to the same number (`find_count_agree`). Where an operation fails on one store it fails
on the other.
-/

namespace ViewFinder

open Store

/-- The rows of a type depend on the documents of the store only. -/
theorem Store.Memory.rows_congr {m m' : Memory} (h : m'.documents = m.documents) (e : EntityType)
    (fields : List String) : m'.rows e fields = m.rows e fields := by
  rw [Memory.rows, Memory.documentsOf, h]
  rfl

section
variable {m : Memory} {e : EntityType} {designName : String} {o : Options} {conditions : Entries}
  {fields : List String} {source : String} (hm : m.HoldsJson) (he : e.HasIdentifiers)
  (hdesign : e.designName = .ok designName)
  (habsent : m.documents.get? (Registry.designId designName) = none) (ho : o.Plain)
  (hw : o.HasWindow) (hc : o.conditions = .dict conditions)
  (hchoice : ∀ c ∈ conditions, Condition.isChoice c.2 = true)
  (hdiscrete : ∃ c ∈ conditions, Condition.isDiscrete c.2 = true)
  (hsearched : Query.searchFields e o = .ok fields)
  (hsource : Query.mapFunction e fields = .ok source) (p : Profile) (allowAdHoc : Bool)
include hm he hdesign habsent ho hw hc hchoice hdiscrete hsearched hsource

/-- Where queries can be reached, finding and counting come to the window of the rows that the keys
select, and to their number. -/
theorem outcome_of_reachable {keyFields : List String}
    (hreach : Query.Reachable (Database.finderOf e designName p allowAdHoc).setting o fields source)
    (hread : Emission.ofSource (.str source) = .ok (e.emission keyFields)) :
    m.outcome p allowAdHoc e (·.findWith o) =
        e.materialize (Window.response 0 0 ((Window.cut o.skip o.limit?
          (Index.withKeys (m.rows e keyFields) (Query.keysOf (Query.sortedValues conditions)))).map
            Row.toValue)) o.raw o.readonly o.order ∧
      m.outcome p allowAdHoc e (·.countWith o) =
        Count.capped (.int (Index.withKeys (m.rows e keyFields)
          (Query.keysOf (Query.sortedValues conditions))).length) o.limit o.offset := by
  have hanswerable := Query.answerable_of_absent
    (s := (Database.finderOf e designName p allowAdHoc).setting) hm he hdesign habsent hsearched
    hreach.permitted hreach.slashless hsource hread
  have hvalues : ∀ v ∈ Query.sortedValues conditions, Condition.isChoice v = true :=
    Query.forall_mem_sortedValues.2 hchoice
  constructor
  · have hne : conditions ≠ [] := by
      obtain ⟨c, hcmem, -⟩ := hdiscrete
      exact List.ne_nil_of_mem hcmem
    obtain ⟨q, total, after, hq, hends⟩ := Query.find_ends hanswerable ho hc hchoice hw hne
    rw [(Finder.findWith_ends hq hends).outcome_eq hdesign]
    exact EntityType.materialize_response total o.skip ho.raw o.readonly o.order 0 0 _
  · obtain ⟨q, response, after, hq, hends, hn⟩ := Query.count_ends_of_keys
      (hanswerable.window .null .null) (ho.window .null .null) hc
      (fun c hcmem => Condition.isRange_of_isChoice (hchoice c hcmem)) rfl rfl hdiscrete
      (Query.expandKeys_eq hvalues) (Index.nodup_withKeys hm hvalues)
    rw [Query.selected_of_ne_nil _ _ (Query.keysOf_ne_nil hvalues)] at hn
    exact (Finder.countWith_ends hq hends hn).outcome_eq hdesign

omit hm in
/-- Where queries cannot be reached, finding and counting fail. -/
theorem outcome_of_not_reachable
    (hnot : ¬ Query.Reachable (Database.finderOf e designName p allowAdHoc).setting o fields
      source) :
    (m.outcome p allowAdHoc e (·.findWith o)).toOption = none ∧
      (m.outcome p allowAdHoc e (·.countWith o)).toOption = none := by
  have hvalues : ∀ v ∈ Query.sortedValues conditions, Condition.isChoice v = true :=
    Query.forall_mem_sortedValues.2 hchoice
  have hrange : ∀ c ∈ conditions, Condition.isRange c.2 = false := fun c hcmem =>
    Condition.isRange_of_isChoice (hchoice c hcmem)
  constructor
  · obtain ⟨q, hq, hfails⟩ := Query.find_fails
      (s := (Database.finderOf e designName p allowAdHoc).setting) he hdesign habsent hsource
      hsearched hnot ho hw hc hrange hdiscrete (Query.expandKeys_eq hvalues)
    exact Dialogue.Fails.toOption_outcome hdesign (Dialogue.fails_lift hq hfails.bind)
  · obtain ⟨q, hq, hfails⟩ := Query.count_fails
      (s := (Database.finderOf e designName p allowAdHoc).setting)
      (o := { o with limit := .null, offset := .null }) he hdesign habsent hsource
      hsearched (fun h => hnot ⟨h.permitted, h.slashless, h.readable⟩) (ho.window .null .null)
      ⟨.inl rfl, .inl rfl⟩ hc hrange hdiscrete (Query.expandKeys_eq hvalues)
    exact Dialogue.Fails.toOption_outcome hdesign (Dialogue.fails_lift hq hfails.bind)

end

section
variable {m m' : Memory} {e : EntityType} {designName : String} {o : Options} {conditions : Entries}

/-- Where the fields of the key cannot be told, finding and counting fail. -/
theorem outcome_of_unnamed (hdesign : e.designName = .ok designName) {fault : Fault}
    (hgiven : Query.givenNames o = .error fault) (p : Profile) (allowAdHoc : Bool) :
    (m.outcome p allowAdHoc e (·.findWith o)).toOption = none ∧
      (m.outcome p allowAdHoc e (·.countWith o)).toOption = none := by
  have hsearched : Query.searchFields e o = .error fault := by
    rw [Query.searchFields, hgiven]
    rfl
  have hfind : Query.find e p o = .error fault := by
    rw [Query.find, hsearched]
    rfl
  have hcount : Query.count e p { o with limit := .null, offset := .null } = .error fault := by
    rw [Query.count, show Query.searchFields e { o with limit := .null, offset := .null } =
      .error fault from hsearched]
    rfl
  exact ⟨Dialogue.Fails.toOption_outcome hdesign (Dialogue.fails_lift_error hfind),
    Dialogue.Fails.toOption_outcome hdesign (Dialogue.fails_lift_error hcount)⟩

section
variable (p p' : Profile) (allowAdHoc : Bool) (hm : m.HoldsJson) (he : e.HasIdentifiers)
  (hdesign : e.designName = .ok designName)
  (habsent : m.documents.get? (Registry.designId designName) = none) (ho : o.Plain)
  (hw : o.HasWindow) (hc : o.conditions = .dict conditions)
  (hchoice : ∀ c ∈ conditions, Condition.isChoice c.2 = true)
  (hdiscrete : ∃ c ∈ conditions, Condition.isDiscrete c.2 = true)
include hm he hdesign habsent ho hw hc hchoice hdiscrete

/-- Where there is a result it is the same on every release, and otherwise there is none on any. -/
theorem outcome_agree (hdocuments : m'.documents = m.documents) :
    (m.outcome p allowAdHoc e (·.findWith o)).toOption =
        (m'.outcome p' allowAdHoc e (·.findWith o)).toOption ∧
      (m.outcome p allowAdHoc e (·.countWith o)).toOption =
        (m'.outcome p' allowAdHoc e (·.countWith o)).toOption := by
  have hm' : m'.HoldsJson := ⟨hdocuments ▸ hm.named, hdocuments ▸ hm.objects⟩
  have habsent' : m'.documents.get? (Registry.designId designName) = none := hdocuments ▸ habsent
  cases hgiven : Query.givenNames o with
  | error fault =>
    have hfails := outcome_of_unnamed (m := m) hdesign hgiven p allowAdHoc
    have hfails' := outcome_of_unnamed (m := m') hdesign hgiven p' allowAdHoc
    exact ⟨hfails.1.trans hfails'.1.symm, hfails.2.trans hfails'.2.symm⟩
  | ok names =>
    obtain ⟨fields, hsearched, -, -⟩ := Query.exists_searchFields e hgiven
    obtain ⟨source, -, -, hsource, -⟩ := Query.exists_mapFunction he.isTagged fields
    -- whether queries can be reached is the same on every release
    by_cases hreach :
        Query.Reachable (Database.finderOf e designName p allowAdHoc).setting o fields source
    · obtain ⟨emission, hread⟩ := hreach.readable
      obtain ⟨keyFields, rfl⟩ := Query.eq_emission_of_ofSource he.isTagged hsource hread
      have hends := outcome_of_reachable hm he hdesign habsent ho hw hc hchoice hdiscrete hsearched
        hsource p allowAdHoc hreach hread
      have hends' := outcome_of_reachable hm' he hdesign habsent' ho hw hc hchoice hdiscrete
        hsearched hsource p' allowAdHoc ⟨hreach.permitted, hreach.slashless, hreach.readable⟩ hread
      rw [hends.1, hends.2, hends'.1, hends'.2, Memory.rows_congr hdocuments]
      exact ⟨rfl, rfl⟩
    · have hfails := outcome_of_not_reachable he hdesign habsent ho hw hc hchoice hdiscrete
        hsearched hsource p allowAdHoc hreach
      have hfails' := outcome_of_not_reachable he hdesign habsent' ho hw hc hchoice hdiscrete
        hsearched hsource p' allowAdHoc fun h => hreach ⟨h.permitted, h.slashless, h.readable⟩
      exact ⟨hfails.1.trans hfails'.1.symm, hfails.2.trans hfails'.2.symm⟩

/-- There is a result if the names of the key hold neither slash nor line break and the query is
permitted. -/
theorem exists_outcome (hpermitted : o.slow.truthy = true → allowAdHoc = true) {names : List Value}
    (hgiven : Query.givenNames o = .ok names)
    (hclear : ∀ n ∈ names, '/' ∉ n.text.toList ∧ '\n' ∉ n.text.toList) :
    (e.factory = .document →
        ∃ rs, m.outcome p allowAdHoc e (·.findWith o) = .ok (.records rs)) ∧
      ∃ n, m.outcome p allowAdHoc e (·.countWith o) = .ok (.int n) := by
  obtain ⟨fields, source, keyFields, hsearched, hsource, hread, hslashless⟩ :=
    Query.exists_readable he.isTagged hgiven hclear
  have hends := outcome_of_reachable hm he hdesign habsent ho hw hc hchoice hdiscrete hsearched
    hsource p allowAdHoc ⟨hpermitted, fun _ => hslashless, _, hread⟩ hread
  rw [hends.1, hends.2]
  refine ⟨?_, _, Count.capped_int hw _⟩
  intro hfactory
  obtain ⟨rs, hrs, -⟩ := EntityType.exists_materialize 0 0 hfactory (fun r hr =>
    hm.exists_dict_of_mem_rows (Index.mem_of_mem_withKeys (Window.mem_of_mem_cut hr))) ho.raw _ _
  exact ⟨rs, hrs⟩

end

/-- The second of the people of grade eleven or nine. -/
def secondByGrade : Options :=
  { conditions := .dict [(.str "grade", .list [.int 11, .int 9, .int 11])], limit := .int 1,
    offset := .int 1 }

end

end ViewFinder
