import Mathlib.Data.List.Perm.Subperm
import ViewFinder.Proofs.FindConditions
import ViewFinder.Proofs.Query.Ranges

/-!
# Keys and the fields of their view

A view emits the fields of `use_key`, or those of the conditions without repetition. The keys that are
sent to it hold a value for each condition, in the order of the stored names, and do not look at the
fields of the view (`Query.GivesKey`). So keys line up with their view if and only if its fields are
those of the conditions (`find_keys_lineUp_iff`): always without `use_key` where no field is given twice,
but not where `use_key` names other fields or two names of a condition stand for one field.
-/

namespace ViewFinder

/-! ## What keys are made of -/

/-- Does a component of a key come from a condition: is it one of its bounds, or one of the values that
it lists? An exact value is both its bounds. -/
def Condition.Gives (condition v : Value) : Prop :=
  v = Query.lowBound condition ∨ v = Query.highBound condition ∨
    Condition.isDiscrete condition = true ∧ ∃ vs, Condition.members condition = .ok vs ∧ v ∈ vs

namespace Query

/-- Is the key a list with one component for each of some conditions, in order? -/
def GivesKey (values : List Value) (key : Value) : Prop :=
  ∃ vs, key = .list vs ∧ List.Forall₂ Condition.Gives values vs

/-- Does a key line up with the fields of a view: has it one component for each of them, in order, that
comes from a condition on the field? -/
def LinesUp (conditions : Entries) (fields : List String) (key : Value) : Prop :=
  ∃ vs, key = .list vs ∧ List.Forall₂ (fun field v => ∃ c ∈ conditions,
    Name.normalizeField c.1.text = field ∧ Condition.Gives c.2 v) fields vs

/-- The names of the parameters that hold one key each. -/
def singleNames : List String := ["key", "startkey", "endkey"]

/-- The names of the parameters that hold a list of keys. -/
def listNames : List String := ["keys", fallbackParam]

/-- Is a key among the parameters, by itself or in a list of keys? -/
def HoldsKey (params : Entries) (key : Value) : Prop :=
  (∃ n ∈ singleNames, (.str n, key) ∈ params) ∨
    ∃ n ∈ listNames, ∃ keys, (.str n, .list keys) ∈ params ∧ key ∈ keys

end Query

/-- Does a query send a key: as the one that it asks for or a bound, or as one of those that it asks for,
together or one by one? -/
def CompiledQuery.Sends (q : CompiledQuery) (key : Value) : Prop :=
  (∃ n ∈ Query.singleNames, q.params.get? n = some key) ∨
    ∃ keys, (q.params.get? "keys" = some (.list keys) ∨ q.fallbackKeys = .list keys) ∧ key ∈ keys

/-- Options that leave it to the conditions which keys are asked for: they name neither bounds nor keys
themselves. -/
structure Options.LeavesKeys (o : Options) (conditions further : Entries) : Prop where
  conditions : o.conditions = .dict conditions
  startkey : o.startkey = .null
  endkey : o.endkey = .null
  extra : o.extra = .dict further
  named : further.Named
  keyless : ∀ n ∈ Query.listNames ++ Query.singleNames, further.get? n = none

namespace Query

section
variable {c v : Value} {values : List Value}

/-- What can be chosen for a condition without a range comes from it. -/
theorem gives_of_mem_choices (hexact : Condition.isRange c = false)
    (hv : v ∈ (choices c).toOption.getD []) : Condition.Gives c v := by
  cases hdiscrete : Condition.isDiscrete c with
  | true =>
    have hmembers := choices_eq_ok c
    rw [choices, hdiscrete, if_pos rfl] at hmembers hv
    exact .inr (.inr ⟨hdiscrete, _, hmembers, hv⟩)
  | false =>
    rw [choices, hdiscrete, if_neg Bool.false_ne_true] at hv
    rw [List.mem_singleton.1 hv]
    exact .inl (Condition.bounds_of_exact hexact).1.symm

/-- The keys of all combinations have one component for each condition. -/
theorem givesKey_of_mem_expandKeys (hexact : ∀ c ∈ values, Condition.isRange c = false)
    {keys : List Value} (hkeys : expandKeys values = .ok keys) {key : Value} (hkey : key ∈ keys) :
    GivesKey values key := by
  rw [expandKeys, Fault.mapM_eq_ok fun c (_ : c ∈ values) => choices_eq_ok c] at hkeys
  cases hkeys
  obtain ⟨vs, hvs, rfl⟩ := List.mem_map.1 (Value.mem_of_mem_distinct hkey)
  rw [mem_combinations, List.forall₂_map_right_iff] at hvs
  refine ⟨vs, rfl, ?_⟩
  have hboth := (List.forall₂_and_left values vs).2 ⟨hexact, hvs.flip⟩
  exact hboth.imp fun c v h => gives_of_mem_choices h.1 h.2

/-- The keys that conditions ask for have one component for each condition, and there are none without
conditions. -/
theorem givesKey_of_conditionParams {p : Profile} {base : Entries}
    (h : conditionParams p values = .ok base) {key : Value} (hkey : HoldsKey base key) :
    values ≠ [] ∧ GivesKey values key := by
  have hgives {f : Value → Value} (hf : ∀ c ∈ values, Condition.Gives c (f c)) :
      GivesKey values (.list (values.map f)) :=
    ⟨_, rfl, List.forall₂_map_right_iff.2 (List.forall₂_same.2 hf)⟩
  rw [conditionParams] at h
  split at h
  · next hany =>
    have hne : values ≠ [] := by
      rintro rfl
      cases hany
    cases h
    have hbound : key = .list (values.map lowBound) ∨ key = .list (values.map highBound) := by
      simpa [HoldsKey, singleNames, listNames, fallbackParam] using hkey
    rcases hbound with rfl | rfl
    · exact ⟨hne, hgives fun c _ => .inl rfl⟩
    · exact ⟨hne, hgives fun c _ => .inr (.inl rfl)⟩
  · next hnone =>
    have hexact : ∀ c ∈ values, Condition.isRange c = false := by simpa using hnone
    split at h
    · next hany =>
      have hne : values ≠ [] := by
        rintro rfl
        cases hany
      obtain ⟨keys, hkeys⟩ := exists_expandKeys values
      rw [hkeys] at h
      cases h
      have hmem : key ∈ keys := by
        cases hmulti : p.multiKey <;>
          simpa [HoldsKey, singleNames, listNames, fallbackParam, hmulti] using hkey
      exact ⟨hne, givesKey_of_mem_expandKeys hexact hkeys hmem⟩
    · split at h
      · cases h
        simp [HoldsKey] at hkey
      · next hempty =>
        cases h
        have heq : key = .list values := by
          simpa [HoldsKey, singleNames, listNames, fallbackParam] using hkey
        refine ⟨by simpa using hempty, ?_⟩
        rw [heq, GivesKey]
        refine ⟨values, rfl, List.forall₂_same.2 fun c hc => .inl ?_⟩
        exact (Condition.bounds_of_exact (hexact c hc)).1.symm

end

/-! ## The keys of a query -/

section
variable {p : Profile} {o : Options} {conditions further : Entries}
  (ho : o.LeavesKeys conditions further)
include ho

/-- Window, direction and further parameters are no keys. -/
theorem exists_pagingParams_of_leavesKeys : ∃ paging, pagingParams p o = .ok paging ∧
    paging.Named ∧ ∀ n ∈ listNames ++ singleNames, paging.get? n = none := by
  obtain ⟨paging, hpaging, hnamed, hget⟩ := exists_pagingParams_of_extra (p := p) ho.extra ho.named
    (ho.keyless "keys" (by decide))
  refine ⟨paging, hpaging, hnamed, fun n hn => ?_⟩
  have hnames : ∀ n ∈ listNames ++ singleNames, n ∉ windowNames ∧ "descending" ≠ n := by decide
  rw [hget, ho.keyless n hn, if_neg fun h => (hnames n hn).2 h.2,
    get?_windowParams_of_not_mem p o (hnames n hn).1]
  rfl

/-- The keys among the parameters are those that the conditions ask for. -/
theorem exists_searchValues_of_leavesKeys : ∃ base params,
    conditionParams p (sortedValues conditions) = .ok base ∧ searchValues p o = .ok params ∧
      (∀ n ∈ singleNames, ∀ key, params.get? n = some key → HoldsKey base key) ∧
      ∀ n ∈ listNames, params.get? n = base.get? n := by
  obtain ⟨base, hbase, -⟩ := exists_conditionParams p (sortedValues conditions)
  obtain ⟨hnamed, hnull, -⟩ := restriction_of_conditionParams hbase
  obtain ⟨paging, hpaging, hpnamed, hnone⟩ := exists_pagingParams_of_leavesKeys (p := p) ho
  have hvalues : searchValues p o = .ok (settle ((withBounds base o).merge paging)) := by
    rw [searchValues, ho.conditions]
    rw [sortedValues] at hbase
    simp only [Value.entries, hbase, hpaging, bind, Except.bind, pure, Except.pure]
    rfl
  have hbounded : withBounds base o = base := by
    rw [withBounds, ho.startkey, ho.endkey]
    rfl
  rw [hbounded] at hvalues
  have hkept {n : String} (hn : n ∈ listNames ++ singleNames) :
      kept (base.merge paging) n = base.get? n := by
    rw [kept, Entries.get?_merge hpnamed, hnone n hn, Option.none_or, filter_isNull (hnull n)]
  have hmem {n : String} (hn : n ∈ singleNames) {key : Value} (hget : base.get? n = some key) :
      HoldsKey base key := .inl ⟨n, hn, Entries.mem_of_get? hget⟩
  refine ⟨base, _, hbase, hvalues, fun n hn key hget => ?_, fun n hn => ?_⟩
  · rw [get?_settle n (hnamed.merge hpnamed)] at hget
    split at hget
    · next hbound =>
      obtain ⟨w, hw, rfl⟩ := Option.map_eq_some_iff.1 hget
      obtain ⟨k, hk, hw⟩ := exists_kept_of_settledBound hbound hw
      have hsingle : ∀ k ∈ boundNames, k ∈ singleNames := by decide
      rw [hkept (List.mem_append_right _ (hsingle k hk))] at hw
      -- it is a key already, and stays as it is
      obtain ⟨-, vs, rfl, -⟩ := givesKey_of_conditionParams hbase (hmem (hsingle k hk) hw)
      exact hmem (hsingle k hk) hw
    · rw [hkept (List.mem_append_right _ hn)] at hget
      exact hmem hn hget
  · have hnames : ∀ n ∈ listNames, n ∉ boundNames := by decide
    rw [get?_settle n (hnamed.merge hpnamed), if_neg (hnames n hn),
      hkept (List.mem_append_left _ hn)]

/-- A query that leaves its keys to the conditions can be compiled, and each key that it sends has one
component for each condition. -/
theorem exists_find_of_leavesKeys {e : EntityType} {designName source : String}
    {fields : List String} (hdesign : e.designName = .ok designName)
    (hfields : searchFields e o = .ok fields) (hsource : mapFunction e fields = .ok source) :
    ∃ q, find e p o = .ok q ∧ q.viewName = .str (viewName fields findPrefix) ∧
      q.mapSource = .str source ∧ ∀ key, q.Sends key →
        conditions ≠ [] ∧ GivesKey (sortedValues conditions) key := by
  obtain ⟨base, params, hbase, hvalues, hsingle, hlist⟩ :=
    exists_searchValues_of_leavesKeys (p := p) ho
  have hholds {q : CompiledQuery}
      (hparams : ∀ n ∈ "keys" :: singleNames, q.params.get? n = params.get? n)
      (hfallback : q.fallbackKeys = (params.get? fallbackParam).getD (.list [])) {key : Value}
      (hkey : q.Sends key) : HoldsKey base key := by
    rcases hkey with ⟨n, hn, hget⟩ | ⟨keys, hget | hget, hmem⟩
    · rw [hparams n (List.mem_cons_of_mem _ hn)] at hget
      exact hsingle n hn key hget
    · rw [hparams "keys" (List.mem_cons_self ..), hlist "keys" (by decide)] at hget
      exact .inr ⟨"keys", by decide, keys, Entries.mem_of_get? hget, hmem⟩
    · rw [hfallback, hlist fallbackParam (by decide)] at hget
      cases hbaseget : base.get? fallbackParam with
      | none =>
        rw [hbaseget] at hget
        cases hget
        cases hmem
      | some v =>
        rw [hbaseget] at hget
        cases hget
        exact .inr ⟨fallbackParam, by decide, keys, Entries.mem_of_get? hbaseget, hmem⟩
  have hgives {key : Value} (hkey : HoldsKey base key) :
      conditions ≠ [] ∧ GivesKey (sortedValues conditions) key := by
    obtain ⟨hne, hgives⟩ := givesKey_of_conditionParams hbase hkey
    refine ⟨?_, hgives⟩
    rintro rfl
    exact hne rfl
  have hnames : ∀ n ∈ "keys" :: singleNames, fallbackParam ≠ n ∧ "reduce" ≠ n := by decide
  rw [find, hfields, hvalues]
  cases hcounting : p.reduceCounting with
  | true =>
    refine ⟨_, build_eq hdesign hsource o findPrefix _ _ false, rfl, rfl, fun key hkey => ?_⟩
    refine hgives (hholds (fun n hn => ?_) ?_ hkey)
    · rw [Entries.get?_erase, if_neg (hnames n hn).1, Entries.get?_set, if_neg (hnames n hn).2]
    · rw [Entries.get?_set, if_neg (by decide)]
  | false =>
    refine ⟨_, build_eq hdesign hsource o findPrefix _ _ false, rfl, rfl, fun key hkey => ?_⟩
    refine hgives (hholds (fun n hn => ?_) rfl hkey)
    rw [Entries.get?_erase, if_neg (hnames n hn).1]

end

/-! ## Lining up -/

section
variable {conditions : Entries} {fields : List String} {key : Value}

/-- A key with one component for each condition lines up with the fields of the conditions. -/
theorem linesUp_of_givesKey (h : GivesKey (sortedValues conditions) key) :
    LinesUp conditions ((sortedConditions conditions).map (·.1)) key := by
  obtain ⟨vs, rfl, hvs⟩ := h
  refine ⟨vs, rfl, ?_⟩
  rw [sortedValues, List.forall₂_map_left_iff] at hvs
  rw [List.forall₂_map_left_iff]
  have hmem : ∀ c ∈ sortedConditions conditions,
      ∃ d ∈ conditions, (Name.normalizeField d.1.text, d.2) = c := fun c hc =>
    List.mem_map.1 ((sortedConditions_perm conditions).mem_iff.1 hc)
  refine ((List.forall₂_and_left _ vs).2 ⟨hmem, hvs⟩).imp ?_
  rintro c v ⟨⟨d, hd, rfl⟩, hv⟩
  exact ⟨d, hd, rfl, hv⟩

/-- It lines up with no other fields that are in ascending order. -/
theorem fields_eq_of_linesUp (hkept : ∀ c ∈ conditions, Text.isKept c.1.text = true)
    (hfields : fields.Pairwise fun m n => Text.before m n = true)
    (hgives : GivesKey (sortedValues conditions) key) (h : LinesUp conditions fields key) :
    fields = (sortedConditions conditions).map (·.1) := by
  obtain ⟨vs, rfl, hvs⟩ := hgives
  obtain ⟨ws, heq, hws⟩ := h
  cases heq
  have hlength : (conditions.map fun c => (Name.normalizeField c.1.text, c.2)).length =
      fields.length := by
    have hsorted := (sortedConditions_perm conditions).length_eq
    rw [hws.length_eq, ← hvs.length_eq, sortedValues, ← hsorted, List.length_map]
  have hmem : ∀ f ∈ fields, ∃ c ∈ conditions, Name.normalizeField c.1.text = f := by
    have hboth : List.Forall₂ (fun f v => (∃ c ∈ conditions, Name.normalizeField c.1.text = f) ∧
        v = v) fields vs := hws.imp fun f v hc => by
      obtain ⟨c, hc, hname, -⟩ := hc
      exact ⟨⟨c, hc, hname⟩, rfl⟩
    exact ((List.forall₂_and_left fields vs).1 hboth).1
  -- as many fields as conditions, all different and all names of conditions: those of all of them
  have hsub : fields ⊆ (conditions.map fun c => (Name.normalizeField c.1.text, c.2)).map (·.1) := by
    intro f hf
    obtain ⟨c, hc, rfl⟩ := hmem f hf
    exact List.mem_map_of_mem (List.mem_map_of_mem hc)
  have hperm := ((nodup_of_pairwise hfields).subperm hsub).perm_of_length_le
    (by rw [List.length_map]; exact Nat.le_of_eq hlength)
  refine eq_sortByName_of_perm (fun f hf => ?_) hfields hperm
  obtain ⟨c, hc, rfl⟩ := hmem f hf
  exact Name.isKept_normalizeField (hkept c hc)

end

/-- Without `use_key` and without two names for one field they are those of the conditions. -/
theorem searchFields_of_nodup {e : EntityType} {o : Options} {names : List Value}
    (hgiven : givenNames o = .ok names) (hnames : ∀ n ∈ names, Text.isKept n.text = true)
    {conditions : Entries} (hc : o.conditions = .dict conditions)
    (hkey : o.useKey.truthy = false) (hne : conditions ≠ [])
    (hdistinct : (conditions.map fun c => Name.normalizeField c.1.text).Nodup) :
    searchFields e o = .ok ((sortedConditions conditions).map (·.1)) := by
  have hsame := hgiven
  rw [givenNames, hkey, hc] at hsame
  cases hsame
  have hkept : ∀ n ∈ sortNames ((conditions.map (·.1)).map fun v => Name.normalizeField v.text),
      Text.isKept n = true := by
    intro n hn
    obtain ⟨v, hv, rfl⟩ := List.mem_map.1 (mem_sortNames.1 hn)
    exact Name.isKept_normalizeField (hnames v hv)
  have hsorted := pairwise_searchFields hgiven hnames (searchFields_eq e hgiven (by simpa using hne))
  rw [searchFields_eq e hgiven (by simpa using hne), Except.ok.injEq]
  refine eq_sortByName_of_perm hkept hsorted ?_
  rw [List.perm_ext_iff_of_nodup (nodup_of_pairwise hsorted) (by rwa [List.map_map])]
  intro n
  rw [mem_sortNames, List.map_map, List.map_map]
  rfl

end Query

/-- Where conditions are the only source of keys, each key that a find query sends has one component for
each condition, in the order of the stored names. So its keys line up with the fields of the view if and
only if these are the stored names of the conditions, one by one, or if there is no key. They are where
`use_key` names no fields and no field is given twice. -/
theorem find_keys_lineUp_iff {e : EntityType} {o : Options} {conditions further : Entries}
    {names : List Value} {designName text : String} (p : Profile)
    (ho : o.LeavesKeys conditions further) (hdesign : e.designName = .ok designName)
    (hprints : Json.print e.discriminatorValue = .ok text)
    (hgiven : Query.givenNames o = .ok names) (hnames : ∀ n ∈ names, Text.isKept n.text = true)
    (hkept : ∀ c ∈ conditions, Text.isKept c.1.text = true) :
    ∃ fields source q, Query.searchFields e o = .ok fields ∧
      Query.mapFunction e fields = .ok source ∧ Query.find e p o = .ok q ∧
      q.viewName = .str (Query.viewName fields Query.findPrefix) ∧ q.mapSource = .str source ∧
      (∀ key, q.Sends key → Query.GivesKey (Query.sortedValues conditions) key) ∧
      ((∀ key, q.Sends key → Query.LinesUp conditions fields key) ↔
        ((∃ key, q.Sends key) → fields = (Query.sortedConditions conditions).map (·.1))) ∧
      (o.useKey.truthy = false →
        (conditions.map fun c => Name.normalizeField c.1.text).Nodup →
          ∀ key, q.Sends key → Query.LinesUp conditions fields key) := by
  obtain ⟨fields, hfields, -, -⟩ := Query.exists_searchFields e hgiven
  obtain ⟨source, hsource⟩ : ∃ source, Query.mapFunction e fields = .ok source := by
    rw [Query.mapFunction, hprints]
    exact ⟨_, rfl⟩
  obtain ⟨q, hq, hview, hmap, hsends⟩ :=
    Query.exists_find_of_leavesKeys (p := p) ho hdesign hfields hsource
  have hascending := Query.pairwise_searchFields hgiven hnames hfields
  refine ⟨fields, source, q, hfields, hsource, hq, hview, hmap,
    fun key hkey => (hsends key hkey).2, ⟨?_, ?_⟩, ?_⟩
  · rintro hline ⟨key, hkey⟩
    exact Query.fields_eq_of_linesUp hkept hascending (hsends key hkey).2 (hline key hkey)
  · intro heq key hkey
    rw [heq ⟨key, hkey⟩]
    exact Query.linesUp_of_givesKey (hsends key hkey).2
  · intro hkey hdistinct key hsent
    obtain ⟨hne, hgives⟩ := hsends key hsent
    have hsame :=
      Query.searchFields_of_nodup (e := e) hgiven hnames ho.conditions hkey hne hdistinct
    rw [hfields, Except.ok.injEq] at hsame
    rw [hsame]
    exact Query.linesUp_of_givesKey hgives

/-- People of an age and a name, by the view of the name alone. -/
def ageByName : Options :=
  { conditions := .dict [(.str "age", .int 3), (.str "name", .str "Bob")], useKey := .str "name" }

theorem find_ageByName_lineUp_iff : ∃ fields source q,
    Query.searchFields person ageByName = .ok fields ∧
    Query.mapFunction person fields = .ok source ∧
    Query.find person ⟨{ minor := 9 }⟩ ageByName = .ok q ∧
    q.viewName = .str (Query.viewName fields Query.findPrefix) ∧ q.mapSource = .str source ∧
    (∀ key, q.Sends key → Query.GivesKey (Query.sortedValues
      [(.str "age", .int 3), (.str "name", .str "Bob")]) key) ∧
    ((∀ key, q.Sends key → Query.LinesUp
        [(.str "age", .int 3), (.str "name", .str "Bob")] fields key) ↔
      ((∃ key, q.Sends key) → fields = (Query.sortedConditions
        [(.str "age", .int 3), (.str "name", .str "Bob")]).map (·.1))) ∧
    (ageByName.useKey.truthy = false →
      ([(.str "age", .int 3), (.str "name", .str "Bob")].map fun c : Value × Value =>
        Name.normalizeField c.1.text).Nodup → ∀ key, q.Sends key → Query.LinesUp
          [(.str "age", .int 3), (.str "name", .str "Bob")] fields key) :=
  find_keys_lineUp_iff _ ⟨rfl, rfl, rfl, rfl, .nil, by decide⟩ rfl rfl rfl (by decide) (by decide)

/-- The view emits the name, but is asked for the age and the name. -/
theorem find_ageByName_not_lineUp : ∃ q, Query.find person ⟨{ minor := 9 }⟩ ageByName = .ok q ∧
    Query.searchFields person ageByName = .ok ["name"] ∧
    q.Sends (.list [.int 3, .str "Bob"]) ∧
    ¬ Query.LinesUp [(.str "age", .int 3), (.str "name", .str "Bob")] ["name"]
      (.list [.int 3, .str "Bob"]) := by
  have hsorted : Query.sortedConditions [(.str "age", .int 3), (.str "name", .str "Bob")] =
      [("age", .int 3), ("name", .str "Bob")] := rfl
  refine ⟨_, rfl, rfl, .inl ⟨"key", by decide, ?_⟩, ?_⟩
  · simp [hsorted, ageByName, Query.addIf, Query.addAbsent, Query.boundAsKey, Query.fallbackParam,
      Value.truthy, Value.isNull, Entries.getD, Entries.merge]
  · rintro ⟨vs, heq, hvs⟩
    cases heq
    cases hvs.length_eq

end ViewFinder
