import ViewFinder.Proofs.Query.Params

/-!
# What a query asks for besides its window

Options may name bounds and a direction besides conditions. All of these are settled in the end
(`Query.settle`): what is null is left out, the bounds of a walk backwards are exchanged, and bounds
become keys. Nothing of that depends on the window, so the parameters of a query hold under each name
what the window asks for, or else what conditions, bounds and direction do
(`Query.exists_searchValues_asked`).
-/

namespace ViewFinder

namespace Query

/-! ## Settling -/

/-- The last step in the making of parameters. -/
def settle (params : Entries) : Entries :=
  let params : Entries := params.filter (!·.2.isNull)
  let params := if (params.getD "descending").truthy then swapBounds params else params
  boundAsKey (boundAsKey params "startkey") "endkey"

/-- The names of bounds. -/
def boundNames : List String := ["startkey", "endkey"]

/-- What a dictionary holds under a name, unless that is null. -/
def kept (params : Entries) (n : String) : Option Value := (params.get? n).filter (!·.isNull)

/-- Is the index to be walked backwards? -/
def walksBack (params : Entries) : Bool := ((kept params "descending").getD .null).truthy

/-- The bound that stands under a name once the bounds are settled. -/
def settledBound (params : Entries) (n : String) : Option Value :=
  if walksBack params then kept params (if n = "startkey" then "endkey" else "startkey")
  else kept params n

/-- That bound stands under the name of a bound before. -/
theorem exists_kept_of_settledBound {params : Entries} {n : String} (hn : n ∈ boundNames)
    {v : Value} (h : settledBound params n = some v) :
    ∃ k ∈ boundNames, kept params k = some v := by
  rw [settledBound] at h
  split at h
  · refine ⟨_, ?_, h⟩
    split <;> decide
  · exact ⟨n, hn, h⟩

section
variable (params : Entries) (m n : String)

theorem get?_addAbsent (v : Value) : (addAbsent params m v).get? n =
    if m = n ∧ v.isNull = false ∧ params.get? n = none then some v else params.get? n := by
  rw [addAbsent]
  cases hnull : v.isNull with
  | true => simp
  | false =>
    cases hget : params.get? m with
    | none =>
      by_cases hmn : m = n
      · subst hmn
        simp [hget]
      · simp [hmn]
    | some w =>
      by_cases hmn : m = n
      · subst hmn
        simp [hget]
      · simp [hmn]

/-- What stands under a name is what was added, or stood there before. -/
theorem eq_or_get?_of_addAbsent {params : Entries} {m n : String} {v w : Value}
    (h : (addAbsent params m v).get? n = some w) : w = v ∨ params.get? n = some w := by
  rw [get?_addAbsent] at h
  split at h
  · exact .inl (Option.some.inj h).symm
  · exact .inr h

theorem named_addAbsent {params : Entries} (h : params.Named) (m : String) (v : Value) :
    (addAbsent params m v).Named := by
  rw [addAbsent]
  split
  · exact h
  · exact h.set m v

theorem get?_swapBounds : (swapBounds params).get? n =
    if n = "startkey" then kept params "endkey"
    else if n = "endkey" then kept params "startkey"
    else params.get? n := by
  have hkept (k : String) : kept params k =
      if (params.getD k).isNull = false then some (params.getD k) else none := by
    rw [kept, Entries.getD]
    cases params.get? k with
    | none => rfl
    | some v => cases hnull : v.isNull <;> simp [hnull]
  simp only [swapBounds, get?_addIf, Entries.get?_erase, hkept, Bool.not_eq_true',
    eq_comm (a := n)]
  by_cases hstart : "startkey" = n
  · subst hstart
    simp
  · by_cases hend : "endkey" = n
    · subst hend
      simp
    · simp [hstart, hend]

theorem get?_boundAsKey : (boundAsKey params m).get? n =
    if m = n then (params.get? n).map asKey else params.get? n := by
  rw [boundAsKey]
  by_cases hmn : m = n
  · subst hmn
    cases hget : params.get? m <;> simp [hget]
  · cases hget : params.get? m <;> simp [hmn]

/-- Bounds become keys. -/
theorem get?_boundsAsKeys : (boundAsKey (boundAsKey params "startkey") "endkey").get? n =
    if n ∈ boundNames then (params.get? n).map asKey else params.get? n := by
  rw [get?_boundAsKey, get?_boundAsKey]
  by_cases hend : "endkey" = n
  · subst hend
    rfl
  · by_cases hstart : "startkey" = n
    · subst hstart
      rfl
    · rw [if_neg hend, if_neg hstart, if_neg]
      simpa [boundNames, eq_comm] using And.intro hstart hend

variable {params} (h : params.Named)
include h

theorem get?_nonnull : Entries.get? (params.filter (!·.2.isNull)) n = kept params n := by
  rw [Entries.get?_filter h (!·.isNull), kept]

/-- Under the name of a bound stands a bound, as a key, and under any other name what stood there,
unless that was null. -/
theorem get?_settle : (settle params).get? n =
    if n ∈ boundNames then (settledBound params n).map asKey else kept params n := by
  have hback : Entries.getD (params.filter (!·.2.isNull)) "descending" =
      (kept params "descending").getD .null := by
    rw [Entries.getD, get?_nonnull _ h]
  have hkept (k : String) : kept (params.filter (!·.2.isNull)) k = kept params k := by
    rw [kept, get?_nonnull _ h, kept, Option.filter_filter]
    simp
  rw [settle, get?_boundsAsKeys, hback, settledBound, walksBack]
  cases ((kept params "descending").getD .null).truthy with
  | false => simp only [get?_nonnull _ h, Bool.false_eq_true, if_false]
  | true =>
    simp only [get?_swapBounds, get?_nonnull _ h, hkept, if_true]
    by_cases hstart : n = "startkey"
    · subst hstart
      rfl
    · by_cases hend : n = "endkey"
      · subst hend
        rfl
      · simp only [if_neg hstart, if_neg hend]
        rw [if_neg, if_neg] <;> simp [boundNames, hstart, hend]

omit h in
/-- What is settled under a name depends on what stands there, and on bounds and direction. -/
theorem get?_settle_congr {params others : Entries} (h : params.Named) (h' : others.Named)
    {n : String} (hsame : ∀ k, k = n ∨ k ∈ "descending" :: boundNames →
      kept params k = kept others k) : (settle params).get? n = (settle others).get? n := by
  have hback : walksBack params = walksBack others := by
    rw [walksBack, walksBack, hsame _ (.inr (List.mem_cons_self ..))]
  have hother : kept params (if n = "startkey" then "endkey" else "startkey") =
      kept others (if n = "startkey" then "endkey" else "startkey") := by
    refine hsame _ (.inr (List.mem_cons_of_mem _ ?_))
    split <;> decide
  rw [get?_settle n h, get?_settle n h', settledBound, settledBound, hback, hother,
    hsame n (.inl rfl)]

end

/-! ## Conditions, bounds and direction -/

/-- What conditions ask for, with the bounds that the options name. Bounds of the conditions go
first. -/
def withBounds (base : Entries) (o : Options) : Entries :=
  addAbsent (addAbsent base "startkey" o.startkey) "endkey" o.endkey

/-- What a query asks for besides its window: its conditions, its bounds and its direction. -/
def asked (base : Entries) (o : Options) : Entries :=
  settle (addIf o.descending.truthy (withBounds base o) "descending" (.bool true))

theorem named_withBounds {base : Entries} (h : base.Named) (o : Options) :
    (withBounds base o).Named := named_addAbsent (named_addAbsent h _ _) _ _

theorem get?_withBounds_of_not_mem (base : Entries) (o : Options) {n : String}
    (hn : n ∉ boundNames) : (withBounds base o).get? n = base.get? n := by
  simp only [boundNames, List.mem_cons, List.not_mem_nil, or_false, not_or] at hn
  rw [withBounds, get?_addAbsent, if_neg fun h => hn.2 h.1.symm, get?_addAbsent,
    if_neg fun h => hn.1 h.1.symm]

/-- Under a name that is neither that of a bound nor that of the direction stands what the conditions
ask for. -/
theorem get?_asked_of_not_mem {base : Entries} (h : base.Named) (o : Options) {n : String}
    (hn : n ∉ "descending" :: boundNames) : (asked base o).get? n = kept base n := by
  rw [List.mem_cons, not_or] at hn
  rw [asked, get?_settle _ (named_addIf (named_withBounds h o) _ _ _), if_neg hn.2, kept,
    get?_addIf, if_neg fun h => hn.1 h.2.symm, get?_withBounds_of_not_mem base o hn.2, kept]

/-- Each bound is one that the conditions have, or one that the options name. -/
theorem get?_asked_of_mem {base : Entries} (h : base.Named) {o : Options} {n : String}
    (hn : n ∈ boundNames) {v : Value} (hv : (asked base o).get? n = some v) :
    ∃ w, v = asKey w ∧ w.isNull = false ∧
      (w = o.startkey ∨ w = o.endkey ∨ ∃ k ∈ boundNames, base.get? k = some w) := by
  have hkept {k : String} (hk : k ∈ boundNames) {w : Value}
      (hw : kept (addIf o.descending.truthy (withBounds base o) "descending" (.bool true)) k =
        some w) : w.isNull = false ∧
          (w = o.startkey ∨ w = o.endkey ∨ ∃ k ∈ boundNames, base.get? k = some w) := by
    have hdescending : "descending" ≠ k := by
      rintro rfl
      revert hk
      decide
    rw [kept, get?_addIf, if_neg fun h => hdescending h.2, Option.filter_eq_some_iff] at hw
    obtain ⟨hw, hnull⟩ := hw
    refine ⟨by simpa using hnull, ?_⟩
    rcases eq_or_get?_of_addAbsent hw with rfl | hw
    · exact .inr (.inl rfl)
    · rcases eq_or_get?_of_addAbsent hw with rfl | hw
      · exact .inl rfl
      · exact .inr (.inr ⟨k, hk, hw⟩)
  rw [asked, get?_settle _ (named_addIf (named_withBounds h o) _ _ _), if_pos hn,
    Option.map_eq_some_iff] at hv
  obtain ⟨w, hw, rfl⟩ := hv
  obtain ⟨k, hk, hw⟩ := exists_kept_of_settledBound hn hw
  exact ⟨w, rfl, hkept hk hw⟩

section
variable {p : Profile} {o : Options}

/-- The parameters for window and direction, among which further ones come first. -/
theorem exists_pagingParams_of_extra {further : Entries} (hextra : o.extra = .dict further)
    (hnamed : further.Named) (hkeys : further.get? "keys" = none) :
    ∃ paging, pagingParams p o = .ok paging ∧ paging.Named ∧ ∀ n, paging.get? n =
      (further.get? n).or (if o.descending.truthy = true ∧ "descending" = n
        then some (.bool true) else (windowParams p o).get? n) := by
  have hpaging : pagingParams p o = .ok ((addIf (!o.updateIndex.truthy) (addIf o.descending.truthy
      (addIf o.offset.truthy (addIf (!o.limit.isNull) [] p.limitParam o.limit)
        Profile.offsetParam o.offset) "descending" (.bool true))
          p.staleParam.1 (.str p.staleParam.2)).merge further) := by
    rw [pagingParams, hextra]
    simp only [Value.toEntries, bind, Except.bind, extraParams, hkeys]
  refine ⟨_, hpaging, Entries.Named.merge ?_ hnamed, fun n => ?_⟩
  · exact named_addIf (named_addIf (named_addIf (named_addIf .nil _ _ _) _ _ _) _ _ _) _ _ _
  · rw [Entries.get?_merge hnamed, get?_windowParams]
    congr 1
    by_cases hn : "descending" = n
    · subst hn
      have hstale : p.staleParam.1 ≠ "descending" :=
        ne_of_mem_of_not_mem (staleParam_mem p) (by decide)
      have hlimit : p.limitParam ≠ "descending" :=
        ne_of_mem_of_not_mem (limitParam_mem p) (by decide)
      simp [get?_addIf, hstale, hlimit, Profile.offsetParam]
    · simp [get?_addIf, hn, Profile.offsetParam]

end

section
variable {p : Profile} {o : Options} (hextra : o.extra = .dict [])
include hextra

/-- The parameters for window and direction. -/
theorem exists_pagingParams : ∃ paging, pagingParams p o = .ok paging ∧
    paging.Named ∧ ∀ n, paging.get? n = if o.descending.truthy = true ∧ "descending" = n
      then some (.bool true) else (windowParams p o).get? n :=
  exists_pagingParams_of_extra hextra .nil rfl

/-- Under each name the parameters hold what the window asks for, or else what conditions, bounds and
direction do. -/
theorem exists_searchValues_asked {conditions base : Entries} (hc : o.conditions = .dict conditions)
    (hbase : conditionParams p ((sortedConditions conditions).map (·.2)) = .ok base)
    (hnamed : base.Named) : ∃ params, searchValues p o = .ok params ∧
      ∀ n, params.get? n = ((windowParams p o).get? n).or ((asked base o).get? n) := by
  obtain ⟨paging, hpaging, hpnamed, hget⟩ := exists_pagingParams (p := p) hextra
  have hbounded := named_withBounds hnamed o
  refine ⟨settle ((withBounds base o).merge paging), ?_, fun n => ?_⟩
  · rw [searchValues, hc]
    simp only [Value.entries, hbase, hpaging, bind, Except.bind, pure, Except.pure]
    rfl
  have hkept {k : String} (hk : (windowParams p o).get? k = none) :
      kept ((withBounds base o).merge paging) k =
        kept (addIf o.descending.truthy (withBounds base o) "descending" (.bool true)) k := by
    rw [kept, Entries.get?_merge hpnamed, hget, hk, kept, get?_addIf]
    split <;> rfl
  have hnone {k : String} (hk : k ∉ windowNames) : (windowParams p o).get? k = none :=
    get?_windowParams_of_not_mem p o hk
  cases hw : (windowParams p o).get? n with
  | none =>
    have hnames : ∀ k ∈ "descending" :: boundNames, k ∉ windowNames := by decide
    rw [Option.none_or, asked]
    exact get?_settle_congr (hbounded.merge hpnamed) (named_addIf hbounded _ _ _)
      fun k hk => hkept (hk.elim (· ▸ hw) fun hk => hnone (hnames k hk))
  | some v =>
    have hbound : n ∉ boundNames := fun hn => by
      have hnames : ∀ k ∈ boundNames, k ∉ windowNames := by decide
      rw [hnone (hnames n hn)] at hw
      cases hw
    have hdescending : ¬ (o.descending.truthy = true ∧ "descending" = n) := by
      rintro ⟨-, rfl⟩
      rw [hnone (by decide)] at hw
      cases hw
    rw [get?_settle n (hbounded.merge hpnamed), if_neg hbound, kept, Entries.get?_merge hpnamed,
      hget, if_neg hdescending, hw]
    refine filter_isNull ?_
    rw [Option.some_or, ← hw]
    exact get?_windowParams_ne_null p o n

omit hextra in
/-- Without bounds and direction a query asks for what its conditions ask for, with bounds as keys. -/
theorem get?_asked_of_plain (ho : o.Plain) {base : Entries} (hnamed : base.Named)
    (hnull : ∀ n, base.get? n ≠ some .null) (hdescending : base.get? "descending" = none)
    (n : String) : (asked base o).get? n =
      if n ∈ boundNames then (base.get? n).map asKey else base.get? n := by
  have hkept (k : String) : kept base k = base.get? k := filter_isNull (hnull k)
  have hplain : asked base o = settle base := by
    rw [asked, withBounds, ho.startkey, ho.endkey, ho.descending]
    rfl
  have hback : walksBack base = false := by
    rw [walksBack, hkept, hdescending]
    rfl
  rw [hplain, get?_settle _ hnamed, settledBound, hback, if_neg Bool.false_ne_true, hkept]

omit hextra in
/-- Under each name the parameters hold what the window asks for, or else what the conditions do. -/
theorem exists_searchValues (ho : o.Plain) {conditions base : Entries}
    (hc : o.conditions = .dict conditions)
    (hbase : conditionParams p ((sortedConditions conditions).map (·.2)) = .ok base)
    (hnamed : base.Named) (hnull : ∀ n, base.get? n ≠ some .null)
    (hbounds : ∀ n ∈ "descending" :: boundNames, base.get? n = none) :
    ∃ params, searchValues p o = .ok params ∧
      ∀ n, params.get? n = ((windowParams p o).get? n).or (base.get? n) := by
  obtain ⟨params, hparams, hget⟩ := exists_searchValues_asked ho.extra hc hbase hnamed
  refine ⟨params, hparams, fun n => ?_⟩
  rw [hget, get?_asked_of_plain ho hnamed hnull (hbounds _ (List.mem_cons_self ..))]
  split
  · next hn =>
    rw [hbounds n (List.mem_cons_of_mem _ hn)]
    rfl
  · rfl

end

/-! ## What restricts the rows -/

/-- What conditions ask for: a range of keys, one key or several, or nothing. -/
theorem exists_conditionParams (p : Profile) (values : List Value) :
    ∃ base, conditionParams p values = .ok base ∧
      (base = [(.str "startkey", .list (values.map lowBound)),
          (.str "endkey", .list (values.map highBound))] ∨
        base = [] ∨ ∃ n ∈ ["key", keysName p], ∃ vs, base = [(.str n, .list vs)]) := by
  obtain ⟨keys, hkeys⟩ := exists_expandKeys values
  rw [conditionParams, hkeys]
  split
  · exact ⟨_, rfl, .inl rfl⟩
  · split
    · exact ⟨_, rfl, .inr (.inr ⟨keysName p, by simp, keys, rfl⟩)⟩
    · split
      · exact ⟨_, rfl, .inr (.inl rfl)⟩
      · exact ⟨_, rfl, .inr (.inr ⟨"key", by simp, values, rfl⟩)⟩

theorem get?_singleton (n : String) (v : Value) : Entries.get? [(.str n, v)] n = some v := by
  rw [Entries.get?_cons_str, if_pos rfl]

theorem get?_singleton_of_ne {m n : String} (h : m ≠ n) (v : Value) :
    Entries.get? [(.str m, v)] n = none := by
  rw [Entries.get?_cons_str, if_neg h]
  rfl

/-- A bound that has a place in an index, if there is one. -/
def IsBound (v : Value) : Prop := v.isNull = true ∨ ∃ place, Collation.ofValue (asKey v) = .ok place

/-- The key that a JSON value is made is JSON. -/
theorem isJson_asKey {v : Value} (h : v.isJson = true) : (asKey v).isJson = true := by
  have hone : (Value.list [v]).isJson = true := Value.allJson_iff.2 (List.forall_mem_singleton.2 h)
  cases v with
  | list vs => exact h
  | tuple vs => cases h
  | _ => exact hone

/-- A JSON bound has a place. -/
theorem isBound_of_isJson {v : Value} (h : v.isJson = true) : IsBound v :=
  have ⟨place, hplace, _⟩ := Collation.exists_ofValue (asKey v) (isJson_asKey h)
  .inr ⟨place, hplace⟩

/-- The bounds that conditions ask for have a place in an index, if values and ranges are JSON. -/
theorem exists_place_of_conditionParams {p : Profile} {values : List Value} {base : Entries}
    (h : conditionParams p values = .ok base)
    (hvalues : ∀ v ∈ values, (lowBound v).isJson = true ∧ (highBound v).isJson = true) {n : String}
    (hn : n ∈ boundNames) {v : Value} (hv : base.get? n = some v) :
    ∃ place, Collation.ofValue (asKey v) = .ok place := by
  have hplace {vs : List Value} (hvs : ∀ v ∈ vs, v.isJson = true) :
      ∃ place, Collation.ofValue (.list vs) = .ok place := by
    obtain ⟨place, hplace, -⟩ := Collation.exists_ofValue (.list vs) (Value.allJson_iff.2 hvs)
    exact ⟨place, hplace⟩
  obtain ⟨base', hbase', hcases⟩ := exists_conditionParams p values
  cases h.symm.trans hbase'
  rcases hcases with rfl | rfl | ⟨k, hk, vs, rfl⟩
  · rw [Entries.get?_cons_str, Entries.get?_cons_str] at hv
    split at hv
    · cases hv
      exact hplace (List.forall_mem_map.2 fun v hv => (hvalues v hv).1)
    · split at hv
      · cases hv
        exact hplace (List.forall_mem_map.2 fun v hv => (hvalues v hv).2)
      · cases hv
  · cases hv
  · have hnames : ∀ k ∈ keyNames, ∀ n ∈ boundNames, k ≠ n := by decide
    rw [get?_singleton_of_ne (hnames k (mem_keyNames hk) n hn)] at hv
    cases hv

/-- What is asked for besides a window. Where several keys are asked for they are listed, for one
request or for one each, which is done only where a store cannot take them all at once. -/
structure Restriction (p : Profile) (base : Entries) : Prop where
  windowless : ∀ n ∈ ["limit", "count", "skip"], base.get? n = none
  unreduced : base.get? "reduce" = none
  keys : base.get? "keys" = none ∨ ∃ keys, base.get? "keys" = some (.list keys)
  fallback : base.get? fallbackParam = none ∨
    p.multiKey = false ∧ ∃ keys, base.get? fallbackParam = some (.list keys)

/-- One key or several are a restriction. -/
theorem restriction_singleton {p : Profile} {n : String} (hn : n ∈ ["key", keysName p])
    (vs : List Value) : Restriction p [(.str n, .list vs)] := by
  have hother {k : String} (hk : k ∈ ["limit", "count", "skip", "reduce"]) :
      Entries.get? [(.str n, .list vs)] k = none := by
    have hnames : ∀ n ∈ keyNames, ∀ k ∈ ["limit", "count", "skip", "reduce"], n ≠ k := by decide
    exact get?_singleton_of_ne (hnames n (mem_keyNames hn) k hk) _
  refine ⟨fun k hk => hother ?_, hother (by decide), ?_, ?_⟩
  · exact List.mem_append_left ["reduce"] hk
  · by_cases hkeys : n = "keys"
    · exact .inr ⟨vs, by rw [hkeys, get?_singleton]⟩
    · exact .inl (get?_singleton_of_ne hkeys _)
  · by_cases hfallback : n = fallbackParam
    · subst hfallback
      refine .inr ⟨Bool.eq_false_iff.2 fun hmulti => ?_, vs, get?_singleton _ _⟩
      rw [keysName_of_multiKey hmulti] at hn
      revert hn
      decide
    · exact .inl (get?_singleton_of_ne hfallback _)

/-- They name neither bounds nor a direction. -/
theorem get?_key_of_bound {p : Profile} {n : String} (hn : n ∈ ["key", keysName p])
    (vs : List Value) : ∀ k ∈ "descending" :: boundNames, Entries.get? [(.str n, .list vs)] k = none := by
  have hnames : ∀ n ∈ keyNames, ∀ k ∈ "descending" :: boundNames, n ≠ k := by decide
  exact fun k hk => get?_singleton_of_ne (hnames n (mem_keyNames hn) k hk) _

/-- A range of keys is a restriction, and so is none. -/
theorem restriction_of_bounds {p : Profile} {base : Entries}
    (h : ∀ n, n ∉ boundNames → base.get? n = none) : Restriction p base :=
  ⟨fun n hn => h n (by revert n; decide), h _ (by decide), .inl (h _ (by decide)),
    .inl (h _ (by decide))⟩

/-- What conditions ask for are distinct parameters, none of them null, and a restriction. -/
theorem restriction_of_conditionParams {p : Profile} {values : List Value} {base : Entries}
    (h : conditionParams p values = .ok base) :
    base.Named ∧ (∀ n, base.get? n ≠ some .null) ∧ base.get? "descending" = none ∧
      Restriction p base := by
  obtain ⟨base', hbase', hcases⟩ := exists_conditionParams p values
  cases h.symm.trans hbase'
  rcases hcases with rfl | rfl | ⟨n, hn, vs, rfl⟩
  · refine ⟨(Entries.Named.nil.cons rfl).cons (get?_singleton_of_ne (by decide) _), fun n => ?_, ?_,
      restriction_of_bounds fun n hn => ?_⟩
    · rw [Entries.get?_cons_str, Entries.get?_cons_str]
      split
      · exact nofun
      · split <;> exact nofun
    · rw [Entries.get?_cons_str, if_neg (by decide), get?_singleton_of_ne (by decide)]
    · simp only [boundNames, List.mem_cons, List.not_mem_nil, or_false, not_or] at hn
      rw [Entries.get?_cons_str, if_neg (Ne.symm hn.1), get?_singleton_of_ne (Ne.symm hn.2)]
  · exact ⟨.nil, fun n => nofun, rfl, restriction_of_bounds fun n _ => rfl⟩
  · refine ⟨Entries.Named.nil.cons rfl, fun k => ?_, get?_singleton_of_ne ?_ _,
      restriction_singleton hn vs⟩
    · rw [Entries.get?_cons_str]
      split <;> exact nofun
    · have hnames : ∀ k ∈ keyNames, k ≠ "descending" := by decide
      exact hnames n (mem_keyNames hn)

/-- What conditions, bounds and direction ask for is a restriction. -/
theorem restriction_asked {p : Profile} {values : List Value} {base : Entries}
    (h : conditionParams p values = .ok base) (o : Options) : Restriction p (asked base o) := by
  obtain ⟨hnamed, hnull, -, hrestriction⟩ := restriction_of_conditionParams h
  have hget {n : String} (hn : n ∉ "descending" :: boundNames) :
      (asked base o).get? n = base.get? n := by
    rw [get?_asked_of_not_mem hnamed o hn, kept, filter_isNull (hnull n)]
  refine ⟨fun n hn => ?_, ?_, ?_, ?_⟩
  · have hnames : ∀ n ∈ ["limit", "count", "skip"], n ∉ "descending" :: boundNames := by decide
    rw [hget (hnames n hn)]
    exact hrestriction.windowless n hn
  · rw [hget (by decide)]
    exact hrestriction.unreduced
  · rw [hget (by decide)]
    exact hrestriction.keys
  · rw [hget (by decide)]
    exact hrestriction.fallback

end Query

end ViewFinder
