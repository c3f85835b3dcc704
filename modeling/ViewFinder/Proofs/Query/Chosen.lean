import ViewFinder.Proofs.Count
import ViewFinder.Proofs.Query.Bounds
import ViewFinder.Proofs.Query.Execution
import ViewFinder.Proofs.Query.Paging

/-!
# The rows that a query chooses

What a query asks for besides its window selects rows of an index (`Query.selection`); where keys are
asked for one by one, the rows selected for each of them are put together (`Query.chosen`). A query
that runs no reduce step comes to the window of these rows (`Query.Compiles.execute_ends`), and one
that does to counts that add up to their number (`Query.Compiles.execute_ends_counted`). Several keys
choose the same rows on every release of the store; only where there are none the ways part
(`Query.selected`).
-/

namespace ViewFinder

open Store

namespace Query

/-! ## The rows of several keys -/

/-- The rows that a query for several keys comes to. Where keys are asked for one by one and there
are none, nothing is left to restrict the rows. -/
def selected (p : Profile) (rows : List Row) (keys : List Value) : List Row :=
  if p.multiKey = false ∧ keys = [] then rows else Index.withKeys rows keys

theorem selected_of_ne_nil (p : Profile) (rows : List Row) {keys : List Value} (h : keys ≠ []) :
    selected p rows keys = Index.withKeys rows keys := by
  rw [selected, if_neg fun hnil => h hnil.2]

theorem selected_of_multiKey {p : Profile} (h : p.multiKey = true) (rows : List Row)
    (keys : List Value) : selected p rows keys = Index.withKeys rows keys := by
  rw [selected, if_neg (by simp [h])]

/-! ## Counting by key -/

theorem ofRow_countRow (key : Value) (n : Nat) : Count.ofRow (Index.countRow key n) = .ok n := by
  have hmember : (Index.countRow key n).member "value" = .ok (.int n) := by
    simp [Index.countRow, Value.member, Value.entries, Entries.getD, Except.map]
  have horElse : (Value.int n).orElse (.int 0) = .int n := by
    cases n <;> rfl
  rw [Count.ofRow, hmember]
  simp only [bind, Except.bind, horElse]
  rfl

/-- The row counts of a reduce step by key add up to the number of rows of all keys. -/
theorem sumRows_countRow (rows : List Row) (keys : List Value) :
    Count.sumRows (keys.filterMap fun key =>
      match Index.withKey rows key with
      | [] => none
      | matched => some (Index.countRow key matched.length)) =
        .ok (Index.withKeys rows keys).length := by
  induction keys with
  | nil => rfl
  | cons key keys ih =>
    rw [Index.withKeys, List.flatMap_cons, ← Index.withKeys, List.length_append]
    cases hmatched : Index.withKey rows key with
    | nil => simpa [hmatched] using ih
    | cons r matched =>
      rw [List.filterMap_cons, hmatched]
      simp [Count.sumRows, ih, ofRow_countRow, bind, Except.bind, pure, Except.pure]

/-- The counts of a reduce step add up to the number of the rows selected, if it counts by key where
several keys are listed. -/
theorem exists_reduced {params : Entries} {rows selected : List Row}
    (hselect : Index.select params rows = .ok selected)
    (hkeys : params.get? "keys" = none ∨ ∃ keys, params.get? "keys" = some (.list keys))
    (hgroup : (params.get? "keys").isSome = true → (params.getD "group").truthy = true) :
    ∃ counts, Index.reduced params rows selected = .ok counts ∧
      Count.sumRows counts = .ok selected.length := by
  rcases hkeys with hkeys | ⟨keys, hkeys⟩
  · rw [Index.reduced, hkeys]
    refine ⟨_, rfl, ?_⟩
    cases selected with
    | nil => rfl
    | cons r rows =>
      simp [Count.sumRows, ofRow_countRow, bind, Except.bind, pure, Except.pure]
  · have htruthy := hgroup (by rw [hkeys]; rfl)
    rw [Index.select_keys hkeys, Except.ok.injEq] at hselect
    rw [Index.reduced, hkeys, htruthy, ← hselect]
    exact ⟨_, rfl, sumRows_countRow rows keys⟩

/-! ## The rows of a query -/

/-- The rows that parameters select. -/
def selection (params : Entries) (rows : List Row) : List Row :=
  (Index.select params rows).toOption.getD []

/-- The keys that are asked for in one request each. -/
def oneByOne (base : Entries) : List Value :=
  match base.get? fallbackParam with
  | some (.list keys) => keys
  | _ => []

/-- The rows that a query comes to before its window is cut out: those selected or, where keys are
asked for one by one, those selected for each of them, without those of documents that came up
before. -/
def chosen (base : Entries) (rows : List Row) : List Row :=
  match oneByOne base with
  | [] => selection base rows
  | keys => CompiledQuery.fresh [] (keys.flatMap fun k => selection (base.set "key" k) rows)

section
variable {base : Entries} {rows : List Row}

theorem select_eq_selection (h : Index.Selectable base) (rows : List Row) :
    Index.select base rows = .ok (selection base rows) := by
  obtain ⟨selected, hselected⟩ := Index.exists_select h rows
  rw [selection, hselected]
  rfl

theorem mem_of_mem_selection {r : Row} (h : r ∈ selection base rows) : r ∈ rows := by
  rw [selection] at h
  cases hselect : Index.select base rows with
  | error fault =>
    rw [hselect] at h
    cases h
  | ok selected =>
    rw [hselect] at h
    exact Index.mem_of_mem_select hselect h

/-- The rows chosen are rows of the index. -/
theorem mem_of_mem_chosen {r : Row} (h : r ∈ chosen base rows) : r ∈ rows := by
  rw [chosen] at h
  split at h
  · exact mem_of_mem_selection h
  · obtain ⟨key, -, hkey⟩ := List.mem_flatMap.1 ((CompiledQuery.fresh_sublist _ _).subset h)
    exact mem_of_mem_selection hkey

/-- Rows can be selected by one key or several. -/
theorem selectable_singleton {p : Profile} {n : String} (hn : n ∈ ["key", keysName p])
    (vs : List Value) : Index.Selectable [(.str n, .list vs)] := by
  have hbounds : Index.Bounded [(.str n, .list vs)] := fun k hk v hv => by
    rw [get?_key_of_bound hn vs k (List.mem_cons_of_mem _ hk)] at hv
    cases hv
  exact (restriction_singleton hn vs).keys.symm.imp_right fun hkeys => ⟨hkeys, hbounds⟩

/-- A further key leaves the list of keys and the bounds as they are. -/
theorem selectable_set_key (key : Value) :
    Index.Selectable (base.set "key" key) ↔ Index.Selectable base := by
  simp [Index.Selectable, Index.Bounded]

/-- Rows can be selected by what conditions, bounds and direction ask for, if the bounds have places. -/
theorem selectable_asked {p : Profile} {values : List Value}
    (h : conditionParams p values = .ok base) {o : Options}
    (hvalues : ∀ v ∈ values, (lowBound v).isJson = true ∧ (highBound v).isJson = true)
    (hstart : IsBound o.startkey) (hend : IsBound o.endkey) : Index.Selectable (asked base o) := by
  obtain ⟨hnamed, -⟩ := restriction_of_conditionParams h
  have hplace {v : Value} (hbound : IsBound v) (hnull : v.isNull = false) :
      ∃ place, Collation.ofValue (asKey v) = .ok place :=
    hbound.resolve_left fun htrue => by
      rw [hnull] at htrue
      cases htrue
  refine (restriction_asked h o).keys.symm.imp_right fun hkeys => ⟨hkeys, fun n hn v hv => ?_⟩
  obtain ⟨w, rfl, hnull, hw⟩ := get?_asked_of_mem hnamed hn hv
  rcases hw with rfl | rfl | ⟨k, hk, hw⟩
  · exact hplace hstart hnull
  · exact hplace hend hnull
  · exact exists_place_of_conditionParams h hvalues hk hw

end

section
variable {m : Memory} {s : Setting} {q : CompiledQuery} {e : EntityType} {o : Options}
  {operation : String} {fields : List String} {base : Entries} {rows : List Row}
  (h : Compiles q e s.profile o operation fields base) (hr : Restriction s.profile base)
include h

/-- Under names that the window does not go by the parameters hold what the restriction asks for. -/
theorem Compiles.get?_eq {n : String} (hwindow : n ∉ windowNames)
    (hreduce : n ∉ [fallbackParam, "reduce", "group"]) : q.params.get? n = base.get? n := by
  rw [h.params n hreduce, get?_windowParams_of_not_mem _ o hwindow, Option.none_or]

/-- So the rows selected are those that the restriction selects. -/
theorem Compiles.get?_eq_of_mem : ∀ n ∈ Index.selectNames, q.params.get? n = base.get? n := by
  have hnames : ∀ n ∈ Index.selectNames,
      n ∉ windowNames ∧ n ∉ [fallbackParam, "reduce", "group"] := by decide
  exact fun n hn => h.get?_eq (hnames n hn).1 (hnames n hn).2

/-- The parameters for one key ask for that key. -/
theorem Compiles.get?_keyParams_of_mem (key : Value) : ∀ n ∈ Index.selectNames,
    (q.keyParams s.profile key).get? n = (base.set "key" key).get? n := by
  have hnames : ∀ n ∈ Index.selectNames, "skip" ≠ n ∧ n ∉ ["limit", "count"] := by decide
  intro n hn
  obtain ⟨hskip, hlimits⟩ := hnames n hn
  have hlimit : s.profile.limitParam ≠ n := ne_of_mem_of_not_mem (limitParam_mem _) hlimits
  rw [CompiledQuery.get?_keyParams, if_neg (by simp [hskip, hlimit]), Entries.get?_set,
    h.get?_eq_of_mem n hn]

include hr

theorem Compiles.limit?_keyParams (key : Value) :
    Index.limit? (q.keyParams s.profile key) = .ok none := by
  have hnone {n : String} (hn : n ∈ ["limit", "count"]) :
      (q.keyParams s.profile key).get? n = none := by
    have hnames : ∀ n ∈ ["limit", "count"], "key" ≠ n ∧ n ∈ ["limit", "count", "skip"] := by decide
    obtain ⟨hkey, hwindow⟩ := hnames n hn
    rw [CompiledQuery.get?_keyParams, if_neg hkey, h.get?_limit (hr.windowless n hwindow) hn]
    split
    · rfl
    · next hne => rw [if_neg fun heq => hne (.inr heq.2)]
  rw [Index.limit?, Entries.getD, hnone (by decide), hnone (by decide)]
  rfl

/-- For one key the store answers with the rows selected for that key. -/
theorem Compiles.answer_keyParams (hrows : Index.ofDocuments q.mapSource m.documents = .ok rows)
    (hnull : q.reduceSource.truthy = false) (hsel : Index.Selectable base) (key : Value) :
    Index.answer m.documents q.mapSource q.reduceSource (q.keyParams s.profile key) =
      .ok (Window.response rows.length 0
        ((selection (base.set "key" key) rows).map Row.toValue)) := by
  have hreduce : Index.runsReduce q.reduceSource (q.keyParams s.profile key) = false := by
    rw [Index.runsReduce, hnull, Bool.false_and]
  have hskip : (((q.keyParams s.profile key).get? "skip").getD (.int 0)).toInteger = .ok 0 := by
    rw [CompiledQuery.get?_keyParams, if_pos (.inl rfl)]
    rfl
  have hselect := (Index.select_congr (h.get?_keyParams_of_mem key) rows).trans
    (select_eq_selection ((selectable_set_key key).2 hsel) rows)
  rw [Index.answer_of_select hrows hselect hreduce hskip (h.limit?_keyParams hr key),
    Window.cut_zero_none]

/-- A query has the fallback keys that are asked for one by one. -/
theorem Compiles.fallbackKeys_eq : q.fallbackKeys = .list (oneByOne base) := by
  rw [h.fallbackKeys, oneByOne]
  rcases hr.fallback with hnone | ⟨-, keys, hkeys⟩
  · rw [hnone]
    rfl
  · rw [hkeys]
    rfl

/-- Where keys are asked for one by one the store runs no reduce step. -/
theorem Compiles.reduceSource_of_oneByOne (hne : oneByOne base ≠ []) :
    q.reduceSource.truthy = false := by
  have hmulti : s.profile.multiKey = false := by
    rcases hr.fallback with hnone | ⟨hmulti, -⟩
    · rw [oneByOne, hnone] at hne
      exact absurd rfl hne
    · exact hmulti
  rw [h.reduceSource, Query.reduceSource, show s.profile.reduceCounting = false from hmulti]
  rfl

variable (hsel : Index.Selectable base) (hserved : q.Served s m)
  (hrows : Index.ofDocuments q.mapSource m.documents = .ok rows)
include hsel hserved hrows

/-- A query that runs no reduce step comes to the window of the rows that are chosen, and can be served
again. -/
theorem Compiles.execute_ends (hw : o.HasWindow)
    (hruns : Index.runsReduce q.reduceSource q.params = false) :
    ∃ total after, (q.execute s).Ends m (.ok (Window.response total o.skip
      ((Window.cut o.skip o.limit? (chosen base rows)).map Row.toValue))) after ∧
        q.Served s after ∧ Registry.SameIndexes m after := by
  have hkeys := h.fallbackKeys_eq hr
  rw [CompiledQuery.execute, chosen]
  cases hone : oneByOne base with
  | nil =>
    rw [hkeys, hone]
    have hselect := (Index.select_congr h.get?_eq_of_mem rows).trans (select_eq_selection hsel rows)
    have hanswer := Index.answer_of_select hrows hselect hruns (h.toInteger_skip hw hr.windowless)
      (h.limit?_eq hw hr.windowless)
    obtain ⟨after, hends, hafter⟩ := CompiledQuery.executeOne_ends hserved hanswer
    exact ⟨_, after, hends, hafter⟩
  | cons k keys =>
    have hnull := h.reduceSource_of_oneByOne hr (by simp [hone])
    obtain ⟨skip, hskip, heq⟩ := h.integerParam?_skip hw hr.windowless
    have hends := CompiledQuery.executePerKey_ends hserved hkeys
      (fun key _ => h.answer_keyParams hr hrows hnull hsel key)
      (h.integerParam?_limit hw hr.windowless) hskip
    rw [heq, hone] at hends
    rw [hkeys, hone]
    exact hends

/-- A query that runs a reduce step comes to counts that add up to the number of the rows chosen. -/
theorem Compiles.execute_ends_counted (hmulti : s.profile.multiKey = true)
    (hruns : Index.runsReduce q.reduceSource q.params = true)
    (hgroup : (base.get? "keys").isSome = true → (q.params.getD "group").truthy = true) :
    ∃ response after, (q.execute s).Ends m (.ok response) after ∧
      Count.reduced response = .ok (chosen base rows).length := by
  have hone : oneByOne base = [] := by
    rcases hr.fallback with hnone | ⟨hsingle, -⟩
    · rw [oneByOne, hnone]
    · rw [hmulti] at hsingle
      cases hsingle
  have hselect := (Index.select_congr h.get?_eq_of_mem rows).trans (select_eq_selection hsel rows)
  have hkeys : q.params.get? "keys" = base.get? "keys" := h.get?_eq (by decide) (by decide)
  obtain ⟨counts, hcounts, hsum⟩ :=
    exists_reduced hselect (hkeys ▸ hr.keys) (by rwa [hkeys])
  obtain ⟨after, hends, -⟩ := CompiledQuery.executeOne_ends hserved
    (Index.answer_of_reduced hrows hselect hruns hcounts)
  have hcounted : Count.reduced (.dict [(.str "rows", .list counts)]) =
      .ok (chosen base rows).length := by
    rw [Count.reduced_rows, hsum, chosen, hone]
  refine ⟨_, after, ?_, hcounted⟩
  rw [CompiledQuery.execute, h.fallbackKeys_eq hr, hone]
  exact hends

end

/-! ## Rows chosen by keys -/

/-- Where neither several keys nor bounds nor a direction are asked for, the rows of the key are
selected, or all rows. -/
theorem selection_of_key {params : Entries}
    (h : ∀ n ∈ ["keys", "descending", "startkey", "endkey"], params.get? n = none)
    (rows : List Row) : selection params rows = (params.get? "key").elim rows (Index.withKey rows) := by
  have hascending : (params.getD "descending").truthy = false := by
    rw [Entries.getD, h _ (by decide)]
    rfl
  rw [selection, Index.select_walk (h _ (by decide)) hascending (h _ (by decide)) (h _ (by decide))]
  cases params.get? "key" <;> rfl

/-- Without conditions all rows are chosen. -/
theorem chosen_nil (rows : List Row) : chosen [] rows = rows := by
  rw [chosen, show oneByOne [] = [] from rfl]
  exact selection_of_key (fun _ _ => rfl) rows

/-- One key chooses its rows. -/
theorem chosen_key (rows : List Row) (vs : List Value) :
    chosen [(.str "key", .list vs)] rows = Index.withKey rows (.list vs) := by
  have hone : oneByOne [(.str "key", .list vs)] = [] := by
    rw [oneByOne, get?_singleton_of_ne (by decide)]
  have hnames : ∀ n ∈ ["keys", "descending", "startkey", "endkey"], "key" ≠ n := by decide
  rw [chosen, hone]
  refine (selection_of_key (fun n hn => get?_singleton_of_ne (hnames n hn) _) rows).trans ?_
  rw [get?_singleton, Option.elim_some]

section
variable {rows : List Row} {keys : List Value}

/-- Keys asked for in one request choose the rows of all of them. -/
theorem chosen_keys_of_multiKey :
    chosen [(.str "keys", .list keys)] rows = Index.withKeys rows keys := by
  have hone : oneByOne [(.str "keys", .list keys)] = [] := by
    rw [oneByOne, get?_singleton_of_ne (by decide)]
  rw [chosen, hone, selection, Index.select_keys (get?_singleton _ _)]
  rfl

/-- Keys asked for in one request each choose the rows of all of them, without those of documents that
came up before. If there are none all rows are chosen. -/
theorem chosen_keys_of_singleKey : chosen [(.str fallbackParam, .list keys)] rows =
    if keys = [] then rows else CompiledQuery.fresh [] (Index.withKeys rows keys) := by
  have hone : oneByOne [(.str fallbackParam, .list keys)] = keys := by
    rw [oneByOne, get?_singleton]
  have hnone {n : String} (hn : fallbackParam ≠ n) :
      Entries.get? [(.str fallbackParam, .list keys)] n = none := get?_singleton_of_ne hn _
  have hnames : ∀ n ∈ ["keys", "descending", "startkey", "endkey"],
      fallbackParam ≠ n ∧ "key" ≠ n := by decide
  rw [chosen, hone]
  cases keys with
  | nil =>
    rw [selection_of_key fun n hn => hnone (hnames n hn).1, hnone (by decide), if_pos rfl,
      Option.elim_none]
  | cons k keys =>
    have hkey (key : Value) : selection (Entries.set [(.str fallbackParam, .list (k :: keys))]
        "key" key) rows = Index.withKey rows key := by
      rw [selection_of_key fun n hn => by
        rw [Entries.get?_set, if_neg (hnames n hn).2, hnone (hnames n hn).1],
        Entries.get?_set, if_pos rfl, Option.elim_some]
    simp only [hkey, reduceCtorEq, if_false]
    rfl

/-- Several keys choose the rows of all of them, if no row comes up twice. Only where they are asked
for one by one and there are none, all rows are chosen. -/
theorem chosen_keys (p : Profile) (hnodup : ((Index.withKeys rows keys).map Row.id).Nodup) :
    chosen [(.str (keysName p), .list keys)] rows = selected p rows keys := by
  cases hmulti : p.multiKey with
  | true => rw [keysName_of_multiKey hmulti, chosen_keys_of_multiKey, selected_of_multiKey hmulti]
  | false =>
    rw [keysName_of_singleKey hmulti, chosen_keys_of_singleKey,
      CompiledQuery.fresh_of_not_seen hnodup fun _ _ => List.not_mem_nil, selected, hmulti]
    simp

end

end Query

end ViewFinder
