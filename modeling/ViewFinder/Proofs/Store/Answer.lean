import ViewFinder.Proofs.Query.Keys
import ViewFinder.Proofs.Store.Rows

/-!
# Answers to requests for keys

What a store answers from the rows of an index when a request asks for several keys, for one, or for
all rows. Where the keys are those of a query no row comes up twice (`Store.Index.withKeys_perm`):
the rows answered are those whose fields are all accepted.
-/

namespace ViewFinder.Store.Index

/-- The rows of each of several keys in turn. -/
def withKeys (rows : List Row) (keys : List Value) : List Row := keys.flatMap (withKey rows)

/-- The rows of some keys are rows of the index. -/
theorem mem_of_mem_withKeys {rows : List Row} {keys : List Value} {r : Row}
    (h : r ∈ withKeys rows keys) : r ∈ rows := by
  obtain ⟨k, -, hr⟩ := List.mem_flatMap.1 h
  exact List.mem_of_mem_filter hr

/-! ## Rows of several keys -/

/-- Two tests that no item passes both take apart what one or the other holds of. -/
theorem filter_append_perm {p q : Row → Bool} {rows : List Row}
    (h : ∀ r ∈ rows, p r = true → q r = false) :
    (rows.filter p ++ rows.filter q).Perm (rows.filter fun r => p r || q r) := by
  induction rows with
  | nil => exact .refl _
  | cons r rows ih =>
    obtain ⟨hr, hrows⟩ := List.forall_mem_cons.1 h
    cases hp : p r with
    | true => simpa [hp, hr hp] using ih hrows
    | false =>
      cases hq : q r with
      | true =>
        simp only [List.filter_cons, hp, hq, Bool.false_or, Bool.false_eq_true, if_false, if_true]
        exact List.perm_middle.trans ((ih hrows).cons r)
      | false => simpa [hp, hq] using ih hrows

/-- If no row has two of the keys, the rows of all keys are those that have one. -/
theorem withKeys_perm_of_pairwise {rows : List Row} {keys : List Value}
    (h : keys.Pairwise fun k l => ∀ r ∈ rows, r.key.equal k = true → r.key.equal l = false) :
    (withKeys rows keys).Perm (rows.filter fun r => keys.any (r.key.equal ·)) := by
  induction keys with
  | nil => simp [withKeys]
  | cons k keys ih =>
    obtain ⟨hk, hkeys⟩ := List.pairwise_cons.1 h
    have hdisjoint : ∀ r ∈ rows, r.key.equal k = true → keys.any (r.key.equal ·) = false := by
      intro r hr hrk
      simp only [List.any_eq_false, Bool.not_eq_true]
      exact fun l hl => hk l hl r hr hrk
    rw [withKeys, List.flatMap_cons, ← withKeys]
    simp only [List.any_cons]
    exact ((ih hkeys).append_left _).trans (filter_append_perm hdisjoint)

section
variable {m : Memory} (h : m.HoldsJson) {e : EntityType} {fields : List String}
include h

variable {conditions : List Value} (hc : ∀ c ∈ conditions, Condition.isChoice c = true)
include hc

/-- The rows of the keys of a query are those whose fields are all accepted. -/
theorem withKeys_perm : (withKeys (m.rows e fields) (Query.keysOf conditions)).Perm
    ((m.rows e fields).filter fun r => (Query.keysOf conditions).any (r.key.equal ·)) := by
  refine withKeys_perm_of_pairwise ((Query.nodup_keysOf hc).imp_of_mem ?_)
  intro k l hk hl hne r hr hrk
  obtain ⟨d, hd, rfl⟩ := h.exists_of_mem_rows hr
  exact Bool.eq_false_iff.2 fun hrl =>
    hne (Query.eq_of_mem_keysOf hc (h.isJson_fields hd fields) hk hl hrk hrl)

/-- No row comes up twice. -/
theorem nodup_withKeys :
    ((withKeys (m.rows e fields) (Query.keysOf conditions)).map Row.id).Nodup := by
  rw [((withKeys_perm h hc).map Row.id).nodup_iff]
  exact (h.nodup_rows e fields).sublist (List.filter_sublist.map _)

/-- The rows come in the order of the places that their fields have among what is accepted. -/
theorem pairwise_withKeys : (withKeys (m.rows e fields) (Query.keysOf conditions)).Pairwise
    fun r s => ∀ vs ws : List Value, r.key = .list vs → s.key = .list ws →
      ¬ Condition.places conditions ws < Condition.places conditions vs := by
  have hjson {r : Row} {k : Value} (hr : r ∈ withKey (m.rows e fields) k) {vs : List Value}
      (hvs : r.key = .list vs) : (∀ v ∈ vs, v.isJson = true) ∧ (Value.list vs).equal k = true := by
    obtain ⟨hmem, hrk⟩ := List.mem_filter.1 hr
    obtain ⟨d, hd, rfl⟩ := h.exists_of_mem_rows hmem
    cases hvs
    exact ⟨h.isJson_fields hd fields, hrk⟩
  have hplaces {r s : Row} {k l : Value} (hk : k ∈ Query.keysOf conditions)
      (hl : l ∈ Query.keysOf conditions) (hr : r ∈ withKey (m.rows e fields) k)
      (hs : s ∈ withKey (m.rows e fields) l)
      (hle : Query.firstPlace conditions k ≤ Query.firstPlace conditions l) (vs ws : List Value)
      (hvs : r.key = .list vs) (hws : s.key = .list ws) :
      ¬ Condition.places conditions ws < Condition.places conditions vs := by
    obtain ⟨hvjson, hvk⟩ := hjson hr hvs
    obtain ⟨hwjson, hwl⟩ := hjson hs hws
    exact Query.not_places_lt hc hvjson hwjson hk hl hvk hwl hle
  refine List.pairwise_flatMap.2 ⟨fun k hk => ?_, ?_⟩
  · exact List.pairwise_of_forall_mem_list fun r hr s hs => hplaces hk hk hr hs (Nat.le_refl _)
  · refine (Query.pairwise_keysOf hc).imp_of_mem fun hk hl hlt r hr s hs => ?_
    exact hplaces hk hl hr hs (Nat.le_of_lt hlt)

end

/-! ## Answers -/

section
variable {params : Entries} {rows : List Row}

theorem select_keys {keys : List Value} (h : params.get? "keys" = some (.list keys)) :
    select params rows = .ok (withKeys rows keys) := by
  rw [select, h]
  rfl

/-- Without several keys and without bounds, the rows of the one key asked for are selected, or all.
-/
theorem select_walk (hkeys : params.get? "keys" = none)
    (hdescending : (params.getD "descending").truthy = false)
    (hstart : params.get? "startkey" = none) (hend : params.get? "endkey" = none) :
    select params rows = .ok (match params.get? "key" with
      | some key => withKey rows key
      | none => rows) := by
  rw [select, hkeys]
  cases hkey : params.get? "key" <;>
    simp [walk, hdescending, hstart, hend, hkey, bounded, bind, Except.bind]

/-- With both bounds and without a key the rows between the bounds are selected. -/
theorem select_between (hkeys : params.get? "keys" = none) (hkey : params.get? "key" = none)
    (hdescending : (params.getD "descending").truthy = false) {low high : Value}
    (hlow : params.get? "startkey" = some low) (hhigh : params.get? "endkey" = some high)
    (hl : low.isJson = true) (hh : high.isJson = true) :
    select params rows = .ok (rows.filter fun r =>
      Collation.between (Collation.placeOf low) (Collation.placeOf high) r.place) := by
  simp only [select, walk, hkeys, hkey, hdescending, hlow, hhigh, bounded,
    Collation.ofValue_eq hl, Collation.ofValue_eq hh, bind, Except.bind, pure, Except.pure,
    Bool.false_eq_true, if_false, List.filter_filter]
  refine congrArg Except.ok (List.filter_congr fun r _ => ?_)
  rw [Collation.between, Bool.and_comm]

/-- The names of the parameters that the rows selected depend on. -/
def selectNames : List String := ["keys", "key", "descending", "startkey", "endkey"]

theorem select_congr {others : Entries} (h : ∀ n ∈ selectNames, params.get? n = others.get? n)
    (rows : List Row) : select params rows = select others rows := by
  have hkeys := h "keys" (by decide)
  have hkey := h "key" (by decide)
  have hdescending := h "descending" (by decide)
  have hstart := h "startkey" (by decide)
  have hend := h "endkey" (by decide)
  simp only [select, walk, Entries.getD, hkeys, hkey, hdescending, hstart, hend]
  rfl

/-- Parameters whose bounds have a place in an index. -/
def Bounded (params : Entries) : Prop :=
  ∀ n ∈ ["startkey", "endkey"], ∀ v, params.get? n = some v → ∃ place, Collation.ofValue v = .ok place

/-- One side of a bound can be told if the bound has a place. -/
theorem bounded_eq_ok_iff {bound : Option Value} {within : Collation → Collation → Bool} :
    (∃ selected, bounded bound within rows = .ok selected) ↔
      ∀ v, bound = some v → ∃ place, Collation.ofValue v = .ok place := by
  cases bound with
  | none => exact ⟨fun _ => nofun, fun _ => ⟨rows, rfl⟩⟩
  | some v =>
    simp only [Option.some.injEq, forall_eq', bounded]
    cases Collation.ofValue v <;> simp [bind, Except.bind, pure, Except.pure]

/-- A walk through an index can be made if and only if its bounds have places. -/
theorem walk_eq_ok_iff : (∃ selected, walk params rows = .ok selected) ↔ Bounded params := by
  have hbounds : Bounded params ↔
      (∀ v, params.get? "startkey" = some v → ∃ place, Collation.ofValue v = .ok place) ∧
        ∀ v, params.get? "endkey" = some v → ∃ place, Collation.ofValue v = .ok place := by
    simp [Bounded]
  rw [hbounds, walk]
  constructor
  · rintro ⟨selected, h⟩
    obtain ⟨some, hstart, hend⟩ := Fault.bind_eq_ok_iff.1 h
    exact ⟨bounded_eq_ok_iff.1 ⟨some, hstart⟩, bounded_eq_ok_iff.1 ⟨selected, hend⟩⟩
  · rintro ⟨hstart, hend⟩
    obtain ⟨some, hsome⟩ := bounded_eq_ok_iff.2 hstart
    obtain ⟨selected, hselected⟩ := bounded_eq_ok_iff.2 hend
    exact ⟨selected, Fault.bind_eq_ok_iff.2 ⟨some, hsome, hselected⟩⟩

/-- One side of a bound are rows of the index. -/
theorem mem_of_mem_bounded {bound : Option Value} {within : Collation → Collation → Bool}
    {selected : List Row} (h : bounded bound within rows = .ok selected) {r : Row}
    (hr : r ∈ selected) : r ∈ rows := by
  cases bound with
  | none => rwa [Except.ok.inj h]
  | some v =>
    obtain ⟨place, -, hfilter⟩ := Fault.bind_eq_ok_iff.1 h
    rw [← Except.ok.inj hfilter] at hr
    exact List.mem_of_mem_filter hr

/-- The rows selected are rows of the index. -/
theorem mem_of_mem_select {selected : List Row} (h : select params rows = .ok selected) {r : Row}
    (hr : r ∈ selected) : r ∈ rows := by
  rw [select] at h
  split at h
  · obtain ⟨keys, -, hkeys⟩ := Fault.bind_eq_ok_iff.1 h
    rw [← Except.ok.inj hkeys] at hr
    exact mem_of_mem_withKeys hr
  · obtain ⟨some, hstart, hend⟩ := Fault.bind_eq_ok_iff.1 h
    have hmem := mem_of_mem_bounded hstart (mem_of_mem_bounded hend hr)
    split at hmem
    · have hmem := List.mem_of_mem_filter hmem
      split at hmem
      · exact List.mem_reverse.1 hmem
      · exact hmem
    · split at hmem
      · exact List.mem_reverse.1 hmem
      · exact hmem

/-- Parameters that rows can be selected by: several keys are listed, or the bounds have places. -/
def Selectable (params : Entries) : Prop :=
  (∃ keys, params.get? "keys" = some (.list keys)) ∨ params.get? "keys" = none ∧ Bounded params

theorem exists_select (h : Selectable params) (rows : List Row) :
    ∃ selected, select params rows = .ok selected := by
  rcases h with ⟨keys, hkeys⟩ | ⟨hkeys, hbounds⟩
  · exact ⟨_, select_keys hkeys⟩
  · rw [select, hkeys]
    exact walk_eq_ok_iff.2 hbounds

theorem selectable_congr {others : Entries} (h : ∀ n ∈ selectNames, params.get? n = others.get? n) :
    Selectable params ↔ Selectable others := by
  have hnames : ∀ n ∈ ["startkey", "endkey"], n ∈ selectNames := by decide
  have hbounds : Bounded params ↔ Bounded others :=
    forall₂_congr fun n hn => by rw [h n (hnames n hn)]
  rw [Selectable, Selectable, h "keys" (by decide), hbounds]

/-- Where bounds have no places nothing can be answered, unless several keys are listed. -/
theorem exists_answer_error_of_bounds (hkeys : params.get? "keys" = none)
    (hnot : ¬ Selectable params) (documents : Entries) (map reduce : Value) :
    ∃ fault, answer documents map reduce params = .error fault := by
  cases hanswer : answer documents map reduce params with
  | error fault => exact ⟨fault, rfl⟩
  | ok response =>
    rw [answer] at hanswer
    obtain ⟨rows, -, hrest⟩ := Fault.bind_eq_ok_iff.1 hanswer
    obtain ⟨selected, hselect, -⟩ := Fault.bind_eq_ok_iff.1 hrest
    rw [select, hkeys] at hselect
    exact absurd (.inr ⟨hkeys, walk_eq_ok_iff.1 ⟨selected, hselect⟩⟩) hnot

variable {documents : Entries} {map reduce : Value}

/-- The answer where no reduce step is run: the window of the rows selected. -/
theorem answer_of_select (hrows : ofDocuments map documents = .ok rows) {selected : List Row}
    (hselect : select params rows = .ok selected) (hreduce : runsReduce reduce params = false)
    {skip : Int} (hskip : ((params.get? "skip").getD (.int 0)).toInteger = .ok skip)
    {limit : Option Int} (hlimit : limit? params = .ok limit) :
    answer documents map reduce params =
      .ok (Window.response rows.length skip
        ((Window.cut skip limit selected).map Row.toValue)) := by
  simp only [answer, hrows, hselect, hreduce, hskip, hlimit, bind, Except.bind, pure, Except.pure,
    Bool.false_eq_true, if_false]

/-- The answer where a reduce step is run over the rows selected. -/
theorem answer_of_reduced (hrows : ofDocuments map documents = .ok rows) {selected : List Row}
    (hselect : select params rows = .ok selected) (hreduce : runsReduce reduce params = true)
    {counts : List Value} (hcounts : reduced params rows selected = .ok counts) :
    answer documents map reduce params = .ok (.dict [(.str "rows", .list counts)]) := by
  simp only [answer, hrows, hselect, hreduce, hcounts, bind, Except.bind, pure, Except.pure,
    if_true]

end

end ViewFinder.Store.Index
