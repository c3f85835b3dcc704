import ViewFinder.Proofs.Entries
import ViewFinder.Proofs.Query.Keys
import ViewFinder.Proofs.Store.MapSource

/-!
# The parameters of a query

A query asks for a window (`Query.windowParams`) and for what its conditions select
(`Query.conditionParams`). `Query.Compiles` says of a compiled query that its parameters are those of
its window and of whatever else is asked for.
-/

namespace ViewFinder

/-- Options that name no bounds and no further parameters, and ask for ascending records. -/
structure Options.Plain (o : Options) : Prop where
  startkey : o.startkey = .null
  endkey : o.endkey = .null
  descending : o.descending.truthy = false
  raw : o.raw.truthy = false
  extra : o.extra = .dict []

/-- Conditions and a window are no more than that. -/
theorem Options.plain_conditions (conditions : Entries) (limit offset : Value) :
    Options.Plain { conditions := .dict conditions, limit, offset } :=
  ⟨rfl, rfl, rfl, rfl, rfl⟩

theorem Options.Plain.window {o : Options} (h : o.Plain) (limit offset : Value) :
    Options.Plain { o with limit, offset } :=
  ⟨h.startkey, h.endkey, h.descending, h.raw, h.extra⟩

namespace Query

theorem get?_addIf (c : Bool) (params : Entries) (m n : String) (v : Value) :
    (addIf c params m v).get? n = if c = true ∧ m = n then some v else params.get? n := by
  cases c <;> simp [addIf]

theorem named_addIf {params : Entries} (h : params.Named) (c : Bool) (n : String) (v : Value) :
    (addIf c params n v).Named := by
  cases c
  · exact h
  · exact h.set n v

/-- The parameters for the window and the age of the index. -/
def windowParams (p : Profile) (o : Options) : Entries :=
  addIf (!o.updateIndex.truthy) (addIf o.offset.truthy
    (addIf (!o.limit.isNull) [] p.limitParam o.limit) Profile.offsetParam o.offset)
    p.staleParam.1 (.str p.staleParam.2)

section
variable (p : Profile) (o : Options)

/-- What the window asks for under a name. -/
theorem get?_windowParams (n : String) : (windowParams p o).get? n =
    if o.updateIndex.truthy = false ∧ p.staleParam.1 = n then some (.str p.staleParam.2)
    else if o.offset.truthy = true ∧ "skip" = n then some o.offset
    else if o.limit.isNull = false ∧ p.limitParam = n then some o.limit
    else none := by
  simp [windowParams, get?_addIf, Profile.offsetParam]

/-- The window leaves nothing null. -/
theorem get?_windowParams_ne_null (n : String) : (windowParams p o).get? n ≠ some .null := by
  rw [get?_windowParams]
  intro h
  split at h
  · cases h
  · split at h
    · next hoffset =>
      rw [Option.some.injEq] at h
      rw [h] at hoffset
      cases hoffset.1
    · split at h
      · next hlimit =>
        rw [Option.some.injEq] at h
        rw [h] at hlimit
        cases hlimit.1
      · cases h

/-- The names that the window goes by. -/
def windowNames : List String := ["limit", "count", "skip", "update", "stale"]

theorem limitParam_mem (p : Profile) : p.limitParam ∈ ["limit", "count"] := by
  rw [Profile.limitParam]
  split <;> decide

theorem staleParam_mem (p : Profile) : p.staleParam.1 ∈ ["update", "stale"] := by
  rw [Profile.staleParam]
  split <;> decide

/-- The window asks for nothing under other names than its own. -/
theorem get?_windowParams_of_not_mem {n : String} (hn : n ∉ windowNames) :
    (windowParams p o).get? n = none := by
  have hnames : ∀ m ∈ windowNames, m ≠ n := fun m hm heq => hn (heq ▸ hm)
  have hlimit := hnames _ (List.mem_append_left ["skip", "update", "stale"] (limitParam_mem p))
  have hstale := hnames _ (List.mem_append_right ["limit", "count", "skip"] (staleParam_mem p))
  rw [get?_windowParams, if_neg fun h => hstale h.2, if_neg fun h => hnames _ (by decide) h.2,
    if_neg fun h => hlimit h.2]

end

/-- Leaving out what is null changes nothing where nothing is null. -/
theorem filter_isNull {v : Option Value} (h : v ≠ some .null) : v.filter (!·.isNull) = v := by
  cases v with
  | none => rfl
  | some v => cases v <;> first | rfl | exact absurd rfl h

/-! ## What the conditions ask for -/

/-- The name under which sets of acceptable values ask for their keys. -/
def keysName (p : Profile) : String := if p.multiKey then "keys" else fallbackParam

theorem keysName_mem (p : Profile) : keysName p ∈ ["keys", fallbackParam] := by
  rw [keysName]
  split <;> decide

/-- The names under which keys are asked for. -/
def keyNames : List String := ["key", "keys", fallbackParam]

theorem mem_keyNames {p : Profile} {n : String} (h : n ∈ ["key", keysName p]) : n ∈ keyNames := by
  rcases List.mem_cons.1 h with rfl | h
  · exact List.mem_cons_self ..
  · rw [List.mem_singleton.1 h]
    exact List.mem_cons_of_mem _ (keysName_mem p)

theorem keysName_of_multiKey {p : Profile} (h : p.multiKey = true) : keysName p = "keys" := if_pos h

theorem keysName_of_singleKey {p : Profile} (h : p.multiKey = false) :
    keysName p = fallbackParam := by
  rw [keysName, h, if_neg (by decide)]

section
variable {p : Profile} {values : List Value} (hrange : ∀ v ∈ values, Condition.isRange v = false)
include hrange

/-- Sets of acceptable values ask for the keys of all combinations. -/
theorem conditionParams_of_discrete (hdiscrete : ∃ v ∈ values, Condition.isDiscrete v = true)
    {keys : List Value} (hkeys : expandKeys values = .ok keys) :
    conditionParams p values = .ok [(.str (keysName p), .list keys)] := by
  have hany : values.any Condition.isRange = false := by simpa using hrange
  have hsome : values.any Condition.isDiscrete = true := List.any_eq_true.2 hdiscrete
  rw [conditionParams, hany, hsome, hkeys]
  rfl

/-- Exact values ask for one key. -/
theorem conditionParams_of_exact (hexact : ∀ v ∈ values, Condition.isDiscrete v = false)
    (hne : values ≠ []) : conditionParams p values = .ok [(.str "key", .list values)] := by
  have hany : values.any Condition.isRange = false := by simpa using hrange
  have hnone : values.any Condition.isDiscrete = false := by simpa using hexact
  have hempty : values.isEmpty = false := by simpa using hne
  rw [conditionParams, hany, hnone, hempty]
  rfl

end

/-! ## Compiled queries -/

/-- The reduce function of the views that queries write. -/
def reduceSource (p : Profile) : Value := if p.reduceCounting then .str countReduce else .null

/-- The prefix of the views that queries count through. -/
def countOperation (p : Profile) : String := if p.reduceCounting then findPrefix else countPrefix

theorem countOperation_mem (p : Profile) : countOperation p ∈ [findPrefix, countPrefix] := by
  rw [countOperation]
  split <;> decide

/-- A query of the view keyed on some fields, whose parameters are those of the window and of the
conditions. -/
structure Compiles (q : CompiledQuery) (e : EntityType) (p : Profile) (o : Options)
    (operation : String) (fields : List String) (base : Entries) : Prop where
  designName : e.designName = .ok q.designName
  viewName : q.viewName = .str (viewName fields operation)
  mapSource : ∃ source, mapFunction e fields = .ok source ∧ q.mapSource = .str source
  reduceSource : q.reduceSource = reduceSource p
  slow : q.slow = o.slow
  fallbackKeys : q.fallbackKeys = (base.get? fallbackParam).getD (.list [])
  params : ∀ n, n ∉ [fallbackParam, "reduce", "group"] →
    q.params.get? n = ((windowParams p o).get? n).or (base.get? n)

/-- A query can be built for a type whose name and map function can be written. -/
theorem build_eq {e : EntityType} {designName source : String} {fields : List String}
    (hdesign : e.designName = .ok designName) (hsource : mapFunction e fields = .ok source)
    (o : Options) (operation : String) (reduce : Value) (params : Entries) (reduced : Bool) :
    build e o operation fields reduce params reduced = .ok {
      designName, viewName := .str (viewName fields operation), mapSource := .str source,
      reduceSource := reduce, params := params.erase fallbackParam,
      fallbackKeys := (params.get? fallbackParam).getD (.list []), slow := o.slow,
      reduced := .bool reduced } := by
  rw [build, takeFallback, hdesign, hsource]
  rfl

section
variable {e : EntityType} {p : Profile} {o : Options} {fields : List String} {base params : Entries}
  (he : e.IsTagged) (hname : ∃ name, e.name = .str name)
  (hparams : ∀ n, params.get? n = ((windowParams p o).get? n).or (base.get? n))
include he hname hparams

/-- A query can be built of parameters that differ from those of window and conditions in how the
reduce step is run. -/
theorem exists_build (operation : String) (fields : List String) (reduced : Bool)
    (changed : Entries) (hchanged : ∀ n, n ∉ ["reduce", "group"] → changed.get? n = params.get? n) :
    ∃ q, build e o operation fields (reduceSource p) changed reduced = .ok q ∧
      Compiles q e p o operation fields base ∧ q.reduced = .bool reduced ∧
        ∀ n, n ∈ ["reduce", "group"] → q.params.get? n = changed.get? n := by
  obtain ⟨name, hname⟩ := hname
  have hdesign : e.designName = .ok (Name.underscore name) := by rw [EntityType.designName, hname]
  obtain ⟨source, -, -, hsource, -⟩ := exists_mapFunction he fields
  refine ⟨_, build_eq hdesign hsource o operation _ changed reduced,
    ⟨hdesign, rfl, ⟨source, hsource, rfl⟩, rfl, rfl, ?_, fun n hn => ?_⟩, rfl, fun n hn => ?_⟩
  · have hwindow : (windowParams p o).get? fallbackParam = none :=
      get?_windowParams_of_not_mem p o (by decide)
    rw [hchanged _ (by decide), hparams, hwindow, Option.none_or]
  · simp only [List.mem_cons, not_or] at hn
    rw [Entries.get?_erase, if_neg (Ne.symm hn.1), hchanged n (by simp [hn.2]), hparams]
  · have hne : fallbackParam ≠ n := by
      rintro rfl
      revert hn
      decide
    rw [Entries.get?_erase, if_neg hne]

variable (hfields : searchFields e o = .ok fields) (hvalues : searchValues p o = .ok params)
include hfields hvalues

/-- The query that finds documents runs no reduce step. -/
theorem exists_find : ∃ q, find e p o = .ok q ∧ Compiles q e p o findPrefix fields base ∧
    Store.Index.runsReduce q.reduceSource q.params = false := by
  rw [find, hfields, hvalues]
  cases hcounting : p.reduceCounting with
  | true =>
    obtain ⟨q, hq, hcompiles, -, hreduce⟩ := exists_build he hname hparams findPrefix fields false
      (params.set "reduce" (.bool false)) fun n hn => by
        rw [Entries.get?_set, if_neg]
        rintro rfl
        exact hn (by decide)
    rw [reduceSource, hcounting, if_pos rfl] at hq
    refine ⟨q, hq, hcompiles, ?_⟩
    rw [Store.Index.runsReduce, hreduce _ (by decide), Entries.get?_set, if_pos rfl]
    simp [Value.isFalse]
  | false =>
    obtain ⟨q, hq, hcompiles, -⟩ :=
      exists_build he hname hparams findPrefix fields false params fun n _ => rfl
    rw [reduceSource, hcounting, if_neg (by decide)] at hq
    refine ⟨q, hq, hcompiles, ?_⟩
    rw [Store.Index.runsReduce, hcompiles.reduceSource, reduceSource, hcounting]
    rfl

/-- The query that counts documents runs a reduce step where the store can, by key if there are
several keys. -/
theorem exists_count (hreduce : base.get? "reduce" = none) : ∃ q, count e p o = .ok q ∧
    Compiles q e p o (countOperation p) fields base ∧ q.reduced = .bool p.reduceCounting ∧
      Store.Index.runsReduce q.reduceSource q.params = p.reduceCounting ∧
        (p.reduceCounting = true → (base.get? "keys").isSome = true →
          (q.params.getD "group").truthy = true) := by
  rw [count, hfields, hvalues, countOperation]
  cases hcounting : p.reduceCounting with
  | true =>
    obtain ⟨q, hq, hcompiles, hreduced, hset⟩ := exists_build he hname hparams findPrefix fields
      true (addIf (params.get? "keys").isSome params "group" (.bool true))
      fun n hn => by
        rw [get?_addIf, if_neg]
        rintro ⟨-, rfl⟩
        exact hn (by decide)
    rw [reduceSource, hcounting, if_pos rfl] at hq
    refine ⟨q, hq, hcompiles, hreduced, ?_, fun _ hkeys => ?_⟩
    · have hnone : q.params.get? "reduce" = none := by
        rw [hset _ (by decide), get?_addIf, if_neg fun h => absurd h.2 (by decide),
          hparams, hreduce, get?_windowParams_of_not_mem p o (by decide)]
        rfl
      rw [Store.Index.runsReduce, hnone, hcompiles.reduceSource, reduceSource, hcounting]
      rfl
    · have hsome : (params.get? "keys").isSome = true := by
        rw [hparams, get?_windowParams_of_not_mem p o (by decide), Option.none_or, hkeys]
      rw [Entries.getD, hset _ (by decide), get?_addIf, if_pos ⟨hsome, rfl⟩]
      rfl
  | false =>
    obtain ⟨q, hq, hcompiles, hreduced, -⟩ :=
      exists_build he hname hparams countPrefix fields false params fun n _ => rfl
    rw [reduceSource, hcounting, if_neg (by decide)] at hq
    refine ⟨q, hq, hcompiles, hreduced, ?_, fun h => absurd h (by decide)⟩
    rw [Store.Index.runsReduce, hcompiles.reduceSource, reduceSource, hcounting]
    rfl

end

end Query

end ViewFinder
