import ViewFinder.Proofs.Query.Params
import ViewFinder.Query.Execution

/-!
# The window of a query

The options of a query cut a window out of its rows. The parameters of the query hold the limit
under the name that the store knows it by, and the store reads limit and offset back from them
(`Query.Compiles.limit?_eq`, `Query.Compiles.toInteger_skip`).
-/

namespace ViewFinder

open Store

namespace Options

/-- The limit of a window whose bounds are integers or null. -/
def limit? (o : Options) : Option Int :=
  match o.limit with
  | .int n => some n
  | _ => none

/-- The offset of a window whose bounds are integers or null. -/
def skip (o : Options) : Int :=
  match o.offset with
  | .int n => n
  | _ => 0

/-- Options whose limit and offset are integers or null. -/
structure HasWindow (o : Options) : Prop where
  limit : o.limit = .null ∨ ∃ n, o.limit = .int n
  offset : o.offset = .null ∨ ∃ n, o.offset = .int n

theorem hasWindow_conditions (conditions : Entries) :
    HasWindow { conditions := .dict conditions } := ⟨.inl rfl, .inl rfl⟩

end Options

namespace Query

section
variable {q : CompiledQuery} {e : EntityType} {p : Profile} {o : Options} {operation : String}
  {fields : List String} {base : Entries} (h : Compiles q e p o operation fields base)
include h

theorem Compiles.get?_skip (hbase : base.get? "skip" = none) :
    q.params.get? "skip" = if o.offset.truthy = true then some o.offset else none := by
  have hstale : p.staleParam.1 ≠ "skip" := ne_of_mem_of_not_mem (staleParam_mem p) (by decide)
  have hlimit : p.limitParam ≠ "skip" := ne_of_mem_of_not_mem (limitParam_mem p) (by decide)
  rw [h.params _ (by decide), hbase, Option.or_none, get?_windowParams, if_neg fun h => hstale h.2]
  split
  · next hoffset => rw [if_pos hoffset.1]
  · next hoffset => rw [if_neg fun h => hlimit h.2, if_neg fun h => hoffset ⟨h, rfl⟩]

/-- A limit is put under one of the names that stores know it by. -/
theorem Compiles.get?_limit {n : String} (hbase : base.get? n = none)
    (hn : n ∈ ["limit", "count"]) : q.params.get? n =
      if o.limit.isNull = false ∧ p.limitParam = n then some o.limit else none := by
  have hnames : ∀ n ∈ ["limit", "count"], n ∉ ["update", "stale"] ∧ "skip" ≠ n ∧
      n ∉ [fallbackParam, "reduce", "group"] := by decide
  obtain ⟨hupdates, hskip, hreduce⟩ := hnames n hn
  have hstale : p.staleParam.1 ≠ n := ne_of_mem_of_not_mem (staleParam_mem p) hupdates
  rw [h.params _ hreduce, hbase, Option.or_none, get?_windowParams, if_neg fun h => hstale h.2,
    if_neg fun h => hskip h.2]

variable (hw : o.HasWindow) (hbase : ∀ n ∈ ["limit", "count", "skip"], base.get? n = none)
include hw hbase

theorem Compiles.integerParam?_skip :
    ∃ skip, CompiledQuery.integerParam? q.params Profile.offsetParam = .ok skip ∧
      skip.getD 0 = o.skip := by
  have hskip : q.params.get? Profile.offsetParam =
      if o.offset.truthy = true then some o.offset else none := h.get?_skip (hbase _ (by decide))
  rw [CompiledQuery.integerParam?, hskip, Options.skip]
  rcases hw.offset with hoffset | ⟨n, hoffset⟩
  · rw [hoffset]
    exact ⟨none, rfl, rfl⟩
  · rw [hoffset]
    by_cases hn : n = 0
    · subst hn
      exact ⟨none, rfl, rfl⟩
    · have htruthy : (Value.int n).truthy = true := by simpa [Value.truthy] using hn
      rw [if_pos htruthy]
      exact ⟨some n, rfl, rfl⟩

theorem Compiles.toInteger_skip :
    ((q.params.get? "skip").getD (.int 0)).toInteger = .ok o.skip := by
  obtain ⟨skip, hskip, heq⟩ := h.integerParam?_skip hw hbase
  rw [CompiledQuery.integerParam?, Profile.offsetParam] at hskip
  rw [← heq]
  cases hget : q.params.get? "skip" with
  | none =>
    rw [hget] at hskip
    cases hskip
    rfl
  | some v =>
    rw [hget] at hskip
    cases hv : v.toInteger with
    | error e => simp [hv, Except.map] at hskip
    | ok n =>
      simp only [hv, Except.map, Except.ok.injEq] at hskip
      subst hskip
      rw [Option.getD_some, hv]
      rfl

theorem Compiles.integerParam?_limit :
    CompiledQuery.integerParam? q.params p.limitParam = .ok o.limit? := by
  have hmem := limitParam_mem p
  have hlimit := h.get?_limit (hbase _ (List.mem_append_left ["skip"] hmem)) hmem
  rw [CompiledQuery.integerParam?, hlimit, Options.limit?]
  rcases hw.limit with hnull | ⟨n, hint⟩
  · rw [hnull]
    rfl
  · rw [hint, if_pos ⟨rfl, rfl⟩]
    rfl

theorem Compiles.limit?_eq : Index.limit? q.params = .ok o.limit? := by
  have hlimit := h.get?_limit (hbase "limit" (by decide)) (by decide)
  have hcount := h.get?_limit (hbase "count" (by decide)) (by decide)
  rw [Index.limit?, Entries.getD, hlimit, hcount, Options.limit?, Profile.limitParam]
  rcases hw.limit with hnull | ⟨n, hint⟩
  · rw [hnull]
    rfl
  · rw [hint]
    cases p.version.releaseBelow 0 9 <;> rfl

end

end Query

end ViewFinder
