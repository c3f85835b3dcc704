import ViewFinder.Finder
import ViewFinder.Proofs.Options.Given
import ViewFinder.Proofs.Query.ExactKeys
import ViewFinder.Proofs.Reordered

/-!
# The flag of a reduced response

A compiled query says of its response whether that is the output of a reduce step
(`CompiledQuery.reduced`), and a count is read by that. The flag tells the truth (`TellsReduce`) if it is
set exactly where there is a reduce function that no parameter switches off. The parameter `reduce` is that
of the options (`Query.get?_reduce_of_searchValues`), but that finding switches it off itself. Finding and
views of the caller's own tell the truth; counting does so unless the store counts by a reduce step and
the options switch that off (`Finder.reduced_tells`).
-/

namespace ViewFinder

open Store

/-- The flag of a query tells the truth: it is set exactly where there is a reduce function that the
parameters do not switch off. -/
def CompiledQuery.TellsReduce (q : CompiledQuery) : Prop :=
  q.reduced = .bool true ↔
    q.reduceSource.truthy = true ∧ q.params.get? "reduce" ≠ some (.bool false)

/-- Do the options switch the reduce step off? -/
def Options.SwitchesOff (o : Options) : Prop :=
  ∃ further, o.extra = .dict further ∧ Entries.get? further "reduce" = some (.bool false)

/-- A store runs a reduce function that is there and not switched off. -/
theorem Store.Index.runsReduce_iff {reduce : Value} {params : Entries} :
    runsReduce reduce params = true ↔
      reduce.truthy = true ∧ params.get? "reduce" ≠ some (.bool false) := by
  rw [runsReduce, Bool.and_eq_true]
  refine and_congr_right fun _ => ?_
  cases params.get? "reduce" with
  | none => simp
  | some v => cases v with
    | bool b => cases b <;> simp [Value.isFalse]
    | _ => simp [Value.isFalse]

namespace Query

/-! ## The parameter that switches the reduce step off -/

section
variable {p : Profile} {o : Options} {params further : Entries}

/-- Of the further parameters, all but the keys are passed on. -/
theorem get?_of_extraParams (hparams : params.Named) (hfurther : further.Named) {changed : Entries}
    (h : extraParams p params further = .ok changed) : changed.Named ∧
      ∀ n, n ∉ ["keys", fallbackParam] → changed.get? n = (further.get? n).or (params.get? n) := by
  rw [extraParams] at h
  cases hkeys : further.get? "keys" with
  | none =>
    rw [hkeys] at h
    cases h
    exact ⟨hparams.merge hfurther, fun n _ => Entries.get?_merge hfurther params n⟩
  | some keys =>
    rw [hkeys] at h
    cases hmulti : p.multiKey with
    | true =>
      rw [hmulti] at h
      cases h
      exact ⟨hparams.merge hfurther, fun n _ => Entries.get?_merge hfurther params n⟩
    | false =>
      rw [hmulti] at h
      obtain ⟨vs, -, h⟩ := Fault.bind_eq_ok_iff.1 h
      cases h
      have herased : (further.erase "keys").Named := hfurther.filter _
      refine ⟨(hparams.set fallbackParam _).merge herased, fun n hn => ?_⟩
      simp only [List.mem_cons, List.not_mem_nil, or_false, not_or] at hn
      rw [Entries.get?_merge herased, Entries.get?_erase, if_neg (Ne.symm hn.1), Entries.get?_set,
        if_neg (Ne.symm hn.2)]

variable (hextra : o.extra = .dict further) (hfurther : further.Named)
include hextra hfurther

/-- The parameter `reduce` is that of the options. -/
theorem get?_reduce_of_searchValues (h : searchValues p o = .ok params) :
    params.get? "reduce" = kept further "reduce" := by
  obtain ⟨conditions, -, h⟩ := Fault.bind_eq_ok_iff.1 h
  obtain ⟨base, hbase, h⟩ := Fault.bind_eq_ok_iff.1 h
  obtain ⟨paging, hpaging, h⟩ := Fault.bind_eq_ok_iff.1 h
  obtain ⟨hnamed, -, -, hr⟩ := restriction_of_conditionParams hbase
  rw [pagingParams, hextra] at hpaging
  have hwindow : ∀ m ∈ ["limit", "count", "skip", "descending", "update", "stale"], m ≠ "reduce" := by
    decide
  have hlimit := hwindow _
    (List.mem_append_left ["skip", "descending", "update", "stale"] (limitParam_mem p))
  have hstale := hwindow _
    (List.mem_append_right ["limit", "count", "skip", "descending"] (staleParam_mem p))
  obtain ⟨hpnamed, hget⟩ := get?_of_extraParams
    (named_addIf (named_addIf (named_addIf (named_addIf .nil _ _ _) _ _ _) _ _ _) _ _ _) hfurther hpaging
  have hreduce : paging.get? "reduce" = further.get? "reduce" := by
    rw [hget _ (by decide)]
    simp [get?_addIf, hlimit, hstale, Profile.offsetParam]
  have hsettled : settle ((withBounds base o).merge paging) = params := Except.ok.inj h
  rw [← hsettled, get?_settle _ ((named_withBounds hnamed o).merge hpnamed), if_neg (by decide), kept,
    Entries.get?_merge hpnamed, hreduce, get?_withBounds_of_not_mem base o (by decide), hr.unreduced,
    Option.or_none, kept]

/-- The parameters switch the reduce step off if and only if the options do. -/
theorem get?_reduce_iff_switchesOff (h : searchValues p o = .ok params) :
    params.get? "reduce" = some (.bool false) ↔ o.SwitchesOff := by
  rw [get?_reduce_of_searchValues hextra hfurther h, kept, Option.filter_eq_some_iff,
    and_iff_left (by rfl), Options.SwitchesOff, hextra]
  simp

end

/-! ## The flag -/

section
variable {e : EntityType} {p : Profile} {o : Options} {q : CompiledQuery}

/-- The reduce function of the views that queries write counts, or is not there. -/
theorem truthy_reduceSource (p : Profile) : (reduceSource p).truthy = p.reduceCounting := by
  rw [reduceSource]
  cases p.reduceCounting <;> rfl

theorem reduced_of_find (h : find e p o = .ok q) : q.reduced = .bool false := by
  obtain ⟨fields, -, h⟩ := Fault.bind_eq_ok_iff.1 h
  obtain ⟨params, -, h⟩ := Fault.bind_eq_ok_iff.1 h
  cases hcounting : p.reduceCounting <;> rw [hcounting] at h <;> exact (params_of_build h).2

theorem reduced_of_count (h : count e p o = .ok q) : q.reduced = .bool p.reduceCounting := by
  have hcount := h
  obtain ⟨fields, -, h⟩ := Fault.bind_eq_ok_iff.1 h
  obtain ⟨params, hvalues, -⟩ := Fault.bind_eq_ok_iff.1 h
  exact (get?_reduce_of_count hcount hvalues).2

/-- Finding switches the reduce step off and says so. -/
theorem tellsReduce_of_find (h : find e p o = .ok q) : q.TellsReduce := by
  obtain ⟨fields, source, -, -, -, hview⟩ := view_of_find h
  have hreduce : q.reduceSource = reduceSource p := congrArg ViewDefinition.reduce hview
  have hflag : q.reduced = .bool false := reduced_of_find h
  have hruns := runsReduce_of_find h
  rw [CompiledQuery.TellsReduce, ← Index.runsReduce_iff, hreduce, hruns, hflag]
  simp

/-- The query of a caller's own view looks at both. -/
theorem tellsReduce_of_custom {name map reduce : Value} (h : custom e p name map reduce o = .ok q) :
    q.TellsReduce := by
  obtain ⟨params, -, h⟩ := Fault.bind_eq_ok_iff.1 h
  obtain ⟨designName, -, h⟩ := Fault.bind_eq_ok_iff.1 h
  have hflag : q.reduced = .bool (Index.runsReduce q.reduceSource q.params) := by
    cases h
    rfl
  rw [CompiledQuery.TellsReduce, ← Index.runsReduce_iff, hflag, Value.bool.injEq]

variable {further : Entries} (hextra : o.extra = .dict further) (hfurther : further.Named)
include hextra hfurther

/-- Counting says that there is a reduce step whether or not the options switch it off. -/
theorem tellsReduce_of_count_iff (h : count e p o = .ok q) :
    q.TellsReduce ↔ ¬(p.reduceCounting = true ∧ o.SwitchesOff) := by
  obtain ⟨fields, source, -, -, -, hview⟩ := view_of_count h
  have hreduce : q.reduceSource = reduceSource p := congrArg ViewDefinition.reduce hview
  have hcount := h
  obtain ⟨fields, -, h⟩ := Fault.bind_eq_ok_iff.1 h
  obtain ⟨params, hvalues, -⟩ := Fault.bind_eq_ok_iff.1 h
  obtain ⟨hparams, hflag⟩ := get?_reduce_of_count hcount hvalues
  rw [CompiledQuery.TellsReduce, hflag, hreduce, truthy_reduceSource, Value.bool.injEq, hparams, Ne,
    get?_reduce_iff_switchesOff hextra hfurther hvalues]
  cases p.reduceCounting <;> simp

end

end Query

namespace Finder

/-- The number of documents that match, where a response is read by whether the store runs a reduce
step. -/
def countAsRun (f : Finder) (o : Options) : Dialogue Value := do
  let q ← Query.count f.entityType f.profile { o with limit := .null, offset := .null }
  let response ← q.execute f.setting
  let n ← if Index.runsReduce q.reduceSource q.params then Count.reduced response
    else Count.rows response
  Count.capped (.int n) o.limit o.offset

/-- Where the flag tells the truth, a count reads the response as what it is. -/
theorem countWith_eq {f : Finder} {o : Options}
    (h : ∀ q, Query.count f.entityType f.profile { o with limit := .null, offset := .null } = .ok q →
      q.TellsReduce) : f.countWith o = f.countAsRun o := by
  rw [countWith, countAsRun]
  cases hq : Query.count f.entityType f.profile { o with limit := .null, offset := .null } with
  | error e => rfl
  | ok q =>
    have hflag : q.reduced.truthy = Index.runsReduce q.reduceSource q.params := by
      have htells := h q hq
      rw [CompiledQuery.TellsReduce, Query.reduced_of_count hq, ← Index.runsReduce_iff,
        Value.bool.injEq] at htells
      rw [Query.reduced_of_count hq, Value.truthy, Bool.eq_iff_iff, htells]
    have hlift {α : Type} (next : CompiledQuery → Dialogue α) :
        (liftM (Except.ok q : Except Fault CompiledQuery) >>= next) = next q := rfl
    rw [hlift, hlift, hflag]

/-- **The flag of a reduced response.** The queries that find documents and those of a caller's own
views tell the truth about their response. One that counts does exactly if the store does not count by a
reduce step or the options do not switch that off; then the response is read as what it is. -/
theorem reduced_tells (f : Finder) {v : Value} {o : Options} (ho : Options.ofValue v = .ok o) :
    (∀ q, Query.find f.entityType f.profile o = .ok q → q.TellsReduce) ∧
    (∀ name map reduce q, Query.custom f.entityType f.profile name map reduce o = .ok q →
      q.TellsReduce) ∧
    (∀ q, Query.count f.entityType f.profile o = .ok q →
      (q.TellsReduce ↔ ¬(f.profile.reduceCounting = true ∧ o.SwitchesOff))) ∧
    (¬(f.profile.reduceCounting = true ∧ o.SwitchesOff) → f.countWith o = f.countAsRun o) := by
  obtain ⟨es, hes⟩ := Options.exists_entries_of_ofValue ho
  have hnamed := Options.named_spelledOut (Options.understood_of_ofValue hes)
  obtain ⟨conditions, -, hread⟩ := Options.eq_of_ofValue hes
  have hextra : o.extra = .dict (Options.viewParams (Options.spelledOut es)) := by rw [hread]
  have hfurther : (Options.viewParams (Options.spelledOut es)).Named := hnamed.filter _
  refine ⟨fun q => Query.tellsReduce_of_find, fun _ _ _ q => Query.tellsReduce_of_custom,
    fun q => Query.tellsReduce_of_count_iff hextra hfurther, fun hnot => countWith_eq fun q hq => ?_⟩
  exact (Query.tellsReduce_of_count_iff (o := { o with limit := .null, offset := .null }) hextra hfurther
    hq).2 hnot

end Finder

/-- Options that switch the reduce step off. -/
def unreduced : Entries := [(.str "reduce", .bool false)]

theorem ofValue_unreduced : Options.ofValue (.dict unreduced) = .ok { extra := .dict unreduced } := by
  have hcurrent : ∀ e ∈ unreduced, Options.Current e :=
    List.forall_mem_singleton.2 ⟨"reduce", .inr (by decide), rfl⟩
  have hparameter : Options.isViewParameter (.str "reduce") = true :=
    Options.isViewParameter_iff.2 ⟨"reduce", by decide, rfl⟩
  rw [Options.ofValue_of_current hcurrent (Entries.Named.nil.cons rfl)]
  simp [unreduced, Options.ofSpelledOut, Options.ofCurrent, Options.viewParams, hparameter, Entries.getD,
    Value.toEntries, bind, Except.bind, pure, Except.pure]

/-- Queries of these options can be compiled. -/
theorem exists_count_unreduced (p : Profile) : ∃ q params,
    Query.count person p { extra := .dict unreduced } = .ok q ∧
      Query.searchValues p { extra := .dict unreduced } = .ok params := by
  have hlisted : Options.IsListed { extra := .dict unreduced } :=
    ⟨⟨[], rfl⟩, fun h => absurd h (by decide), unreduced, rfl, by simp [unreduced]⟩
  have htexts : person.HasTexts := ⟨⟨"Person", rfl⟩, "Person", rfl⟩
  obtain ⟨-, ⟨q, hq⟩, -⟩ := Query.exists_compiled hlisted htexts p
  obtain ⟨params, hvalues⟩ := Query.exists_searchValues_of_isListed hlisted p
  exact ⟨q, params, hq, hvalues⟩

/-- A finder of people in a store of an older release. -/
def oldPeople : Finder :=
  { entityType := person, designName := "person", profile := ⟨{ minor := 8, patch := 1 }⟩ }

/-- An older store counts rows, and the flag says so. -/
theorem unreduced_tells : ∃ q,
    Query.count oldPeople.entityType oldPeople.profile { extra := .dict unreduced } = .ok q ∧
      q.TellsReduce ∧ oldPeople.countWith { extra := .dict unreduced } =
        oldPeople.countAsRun { extra := .dict unreduced } := by
  obtain ⟨-, -, hcount, hread⟩ := oldPeople.reduced_tells ofValue_unreduced
  obtain ⟨q, -, hq, -⟩ := exists_count_unreduced oldPeople.profile
  have hold : ¬(oldPeople.profile.reduceCounting = true ∧
      Options.SwitchesOff { extra := .dict unreduced }) := fun h => absurd h.1 (by decide)
  exact ⟨q, hq, (hcount q hq).2 hold, hread hold⟩

/-- Of a newer store the count asks for rows, and takes them for numbers. -/
theorem unreduced_not_tells : ∃ q,
    Options.ofValue (.dict unreduced) = .ok { extra := .dict unreduced } ∧
    Query.count person ⟨{ minor := 9 }⟩ { extra := .dict unreduced } = .ok q ∧
      q.reduced = .bool true ∧ q.params.get? "reduce" = some (.bool false) ∧ ¬q.TellsReduce := by
  obtain ⟨q, params, hq, hvalues⟩ := exists_count_unreduced ⟨{ minor := 9 }⟩
  obtain ⟨hparams, hreduced⟩ := Query.get?_reduce_of_count hq hvalues
  have hoff : q.params.get? "reduce" = some (.bool false) := by
    rw [hparams, Query.get?_reduce_iff_switchesOff rfl (Entries.Named.nil.cons rfl) hvalues]
    exact ⟨unreduced, rfl, by simp [unreduced]⟩
  have hset : q.reduced = .bool true := hreduced
  exact ⟨q, ofValue_unreduced, hq, hset, hoff, fun htells => (htells.1 hset).2 hoff⟩

end ViewFinder
