import ViewFinder.Proofs.Found
import ViewFinder.Proofs.Query.Ranges

/-!
# Finding backwards

Walking an index backwards between the same bounds meets the same rows in reverse
(`Store.Index.select_backwards`). A query that asks for that exchanges its bounds, wherever they come
from and whichever of them there are (`Query.get?_asked_backwards`), so what is found comes in reverse
too; the last document is the last one that is found, and the first one the first
(`find_backwards`).
-/

namespace ViewFinder

open Store

/-! ## Walking an index backwards -/

namespace Store.Index

/-- Does a row stand on one side of a bound, if there is one that has a place? -/
def isWithin (bound : Option Value) (within : Collation → Collation → Bool) (r : Row) : Bool :=
  (bound.bind fun v => (Collation.ofValue v).toOption).all (within · r.place)

/-- The rows on one side of a bound that has a place. -/
theorem bounded_eq {bound : Option Value} {within : Collation → Collation → Bool}
    (h : ∀ v, bound = some v → ∃ place, Collation.ofValue v = .ok place) (rows : List Row) :
    bounded bound within rows = .ok (rows.filter (isWithin bound within)) := by
  cases bound with
  | none =>
    have hall : rows.filter (isWithin none within) = rows := List.filter_true rows
    rw [hall]
    rfl
  | some v =>
    obtain ⟨place, hplace⟩ := h v rfl
    have hwithin : isWithin (some v) within = fun r => within place r.place := by
      funext r
      rw [isWithin, Option.bind_some, hplace]
      rfl
    rw [bounded, hplace, hwithin]
    rfl

/-- A walk the other way round, with its bounds exchanged, selects the same rows in reverse. -/
theorem select_backwards {params back : Entries} (hbounded : Bounded params)
    (hforwards : (params.getD "descending").truthy = false)
    (hbackwards : (back.getD "descending").truthy = true)
    (hnone : params.get? "keys" = none) (hkeys : back.get? "keys" = none)
    (hkey : back.get? "key" = params.get? "key")
    (hstart : back.get? "startkey" = params.get? "endkey")
    (hend : back.get? "endkey" = params.get? "startkey") (rows : List Row) :
    select back rows = (select params rows).map List.reverse := by
  have hlow : ∀ v, params.get? "startkey" = some v → ∃ place, Collation.ofValue v = .ok place :=
    hbounded _ (by decide)
  have hhigh : ∀ v, params.get? "endkey" = some v → ∃ place, Collation.ofValue v = .ok place :=
    hbounded _ (by decide)
  have hkeyed (key : Value) : withKey rows.reverse key = (withKey rows key).reverse :=
    List.filter_reverse
  simp only [select, walk, hnone, hkeys, hkey, hforwards, hbackwards, hstart, hend, if_true,
    Bool.false_eq_true, if_false, bounded_eq hlow, bounded_eq hhigh, bind, Except.bind, Except.map]
  -- the upper bound goes first now, and both go through the rows in reverse
  rw [List.filter_comm]
  cases params.get? "key" with
  | none => simp only [List.filter_reverse]
  | some key => simp only [hkeyed, List.filter_reverse]

end Store.Index

namespace Query

/-! ## Bounds of a walk backwards -/

section
variable {base : Entries} {o : Options}

/-- Forwards nothing is asked for besides conditions and bounds. -/
theorem asked_forwards (hforwards : o.descending.truthy = false) :
    asked base o = settle (withBounds base o) := by
  rw [asked, hforwards]
  rfl

/-- Backwards the direction is asked for too. -/
theorem asked_backwards (base : Entries) (o : Options) :
    asked base { o with descending := .bool true } =
      settle ((withBounds base o).set "descending" (.bool true)) := rfl

variable (h : base.Named) (hdescending : base.get? "descending" = none)
  (hforwards : o.descending.truthy = false)
include h hdescending hforwards

/-- Forwards each bound stands under its own name. -/
theorem get?_asked_forwards {n : String} (hn : n ∈ boundNames) :
    (asked base o).get? n = (kept (withBounds base o) n).map asKey := by
  have hback : walksBack (withBounds base o) = false := by
    rw [walksBack, kept, get?_withBounds_of_not_mem base o (by decide), hdescending]
    rfl
  rw [asked_forwards hforwards, get?_settle n (named_withBounds h o), if_pos hn, settledBound, hback,
    if_neg Bool.false_ne_true]

omit hdescending hforwards in
/-- Backwards each bound stands under the name of the other one. -/
theorem get?_asked_backwards {n : String} (hn : n ∈ boundNames) :
    (asked base { o with descending := .bool true }).get? n =
      (kept (withBounds base o) (if n = "startkey" then "endkey" else "startkey")).map asKey := by
  have hback : walksBack ((withBounds base o).set "descending" (.bool true)) = true := by
    rw [walksBack, kept, Entries.get?_set, if_pos rfl]
    rfl
  have hother : "descending" ≠ if n = "startkey" then "endkey" else "startkey" := by
    split <;> decide
  rw [asked_backwards, get?_settle n ((named_withBounds h o).set _ _), if_pos hn, settledBound, hback,
    if_pos rfl, kept, Entries.get?_set, if_neg hother, kept]

/-- Backwards the rows selected come in reverse. -/
theorem selection_backwards (hkeys : base.get? "keys" = none)
    (hsel : Index.Selectable (asked base o)) (rows : List Row) :
    selection (asked base { o with descending := .bool true }) rows =
      (selection (asked base o) rows).reverse := by
  have hother {n : String} (hn : n ∉ "descending" :: boundNames) (o : Options) :
      (asked base o).get? n = kept base n := get?_asked_of_not_mem h o hn
  have hnone (o : Options) : (asked base o).get? "keys" = none := by
    rw [hother (by decide), kept, hkeys]
    rfl
  have hback : ((asked base { o with descending := .bool true }).getD "descending").truthy =
      true := by
    rw [Entries.getD, asked_backwards, get?_settle _ ((named_withBounds h o).set _ _),
      if_neg (by decide), kept, Entries.get?_set, if_pos rfl]
    rfl
  have hfor : ((asked base o).getD "descending").truthy = false := by
    rw [Entries.getD, asked_forwards hforwards, get?_settle _ (named_withBounds h o),
      if_neg (by decide), kept, get?_withBounds_of_not_mem base o (by decide), hdescending]
    rfl
  have hbounded : Index.Bounded (asked base o) := by
    rcases hsel with ⟨keys, hsome⟩ | ⟨-, hbounded⟩
    · rw [hnone] at hsome
      cases hsome
    · exact hbounded
  have hforward {n : String} (hn : n ∈ boundNames) := get?_asked_forwards h hdescending hforwards hn
  have hselect := Index.select_backwards hbounded hfor hback (hnone o) (hnone _)
    ((hother (by decide) _).trans (hother (by decide) _).symm)
    ((get?_asked_backwards h (by decide)).trans (hforward (by decide)).symm)
    ((get?_asked_backwards h (by decide)).trans (hforward (by decide)).symm) rows
  rw [selection, hselect, select_eq_selection hsel]
  rfl

/-- So do the rows chosen, where no keys are asked for one by one. -/
theorem chosen_backwards (hnone : ∀ n ∈ ["keys", fallbackParam], base.get? n = none)
    (hsel : Index.Selectable (asked base o)) (rows : List Row) :
    chosen (asked base { o with descending := .bool true }) rows =
      (chosen (asked base o) rows).reverse := by
  have hone (o : Options) : oneByOne (asked base o) = [] := by
    rw [oneByOne, get?_asked_of_not_mem h o (by decide), kept, hnone _ (by decide)]
    rfl
  rw [chosen, chosen, hone, hone]
  exact selection_backwards h hdescending hforwards (hnone _ (by decide)) hsel rows

end

/-- Exact values and ranges ask for one key or for a range of keys. -/
theorem get?_keys_of_exact {p : Profile} {values : List Value} {base : Entries}
    (h : conditionParams p values = .ok base)
    (hexact : ∀ v ∈ values, Condition.isDiscrete v = false) :
    ∀ n ∈ ["keys", fallbackParam], base.get? n = none := by
  have hany : values.any Condition.isDiscrete = false := by simpa using hexact
  have hnames : ∀ n ∈ ["keys", fallbackParam], "startkey" ≠ n ∧ "endkey" ≠ n ∧ "key" ≠ n := by
    decide
  intro n hn
  obtain ⟨hstart, hend, hkey⟩ := hnames n hn
  rw [conditionParams, hany] at h
  split at h
  · rw [← Except.ok.inj h, Entries.get?_cons_str, if_neg hstart, get?_singleton_of_ne hend]
  · rw [if_neg Bool.false_ne_true] at h
    split at h
    · rw [← Except.ok.inj h]
      rfl
    · rw [← Except.ok.inj h, get?_singleton_of_ne hkey]

end Query

/-! ## Finding backwards -/

section
variable {m : Memory} {e : EntityType} {designName : String} {o : Options} {p : Profile}
  {allowAdHoc : Bool} {conditions base : Entries}

/-- Where queries can be answered, what is found forwards is what some documents become, and what is
found backwards what they become in reverse, each in the window asked for. -/
theorem becomes_backwards {fields keyFields : List String}
    (h : Query.Answerable m (Database.finderOf e designName p allowAdHoc).setting e o fields
      keyFields) (hdesign : e.designName = .ok designName) (hraw : o.raw.truthy = false)
    (horder : (o.order.orElse e.defaultSort).truthy = false) (hextra : o.extra = .dict [])
    (hw : o.HasWindow) (hforwards : o.descending.truthy = false)
    (hc : o.conditions = .dict conditions)
    (hinterval : ∀ c ∈ conditions, Condition.isInterval c.2 = true)
    (hstart : Query.IsBound o.startkey) (hend : Query.IsBound o.endkey)
    (hbase : Query.conditionParams p (Query.sortedValues conditions) = .ok base) :
    e.Becomes o.readonly ((Window.cut o.skip o.limit?
        (Query.chosen (Query.asked base o) (m.rows e keyFields))).map Row.toDocument)
      (m.outcome p allowAdHoc e (·.findWith o)) ∧
    e.Becomes o.readonly ((Window.cut o.skip o.limit?
        (Query.chosen (Query.asked base o) (m.rows e keyFields)).reverse).map Row.toDocument)
      (m.outcome p allowAdHoc e (·.findWith { o with descending := .bool true })) := by
  obtain ⟨hnamed, -, hdescending, -⟩ := Query.restriction_of_conditionParams hbase
  have hnone := Query.get?_keys_of_exact hbase
    (Query.forall_mem_sortedValues.2 fun c hc => (Condition.isInterval_iff.1 (hinterval c hc)).2.2)
  have hvalues : ∀ v ∈ Query.sortedValues conditions,
      (Query.lowBound v).isJson = true ∧ (Query.highBound v).isJson = true :=
    Query.forall_mem_sortedValues.2 fun c hc => Condition.isJson_bounds (hinterval c hc)
  have hsel := Query.selectable_asked hbase hvalues hstart hend
  refine ⟨h.becomes hdesign (Query.restriction_asked hbase o) (Query.asksFor_asked hextra hc hbase)
    hsel hw hraw horder, ?_⟩
  rw [← Query.chosen_backwards hnamed hdescending hforwards hnone hsel]
  have hbackwards : Query.Answerable m (Database.finderOf e designName p allowAdHoc).setting e
      { o with descending := .bool true } fields keyFields := h.congr h.searched rfl
  exact hbackwards.becomes hdesign (Query.restriction_asked hbase _)
    (Query.asksFor_asked hextra hc hbase) (Query.selectable_asked hbase hvalues hstart hend)
    ⟨hw.limit, hw.offset⟩ hraw horder

/-- What is not permitted has no outcome, forwards or backwards. -/
theorem not_found_backwards (he : e.HasIdentifiers) (hdesign : e.designName = .ok designName)
    (habsent : m.documents.get? (Registry.designId designName) = none)
    (hextra : o.extra = .dict []) (hw : o.HasWindow) (hc : o.conditions = .dict conditions)
    {names : List Value} (hgiven : Query.givenNames o = .ok names)
    (hidentifiers : ∀ n ∈ names, n.isIdentifier = true)
    (hnot : ¬ (o.slow.truthy = true → allowAdHoc = true)) (descending : Value) :
    (m.outcome p allowAdHoc e (·.findWith { o with descending })).toOption = none := by
  obtain ⟨base, hbase, -⟩ := Query.exists_conditionParams p (Query.sortedValues conditions)
  obtain ⟨fields, source, -, hsearched, hsource, -, -⟩ := Query.exists_readable he.isTagged hgiven
    fun n hn => Query.clear_of_isIdentifier (hidentifiers n hn)
  exact (outcome_of_not (o := { o with descending }) hdesign (Query.restriction_asked hbase _)
    (Query.asksFor_asked hextra hc hbase) he habsent hsearched hsource ⟨hw.limit, hw.offset⟩
    (.inl (Classical.not_imp.1 hnot))).1

end

/-- The people from grade nine on, or from grade nine down, by the first bound alone. -/
def fromNine : Options := { useKey := .str "grade", startkey := .int 9 }

end ViewFinder
