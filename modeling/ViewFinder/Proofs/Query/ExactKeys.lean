import Mathlib.Data.List.Perm.Subperm
import ViewFinder.Proofs.FindConditions
import ViewFinder.Proofs.OwnIndex
import ViewFinder.Proofs.Query.Ranges

/-!
# Exact keys, whatever view answers

A query for exact values asks for one key, or for nothing where there are no conditions
(`Query.exactBase`). The rows of that key are those of the documents that meet the conditions, unless
two of these go to one field (`Query.exactRows_perm`). A view with the map function of the query
answers with these rows, or with their number if it has a reduce function that the query does not
switch off (`Query.Compiles.answer_exact`).
-/

namespace ViewFinder

open Store

namespace Query

/-! ## What exact values ask for -/

/-- Exact values ask for one key, if there are any. -/
def exactBase : Entries → Entries
  | [] => []
  | c :: conditions => [(.str "key", .list (sortedValues (c :: conditions)))]

/-- The rows that exact values ask for. -/
def exactRows (conditions : Entries) (rows : List Row) : List Row :=
  if conditions = [] then rows else Index.withKey rows (.list (sortedValues conditions))

section
variable {p : Profile} {conditions : Entries}

/-- They ask for nothing else. -/
theorem get?_exactBase_of_ne {n : String} (h : "key" ≠ n) : (exactBase conditions).get? n = none := by
  cases conditions with
  | nil => rfl
  | cons c conditions => exact get?_singleton_of_ne h _

theorem chosen_exactBase (rows : List Row) :
    chosen (exactBase conditions) rows = exactRows conditions rows := by
  cases conditions with
  | nil => exact chosen_nil rows
  | cons c conditions => exact chosen_key rows _

/-- The parameters of a query for exact values are those of the window and their key. -/
theorem exists_params_of_exact (hjson : ∀ c ∈ conditions, c.2.isJson = true)
    (hexact : ∀ c ∈ conditions, Condition.isDiscrete c.2 = false) :
    (∃ params, searchValues p { conditions := .dict conditions } = .ok params ∧
      ∀ n, params.get? n = ((windowParams p { conditions := .dict conditions }).get? n).or
        ((exactBase conditions).get? n)) ∧
    Restriction p (exactBase conditions) ∧ Index.Selectable (exactBase conditions) := by
  have hplain := Options.plain_conditions conditions .null .null
  cases conditions with
  | nil => exact exists_searchValues_of_none hplain rfl
  | cons c conditions =>
    have hrange : ∀ v ∈ sortedValues (c :: conditions), Condition.isRange v = false :=
      forall_mem_sortedValues.2 fun c hc => by
        cases hv : c.2 <;> first | rfl | exact absurd (hjson c hc) (by rw [hv]; exact nofun)
    have hsome : sortedValues (c :: conditions) ≠ [] :=
      List.ne_nil_of_mem (mem_sortedValues.2 ⟨c, List.mem_cons_self .., rfl⟩)
    exact exists_searchValues_of_singleton hplain rfl (List.mem_cons_self ..)
      (conditionParams_of_exact hrange (forall_mem_sortedValues.2 hexact) hsome)

end

/-! ## The documents of exact values -/

section
variable {m : Memory} {e : EntityType} {conditions : Entries} {fields : List String}
  (hjson : ∀ c ∈ conditions, c.2.isJson = true)
include hjson

/-- A document meets exact conditions if and only if the values of their fields equal theirs. -/
theorem equal_key_eq_meets (hexact : ∀ c ∈ conditions, Condition.isDiscrete c.2 = false)
    (d : String × Entries) : (Row.ofDocument (sortedNames conditions) d).key.equal
      (.list (sortedValues conditions)) = Condition.meets conditions d := by
  have haccepts : ∀ c ∈ conditions, ∀ v : Value, Condition.accepts c.2 v = v.equal c.2 := by
    intro c hc v
    rw [Condition.accepts, Condition.accepted_of_exact (hexact c hc), List.any_cons, List.any_nil,
      Bool.or_false]
  rw [Bool.eq_iff_iff, Row.ofDocument, Value.equal_list_iff (forall_mem_sortedValues.2 hjson),
    sortedNames, sortedValues, List.map_map, List.forall₂_map_left_iff, List.forall₂_map_right_iff,
    List.forall₂_same, Condition.meets, List.all_eq_true]
  simp only [(sortedConditions_perm conditions).mem_iff, List.forall_mem_map, Function.comp_apply]
  exact forall₂_congr fun c hc => by rw [haccepts c hc]

variable (hfields : searchFields e { conditions := .dict conditions } = .ok fields)
  (hm : m.HoldsJson)
include hfields hm

/-- The rows of exact values on distinct fields are those of the documents that meet the conditions. -/
theorem exactRows_perm (hexact : ∀ c ∈ conditions, Condition.isDiscrete c.2 = false)
    (hnames : ∀ c ∈ conditions, c.1.isIdentifier = true)
    (hdistinct : (conditions.map fun c => Name.normalizeField c.1.text).Nodup) :
    ((exactRows conditions (m.rows e fields)).map Row.toDocument).Perm
      ((m.documentsOf e).filter (Condition.meets conditions)) := by
  rw [exactRows]
  split
  · next hnil =>
    have hall := hm.filter_toDocument_perm e fields fun _ => true
    rw [List.filter_eq_self.2 fun _ _ => rfl] at hall
    rw [hnil]
    exact hall
  · next hne =>
    rw [searchFields_conditions hnames hdistinct e hne rfl rfl, Except.ok.injEq] at hfields
    rw [← hfields]
    refine (hm.filter_toDocument_perm e _ _).trans (.of_eq ?_)
    exact List.filter_congr fun d _ => equal_key_eq_meets hjson hexact d

/-- Where two conditions go to one field, there are more values than fields, and no rows. -/
theorem exactRows_of_not_nodup (hnames : ∀ c ∈ conditions, c.1.isIdentifier = true)
    (hrepeated : ¬ (conditions.map fun c => Name.normalizeField c.1.text).Nodup) :
    exactRows conditions (m.rows e fields) = [] := by
  have hne : conditions ≠ [] := by
    rintro rfl
    exact hrepeated List.nodup_nil
  rw [exactRows, if_neg hne, Index.withKey, List.filter_eq_nil_iff]
  intro r hr hequal
  obtain ⟨d, -, rfl⟩ := hm.exists_of_mem_rows hr
  rw [Row.ofDocument, Value.equal_list_iff (forall_mem_sortedValues.2 hjson)] at hequal
  have hlength := hequal.length_eq
  rw [List.length_map, sortedValues, List.length_map, (sortedConditions_perm conditions).length_eq,
    List.length_map] at hlength
  -- as many fields as names, all different and all of them names: so are the names
  have hgiven : givenNames { conditions := .dict conditions } = .ok (conditions.map (·.1)) := rfl
  rw [searchFields_eq e hgiven (by simpa using hne), List.map_map, Except.ok.injEq] at hfields
  have hkept : ∀ n ∈ conditions.map fun c => Name.normalizeField c.1.text, Text.isKept n = true :=
    List.forall_mem_map.2 fun c hc => Name.isKept_of_isIdentifier
      (isIdentifier_of_mem_normalized hnames (List.mem_map_of_mem hc))
  have hnodup : (sortNames (conditions.map fun c => Name.normalizeField c.1.text)).Nodup :=
    nodup_of_pairwise (pairwise_sortNames hkept)
  have hsub : sortNames (conditions.map fun c => Name.normalizeField c.1.text) ⊆
      conditions.map fun c => Name.normalizeField c.1.text := fun n hn => mem_sortNames.1 hn
  have hperm := (hnodup.subperm hsub).perm_of_length_le (by
    rw [List.length_map, ← hlength, ← hfields]
    exact Nat.le_refl _)
  exact hrepeated (hperm.nodup_iff.1 hnodup)

end

/-! ## What a view answers -/

/-- The rows of a reduce step that counts: none where there is nothing to count. -/
def countRows (n : Nat) : List Value := if n = 0 then [] else [Index.countRow .null n]

theorem sumRows_countRows (n : Nat) : Count.sumRows (countRows n) = .ok n := by
  rw [countRows]
  split
  · next hzero =>
    rw [hzero]
    rfl
  · simp [Count.sumRows, ofRow_countRow, bind, Except.bind, pure, Except.pure]

/-- A view of the same map function answers a query for exact values with the rows of their key, or with
their number if a reduce step is run. -/
theorem Compiles.answer_exact {q : CompiledQuery} {e : EntityType} {s : Setting}
    {conditions : Entries} {operation : String} {fields : List String}
    (h : Compiles q e s.profile { conditions := .dict conditions } operation fields
      (exactBase conditions))
    (hr : Restriction s.profile (exactBase conditions)) (hsel : Index.Selectable (exactBase conditions))
    {documents : Entries} {source : Value} {rows : List Row}
    (hrows : Index.ofDocuments source documents = .ok rows) (reduce : Value) :
    Index.answer documents source reduce q.params = .ok
      (if Index.runsReduce reduce q.params then
        .dict [(.str "rows", .list (countRows (exactRows conditions rows).length))]
      else Window.response rows.length 0 ((exactRows conditions rows).map Row.toValue)) := by
  have hkeys : (exactBase conditions).get? "keys" = none := get?_exactBase_of_ne (by decide)
  have hone : oneByOne (exactBase conditions) = [] := by
    rw [oneByOne, get?_exactBase_of_ne (by decide)]
  have hselected : selection (exactBase conditions) rows = exactRows conditions rows := by
    rw [← chosen_exactBase, chosen, hone]
  have hselect := (Index.select_congr h.get?_eq_of_mem rows).trans (select_eq_selection hsel rows)
  rw [hselected] at hselect
  have hw := Options.hasWindow_conditions conditions
  cases hruns : Index.runsReduce reduce q.params with
  | true =>
    refine Index.answer_of_reduced hrows hselect hruns ?_
    rw [Index.reduced, h.get?_eq (by decide) (by decide), hkeys]
    cases exactRows conditions rows <;> rfl
  | false =>
    have hanswer := Index.answer_of_select hrows hselect hruns
      (h.toInteger_skip hw hr.windowless) (h.limit?_eq hw hr.windowless)
    rwa [Window.cut_conditions] at hanswer

/-! ## The parameter that switches the reduce step off -/

section
variable {e : EntityType} {p : Profile} {o : Options} {q : CompiledQuery} {params : Entries}

theorem params_of_build {operation : String} {fields : List String} {reduce : Value}
    {changed : Entries} {reduced : Bool}
    (h : build e o operation fields reduce changed reduced = .ok q) :
    q.params = changed.erase fallbackParam ∧ q.reduced = .bool reduced := by
  obtain ⟨source, hsource, hdesign, -⟩ := view_of_build h
  rw [build_eq hdesign hsource, Except.ok.injEq] at h
  exact ⟨(congrArg CompiledQuery.params h).symm, (congrArg CompiledQuery.reduced h).symm⟩

/-- Finding switches the reduce step off where the store can count by one. -/
theorem get?_reduce_of_find (h : find e p o = .ok q) (hvalues : searchValues p o = .ok params) :
    q.params.get? "reduce" =
      if p.reduceCounting then some (.bool false) else params.get? "reduce" := by
  obtain ⟨fields, -, hfields, -⟩ := view_of_find h
  rw [find, hfields, hvalues] at h
  cases hcounting : p.reduceCounting with
  | true =>
    rw [hcounting] at h
    rw [(params_of_build h).1, Entries.get?_erase, if_neg (by decide), Entries.get?_set]
    rfl
  | false =>
    rw [hcounting] at h
    rw [(params_of_build h).1, Entries.get?_erase, if_neg (by decide)]
    rfl

/-- So finding runs no reduce step, whatever the options say. -/
theorem runsReduce_of_find (h : find e p o = .ok q) :
    Index.runsReduce (reduceSource p) q.params = false := by
  have hfind := h
  obtain ⟨fields, -, h⟩ := Fault.bind_eq_ok_iff.1 h
  obtain ⟨params, hvalues, -⟩ := Fault.bind_eq_ok_iff.1 h
  rw [Index.runsReduce, reduceSource, get?_reduce_of_find hfind hvalues]
  split <;> rfl

/-- Counting leaves it to the store, and reads what it comes to if the store can count by one. -/
theorem get?_reduce_of_count (h : count e p o = .ok q) (hvalues : searchValues p o = .ok params) :
    q.params.get? "reduce" = params.get? "reduce" ∧ q.reduced = .bool p.reduceCounting := by
  obtain ⟨fields, -, hfields, -⟩ := view_of_count h
  rw [count, hfields, hvalues] at h
  cases hcounting : p.reduceCounting with
  | true =>
    rw [hcounting] at h
    obtain ⟨hparams, hreduced⟩ := params_of_build h
    refine ⟨?_, hreduced⟩
    rw [hparams, Entries.get?_erase, if_neg (by decide), get?_addIf, if_neg fun h =>
      absurd h.2 (by decide)]
  | false =>
    rw [hcounting] at h
    obtain ⟨hparams, hreduced⟩ := params_of_build h
    refine ⟨?_, hreduced⟩
    rw [hparams, Entries.get?_erase, if_neg (by decide)]

end

end Query

end ViewFinder
