import ViewFinder.Proofs.FindWithin

/-!
# Ranges and lists of values together

Without a range a list of values asks for one key for each of them. With a range there are no keys, only
the two bounds, and a list stands in both of them as it is. In an index every list comes after all
numbers and texts, so the value of a field comes before a list that holds it, and the key of the document
before the lower bound (`Query.answersTo_iff_of_lists`). A document that meets the conditions is found
all the same if an earlier field is above its own lower bound, and only then (`find_mixed_iff`). For any
such conditions there is one that is not found (`exists_not_found`).
-/

namespace ViewFinder

open Store

namespace Value

/-- A JSON value that equals a scalar comes before all lists. -/
theorem rankOf_lt_of_equal {v a : Value} (hv : v.isJson = true) (ha : a.isScalar = true)
    (h : v.equal a = true) : Collation.rankOf v < Collation.rankOf (.list []) := by
  cases v with
  | null | bool | int | float | str => simp [Collation.rankOf]
  | list vs => cases a <;> first | (cases ha; done) | simp [equal, agree] at h
  | dict es => cases a <;> first | (cases ha; done) | simp [equal, agree] at h
  | _ => cases hv

end Value

namespace Condition

open Query

/-- Does a value meet a condition: is it one of the values listed, or else between the bounds? -/
def admits (c v : Value) : Bool := if isDiscrete c then accepts c v else covers c v

/-- If the condition is a list, does it list scalars only? -/
def listsScalars : Value → Bool
  | .list vs => vs.all Value.isScalar
  | _ => true

/-- Does a document meet conditions? -/
def admitsAll (conditions : Entries) (d : String × Entries) : Bool :=
  conditions.all fun c => admits c.2 (d.2.getD (Name.normalizeField c.1.text))

section
variable {c v : Value}

/-- A JSON list is both its bounds. -/
theorem bounds_of_discrete (h : isDiscrete c = true) : lowBound c = c ∧ highBound c = c := by
  cases c <;> first | exact ⟨rfl, rfl⟩ | cases h

/-- A value that is one of a list of scalars comes before the list. -/
theorem compare?_list_of_admits (hc : c.isJson = true) (hdiscrete : isDiscrete c = true)
    (hscalars : listsScalars c = true) (hv : v.isJson = true) (h : admits c v = true) :
    (Collation.placeOf v).compare? (Collation.placeOf c) = some .lt := by
  cases c with
  | list vs =>
    rw [admits, hdiscrete, if_pos rfl, accepts, List.any_eq_true] at h
    obtain ⟨a, ha, hva⟩ := h
    have hscalar : a.isScalar = true := List.all_eq_true.1 hscalars a ha
    have hlt : (Collation.placeOf v).rank < (Collation.placeOf (.list vs)).rank := by
      rw [Collation.rank_placeOf hv, Collation.rank_placeOf hc]
      exact Value.rankOf_lt_of_equal hv hscalar hva
    rw [Collation.compare?_of_rank_ne (Nat.ne_of_lt hlt), Nat.compare_eq_lt.2 hlt]
  | tuple | set | frozenset => cases hc
  | _ => cases hdiscrete

end

end Condition

/-! ## Keys with lists among their bounds -/

namespace Query

section
variable {α : Type} {condition value : α → Value} {l : List α}

/-- A list none of whose items is greater than the item at its place is at most as great. -/
theorem atMost_of_forall (h : ∀ a ∈ l, (Collation.placeOf (value a)).atMost
      (Collation.placeOf (highBound (condition a))) = true) :
    Collation.atMost (.list (l.map fun a => Collation.placeOf (value a)))
      (.list (l.map fun a => Collation.placeOf (highBound (condition a)))) = true := by
  induction l with
  | nil => rfl
  | cons a l ih =>
    obtain ⟨hfirst, hrest⟩ := List.forall_mem_cons.1 h
    rw [List.map_cons, List.map_cons, Collation.atMost_cons]
    exact (Collation.atMost_iff.1 hfirst).imp_right fun heq => ⟨heq, ih hrest⟩

/-- Is the value of some field above the lower bound of its condition, no list being among the
conditions before it? -/
def RaisedBeforeLists (condition value : α → Value) (l : List α) : Prop :=
  ∃ before c after, l = before ++ c :: after ∧
    (∀ b ∈ before ++ [c], Condition.isDiscrete (condition b) = false) ∧
    (Collation.placeOf (lowBound (condition c))).compare? (Collation.placeOf (value c)) = some .lt

theorem raisedBeforeLists_cons {a : α} : RaisedBeforeLists condition value (a :: l) ↔
    Condition.isDiscrete (condition a) = false ∧
      ((Collation.placeOf (lowBound (condition a))).compare? (Collation.placeOf (value a)) =
          some .lt ∨
        RaisedBeforeLists condition value l) := by
  constructor
  · rintro ⟨before, c, after, hsplit, hnone, hlt⟩
    cases before with
    | nil =>
      obtain ⟨rfl, rfl⟩ := List.cons.inj hsplit
      exact ⟨hnone a (List.mem_singleton_self a), .inl hlt⟩
    | cons b before =>
      obtain ⟨rfl, rfl⟩ := List.cons.inj hsplit
      obtain ⟨ha, hnone⟩ := List.forall_mem_cons.1 hnone
      exact ⟨ha, .inr ⟨before, c, after, rfl, hnone, hlt⟩⟩
  · rintro ⟨ha, hlt | ⟨before, c, after, rfl, hnone, hlt⟩⟩
    · exact ⟨[], a, l, rfl, List.forall_mem_singleton.2 ha, hlt⟩
    · exact ⟨a :: before, c, after, rfl, List.forall_mem_cons.2 ⟨ha, hnone⟩, hlt⟩

/-- With a list among the bounds a key of values that are less than it is above the lower bounds if and
only if some value before the list is. -/
theorem atMost_lowBounds_iff (hlist : ∃ a ∈ l, Condition.isDiscrete (condition a) = true)
    (hless : ∀ a ∈ l, Condition.isDiscrete (condition a) = true →
      (Collation.placeOf (value a)).compare? (Collation.placeOf (condition a)) = some .lt)
    (hlow : ∀ a ∈ l, Condition.isDiscrete (condition a) = false →
      (Collation.placeOf (lowBound (condition a))).atMost (Collation.placeOf (value a)) = true) :
    Collation.atMost (.list (l.map fun a => Collation.placeOf (lowBound (condition a))))
      (.list (l.map fun a => Collation.placeOf (value a))) = true ↔
        RaisedBeforeLists condition value l := by
  induction l with
  | nil =>
    obtain ⟨a, ha, -⟩ := hlist
    cases ha
  | cons a l ih =>
    obtain ⟨hlessa, hless⟩ := List.forall_mem_cons.1 hless
    obtain ⟨hlowa, hlow⟩ := List.forall_mem_cons.1 hlow
    rw [List.map_cons, List.map_cons, Collation.atMost_cons, raisedBeforeLists_cons]
    cases hdiscrete : Condition.isDiscrete (condition a) with
    | true =>
      -- the list is above the value, whatever follows
      have hgt : (Collation.placeOf (lowBound (condition a))).compare?
          (Collation.placeOf (value a)) = some .gt := by
        rw [(Condition.bounds_of_discrete hdiscrete).1, Collation.compare?_swap, hlessa hdiscrete]
        rfl
      rw [hgt]
      simp
    | false =>
      have hrest : ∃ a ∈ l, Condition.isDiscrete (condition a) = true := by
        obtain ⟨b, hb, hblist⟩ := hlist
        rcases List.mem_cons.1 hb with rfl | hb
        · rw [hdiscrete] at hblist
          cases hblist
        · exact ⟨b, hb, hblist⟩
      rw [ih hrest hless hlow]
      rcases Collation.atMost_iff.1 (hlowa hdiscrete) with hlt | heq
      · rw [hlt]
        simp
      · rw [heq]
        simp

/-- With ranges and lists among the conditions a query asks for the key of values that meet them if and
only if some value before the first list is above the lower bound of its condition. -/
theorem answersTo_iff_of_lists (hany : ∃ a ∈ l, Condition.isRange (condition a) = true)
    (hlist : ∃ a ∈ l, Condition.isDiscrete (condition a) = true)
    (hbounds : ∀ a ∈ l, (lowBound (condition a)).isJson = true ∧
      (highBound (condition a)).isJson = true) (hjson : ∀ a ∈ l, (value a).isJson = true)
    (hscalars : ∀ a ∈ l, Condition.listsScalars (condition a) = true)
    (h : ∀ a ∈ l, Condition.admits (condition a) (value a) = true) :
    answersTo (l.map condition) (.list (l.map value)) = true ↔
      RaisedBeforeLists condition value l := by
  have hless : ∀ a ∈ l, Condition.isDiscrete (condition a) = true →
      (Collation.placeOf (value a)).compare? (Collation.placeOf (condition a)) = some .lt := by
    intro a ha hdiscrete
    have hcjson := (hbounds a ha).1
    rw [(Condition.bounds_of_discrete hdiscrete).1] at hcjson
    exact Condition.compare?_list_of_admits hcjson hdiscrete (hscalars a ha) (hjson a ha) (h a ha)
  have hbetween : ∀ a ∈ l, Condition.isDiscrete (condition a) = false →
      Condition.covers (condition a) (value a) = true := by
    intro a ha hnot
    have hadmits := h a ha
    rwa [Condition.admits, hnot, if_neg Bool.false_ne_true] at hadmits
  have hhigh : ∀ a ∈ l, (Collation.placeOf (value a)).atMost
      (Collation.placeOf (highBound (condition a))) = true := by
    intro a ha
    cases hdiscrete : Condition.isDiscrete (condition a) with
    | true =>
      rw [(Condition.bounds_of_discrete hdiscrete).2, Collation.atMost_iff]
      exact .inl (hless a ha hdiscrete)
    | false => exact (Collation.between_iff.1 (hbetween a ha hdiscrete)).2
  rw [answersTo_eq_between hany hbounds hjson, Collation.between_iff,
    and_iff_left (atMost_of_forall hhigh)]
  refine atMost_lowBounds_iff hlist hless fun a ha hnot => ?_
  exact (Collation.between_iff.1 (hbetween a ha hnot)).1

end

end Query

/-! ## Finding -/

section
variable {m : Memory} {e : EntityType} {designName : String} {conditions : Entries}

theorem Condition.admitsAll_iff_sorted {d : String × Entries} :
    Condition.admitsAll conditions d = true ↔
      ∀ c ∈ Query.sortedConditions conditions, Condition.admits c.2 (d.2.getD c.1) = true := by
  rw [Query.forall_mem_sortedConditions (p := fun c => Condition.admits c.2 (d.2.getD c.1) = true),
    Condition.admitsAll, List.all_eq_true]

section
variable (hbounds : ∀ c ∈ conditions, (Query.lowBound c.2).isJson = true ∧
    (Query.highBound c.2).isJson = true)
  (hrange : ∃ c ∈ conditions, Condition.isRange c.2 = true)
  (hlist : ∃ c ∈ conditions, Condition.isDiscrete c.2 = true)
include hbounds hrange hlist

/-- A document that meets ranges together with lists of scalars is selected if and only if some field
before the first list is above the lower bound of its condition. -/
theorem mem_selected_iff (hm : m.HoldsJson)
    (hscalars : ∀ c ∈ conditions, Condition.listsScalars c.2 = true) {d : String × Entries}
    (hd : d ∈ m.documentsOf e) (hadmits : Condition.admitsAll conditions d = true) :
    d ∈ m.selected e conditions ↔ Query.RaisedBeforeLists (·.2) (fun c => d.2.getD c.1)
      (Query.sortedConditions conditions) := by
  have hselects : Condition.selects (Query.sortedConditions conditions) d = true ↔ _ :=
    Query.answersTo_iff_of_lists (Query.exists_mem_sortedConditions.2 hrange)
      (Query.exists_mem_sortedConditions.2 hlist) (Query.forall_mem_sortedConditions.2 hbounds)
      (fun c _ => Value.isJson_getD (hm.isJson_of_mem hd) c.1)
      (Query.forall_mem_sortedConditions.2 hscalars) (Condition.admitsAll_iff_sorted.1 hadmits)
  rw [(hm.selected_perm e conditions).mem_iff, List.mem_filter, and_iff_right hd]
  exact hselects

/-- Finding by ranges together with lists and exact values comes to the documents whose key, the fields
in ascending order, is between the two keys asked for, in which lists stand as they are. Where these
list scalars, a document that meets the conditions is found if and only if some field before the first
list is above the lower bound of its condition. -/
theorem find_mixed_iff (p : Profile) (allowAdHoc : Bool) (hm : m.HoldsJson) (he : e.HasIdentifiers)
    (hdesign : e.designName = .ok designName)
    (habsent : m.documents.get? (Registry.designId designName) = none)
    (hnames : ∀ c ∈ conditions, c.1.isIdentifier = true)
    (hdistinct : (conditions.map fun c => Name.normalizeField c.1.text).Nodup) :
    ∃ (found : List (String × Entries)) (sorted : List (String × Value)),
      e.Yields (m.outcome p allowAdHoc e
        (·.find (.dict [(.str "conditions", .dict conditions)]))) found ∧
      found.Perm ((m.documentsOf e).filter (Condition.selects sorted)) ∧
      sorted.Perm (conditions.map fun c => (Name.normalizeField c.1.text, c.2)) ∧
      sorted.Pairwise (fun a b => Text.before a.1 b.1 = true) ∧
      ((∀ c ∈ conditions, Condition.listsScalars c.2 = true) →
        ∀ d ∈ m.documentsOf e, Condition.admitsAll conditions d = true →
          (d ∈ found ↔ ∃ before c after, sorted = before ++ c :: after ∧
            (∀ b ∈ before ++ [c], Condition.isDiscrete b.2 = false) ∧
            (Collation.placeOf (Query.lowBound c.2)).compare?
              (Collation.placeOf (d.2.getD c.1)) = some .lt)) := by
  refine ⟨m.selected e conditions, Query.sortedConditions conditions,
    yields_selected hm he hdesign habsent hnames hdistinct hbounds hrange p allowAdHoc,
    hm.selected_perm e conditions, Query.sortedConditions_perm conditions, ?_,
    fun hscalars d hd hadmits => mem_selected_iff hbounds hrange hlist hm hscalars hd hadmits⟩
  exact Query.pairwise_sortByName (fun c => Query.isIdentifier_of_mem_normalized hnames)
    (by rwa [List.map_map])

end

end

/-- Goods of a cost between five and nine and a weight of two or three: those of a cost of five are
missed. -/
def costOrWeights : Entries :=
  [(.str "cost", .range (.int 5) (.int 9)), (.str "weight", .list [.int 2, .int 3])]

theorem find_goods_mixed_iff : ∃ (found : List (String × Entries)) (sorted : List (String × Value)),
    good.Yields (goods.outcome ⟨{ minor := 9 }⟩ true good
      (·.find (.dict [(.str "conditions", .dict costOrWeights)]))) found ∧
    found.Perm ((goods.documentsOf good).filter (Condition.selects sorted)) ∧
    sorted.Perm [("cost", .range (.int 5) (.int 9)), ("weight", .list [.int 2, .int 3])] ∧
    sorted.Pairwise (fun a b => Text.before a.1 b.1 = true) ∧
    ((∀ c ∈ costOrWeights, Condition.listsScalars c.2 = true) →
      ∀ d ∈ goods.documentsOf good, Condition.admitsAll costOrWeights d = true →
        (d ∈ found ↔ ∃ before c after, sorted = before ++ c :: after ∧
          (∀ b ∈ before ++ [c], Condition.isDiscrete b.2 = false) ∧
          (Collation.placeOf (Query.lowBound c.2)).compare?
            (Collation.placeOf (d.2.getD c.1)) = some .lt)) :=
  find_mixed_iff (by decide) ⟨_, List.mem_cons_self .., rfl⟩
    ⟨_, List.mem_cons_of_mem _ (List.mem_cons_self ..), rfl⟩ _ true holdsJson_goods
    hasIdentifiers_good rfl (absent_goods _) (by decide) (by decide)

/-- The first of the goods has a cost of five and a weight of two, but nothing is found. -/
theorem find_goods_none :
    goods.outcome ⟨{ minor := 9 }⟩ true good
      (·.find (.dict [(.str "conditions", .dict costOrWeights)])) = .ok (.records []) ∧
    ∃ d ∈ goods.documentsOf good, Condition.admitsAll costOrWeights d = true := by
  have hnone : (goods.documentsOf good).filter
      (Condition.selects (Query.sortedConditions costOrWeights)) = [] := by decide +kernel
  have hselected : goods.selected good costOrWeights = [] := by
    have hperm := holdsJson_goods.selected_perm good costOrWeights
    rwa [hnone, List.perm_nil] at hperm
  have houtcome : goods.outcome ⟨{ minor := 9 }⟩ true good
      (·.find (.dict [(.str "conditions", .dict costOrWeights)])) =
        .ok (.records ((goods.selected good costOrWeights).map good.recordOf)) :=
    outcome_eq_selected holdsJson_goods hasIdentifiers_good rfl (absent_goods _) (by decide)
      (by decide) (by decide) ⟨_, List.mem_cons_self .., rfl⟩ rfl rfl _ true
  refine ⟨?_, by decide +kernel⟩
  rw [houtcome, hselected]
  rfl

/-! ## A document that is not found -/

/-- A value that a condition admits if it admits any: the first one of a list, or the lower bound. -/
def Query.leastOf : Value → Value
  | .list (v :: _) => v
  | c => Query.lowBound c

section
variable {c : Value}

theorem Query.isJson_leastOf (h : (Query.lowBound c).isJson = true) :
    (Query.leastOf c).isJson = true := by
  unfold leastOf
  split
  · next v vs => exact Value.allJson_iff.1 h v (List.mem_cons_self ..)
  · exact h

theorem Query.leastOf_of_not_discrete (h : Condition.isDiscrete c = false) :
    Query.leastOf c = Query.lowBound c := by
  cases c <;> first | rfl | cases h

/-- A JSON scalar equals itself. -/
theorem Value.equal_self_of_isScalar {v : Value} (hv : v.isJson = true) (h : v.isScalar = true) :
    v.equal v = true := by
  cases v with
  | null | int | str => exact equal_self_of_isAtom rfl
  | bool | float => exact coincides_of_compare? hv hv rfl (Collation.compare?_self _)
  | _ => cases h

/-- A condition whose bounds are in the right order, or that lists something, admits that value. -/
theorem Condition.admits_leastOf (hjson : (Query.lowBound c).isJson = true)
    (hscalars : Condition.listsScalars c = true) (hsome : c ≠ .list [])
    (hproper : (Collation.placeOf (Query.lowBound c)).atMost
      (Collation.placeOf (Query.highBound c)) = true) :
    Condition.admits c (Query.leastOf c) = true := by
  rw [admits]
  cases hdiscrete : isDiscrete c with
  | false =>
    rw [if_neg Bool.false_ne_true, Query.leastOf_of_not_discrete hdiscrete, covers,
      Collation.between_iff]
    exact ⟨Collation.atMost_self _, hproper⟩
  | true =>
    rw [if_pos rfl]
    cases c with
    | list vs =>
      cases vs with
      | nil => exact absurd rfl hsome
      | cons v vs =>
        have hv : v.isJson = true := Value.allJson_iff.1 hjson v (List.mem_cons_self ..)
        have hscalar : v.isScalar = true := List.all_eq_true.1 hscalars v (List.mem_cons_self ..)
        refine List.any_eq_true.2 ⟨v, List.mem_cons_self .., ?_⟩
        exact Value.equal_self_of_isScalar hv hscalar
    | tuple | set | frozenset => cases hjson
    | _ => cases hdiscrete

end

section
variable {e : EntityType} {designName : String} {conditions : Entries} (he : e.HasIdentifiers)
  (hdistinct : (conditions.map fun c => Name.normalizeField c.1.text).Nodup)
  (hmarked : e.discriminatorField ≠ .str Name.idField)
  (hfree : ∀ c ∈ conditions, Name.normalizeField c.1.text ≠ Name.idField ∧
    e.discriminatorField ≠ .str (Name.normalizeField c.1.text))
include he hdistinct hmarked hfree

/-- There is a store whose one document holds, for each condition, a value that depends on it. -/
theorem exists_holding {f : Value → Value} (hjson : ∀ c ∈ conditions, (f c.2).isJson = true) :
    ∃ d, (Store.Memory.ofDocument d).HoldsJson ∧ (Store.Memory.ofDocument d).documentsOf e = [d] ∧
      (∀ designName, (Store.Memory.ofDocument d).documents.get?
        (Registry.designId designName) = none) ∧
      ∀ c ∈ Query.sortedConditions conditions, d.2.getD c.1 = f c.2 := by
  have hfields : ∀ n ∈ Query.sortedNames conditions,
      n ≠ Name.idField ∧ e.discriminatorField ≠ .str n := by
    rw [Query.sortedNames, List.forall_mem_map]
    exact Query.forall_mem_sortedConditions.2 hfree
  have hvalues : ∀ v ∈ (Query.sortedValues conditions).map f, v.isJson = true :=
    List.forall_mem_map.2 (Query.forall_mem_sortedValues.2 hjson)
  refine ⟨e.documentWith (Query.sortedNames conditions) ((Query.sortedValues conditions).map f),
    holdsJson_documentWith he hmarked hfields (nodup_sortedNames hdistinct) hvalues,
    documentsOf_documentWith he hmarked, absent_documentWith e _ _, List.map_inj_left.1 ?_⟩
  rw [map_getD_sortedConditions hdistinct hfields (List.length_map ..), Query.sortedValues,
    List.map_map]
  rfl

/-- For all ranges together with lists of scalars there is a store whose one document meets them and is
not found, unless what marks the documents of the type is asked for. -/
theorem exists_not_found (p : Profile) (allowAdHoc : Bool) (hfactory : e.factory = .document)
    (hdesign : e.designName = .ok designName)
    (hnames : ∀ c ∈ conditions, c.1.isIdentifier = true)
    (hbounds : ∀ c ∈ conditions, (Query.lowBound c.2).isJson = true ∧
      (Query.highBound c.2).isJson = true)
    (hrange : ∃ c ∈ conditions, Condition.isRange c.2 = true)
    (hlist : ∃ c ∈ conditions, Condition.isDiscrete c.2 = true)
    (hscalars : ∀ c ∈ conditions, Condition.listsScalars c.2 = true)
    (hsome : ∀ c ∈ conditions, c.2 ≠ .list [])
    (hproper : ∀ c ∈ conditions, (Collation.placeOf (Query.lowBound c.2)).atMost
      (Collation.placeOf (Query.highBound c.2)) = true) :
    ∃ d, (Store.Memory.ofDocument d).HoldsJson ∧ (Store.Memory.ofDocument d).documentsOf e = [d] ∧
      Condition.admitsAll conditions d = true ∧
      (Store.Memory.ofDocument d).outcome p allowAdHoc e
        (·.find (.dict [(.str "conditions", .dict conditions)])) = .ok (.records []) := by
  obtain ⟨d, hm, hone, habsent, hleast⟩ := exists_holding he hdistinct hmarked hfree
    (f := Query.leastOf) fun c hc => Query.isJson_leastOf (hbounds c hc).1
  have hadmits : Condition.admitsAll conditions d = true := by
    rw [Condition.admitsAll_iff_sorted]
    intro c hc
    rw [hleast c hc]
    revert c
    exact Query.forall_mem_sortedConditions.2 fun c hc =>
      Condition.admits_leastOf (hbounds c hc).1 (hscalars c hc) (hsome c hc) (hproper c hc)
  have hnot : d ∉ (Store.Memory.ofDocument d).selected e conditions := by
    have hd : d ∈ (Store.Memory.ofDocument d).documentsOf e := by
      rw [hone]
      exact List.mem_singleton_self d
    rw [mem_selected_iff hbounds hrange hlist hm hscalars hd hadmits]
    rintro ⟨before, c, after, hsplit, hnone, hlt⟩
    -- the document is at the lower bound of every condition but the lists
    have hc : c ∈ Query.sortedConditions conditions := by simp [hsplit]
    have hvalue : d.2.getD c.1 = Query.lowBound c.2 :=
      (hleast c hc).trans (Query.leastOf_of_not_discrete (hnone c (by simp)))
    simp only [hvalue, Collation.compare?_self] at hlt
    cases hlt
  have hselected : (Store.Memory.ofDocument d).selected e conditions = [] := by
    refine List.eq_nil_iff_forall_not_mem.2 fun d' hd' => absurd ?_ hnot
    have hmem := List.mem_of_mem_filter ((hm.selected_perm e conditions).mem_iff.1 hd')
    rw [hone] at hmem
    rwa [List.mem_singleton.1 hmem] at hd'
  obtain ⟨rs, houtcome, hrecords⟩ := (yields_selected hm he hdesign (habsent designName) hnames
    hdistinct hbounds hrange p allowAdHoc).byDefault hfactory
  rw [hselected, List.map_nil, List.perm_nil] at hrecords
  rw [hrecords] at houtcome
  exact ⟨d, hm, hone, hadmits, houtcome⟩

end

end ViewFinder
