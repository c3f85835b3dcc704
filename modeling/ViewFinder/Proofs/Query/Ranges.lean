import ViewFinder.Proofs.Query.Selection

/-!
# Ranges of keys

A query with a range among its conditions asks for the keys between that of the lower bounds and that
of the upper bounds. Keys are compared by the first items that differ. So the keys between two others
meet the first range, and every exact value before it (`Query.holds_of_answersTo`), but nothing is
said of what comes after.
-/

namespace ViewFinder

open Store

namespace Condition

open Query

/-- Is a condition an exact JSON value or a range between JSON values? Lists are neither. -/
def isInterval (c : Value) : Bool :=
  (lowBound c).isJson && (highBound c).isJson && !isDiscrete c

/-- Is a value between the bounds of a condition, ends included, in the order of an index? -/
def covers (c v : Value) : Bool :=
  Collation.between (Collation.placeOf (lowBound c)) (Collation.placeOf (highBound c))
    (Collation.placeOf v)

/-- Does a value meet a condition: is it in the range asked for, or the exact value? -/
def holds (c v : Value) : Bool := if isRange c then covers c v else v.coincides c

section
variable {c v : Value}

theorem isInterval_iff : isInterval c = true ↔ (lowBound c).isJson = true ∧
    (highBound c).isJson = true ∧ isDiscrete c = false := by
  simp [isInterval, and_assoc]

/-- The bounds of an exact value and of a range are JSON. -/
theorem isJson_bounds (h : isInterval c = true) :
    (lowBound c).isJson = true ∧ (highBound c).isJson = true :=
  (isInterval_iff.1 h).imp_right And.left

/-- An exact value is both its bounds. -/
theorem bounds_of_exact (h : isRange c = false) : lowBound c = c ∧ highBound c = c := by
  cases c <;> first | exact ⟨rfl, rfl⟩ | cases h

/-- A value between the bounds of a condition meets it. -/
theorem holds_of_covers (hc : isInterval c = true) (hv : v.isJson = true) (h : covers c v = true) :
    holds c v = true := by
  rw [holds]
  split
  · exact h
  · next hrange =>
    obtain ⟨hlow, hhigh⟩ := bounds_of_exact (Bool.eq_false_iff.2 hrange)
    obtain ⟨hjson, -, hdiscrete⟩ := isInterval_iff.1 hc
    rw [covers, hlow, hhigh, Collation.between_iff] at h
    exact Value.coincides_of_compare? hv (hlow ▸ hjson) hdiscrete
      (Collation.compare?_eq_of_atMost h.2 h.1)

end

end Condition

namespace Query

/-- The range of keys between that of the lower bounds of values and that of the upper bounds. -/
def keyRange (values : List Value) : Value :=
  .range (.list (values.map lowBound)) (.list (values.map highBound))

/-- Is a key one that a query for values asks for? With a range among them it is to lie in the range of
keys, else it is to equal the key of the values. -/
def answersTo (values : List Value) (key : Value) : Bool :=
  if values.any Condition.isRange then Condition.covers (keyRange values) key
  else key.equal (.list values)

theorem answersTo_nil : answersTo [] (.list []) = true := by
  rw [answersTo, List.any_nil, if_neg Bool.false_ne_true]
  exact (Value.equal_list_iff (List.forall_mem_nil _)).2 .nil

/-- Do the keys in a range of keys meet every condition? The first one whose bounds are apart is to be
the last one, or its bounds are to come in the wrong order, so that there is nothing between them. -/
def isDecisive : List Value → Bool
  | [] => true
  | c :: rest =>
    match (Collation.placeOf (lowBound c)).compare? (Collation.placeOf (highBound c)) with
    | some .eq => isDecisive rest
    | some .lt => rest.isEmpty
    | _ => true

/-- Where every range stands last the conditions are decisive. -/
theorem isDecisive_of_last {values : List Value}
    (h : ∀ before c after, values = before ++ c :: after → Condition.isRange c = true →
      after = []) : isDecisive values = true := by
  induction values with
  | nil => rfl
  | cons c rest ih =>
    rw [isDecisive]
    split
    · refine ih fun before b after hrest hb => h (c :: before) b after ?_ hb
      rw [hrest, List.cons_append]
    · next hlt =>
      have hrange : Condition.isRange c = true := by
        by_contra hexact
        obtain ⟨hlow, hhigh⟩ := Condition.bounds_of_exact (Bool.eq_false_iff.2 hexact)
        rw [hlow, hhigh, Collation.compare?_self] at hlt
        cases hlt
      rw [h [] c rest rfl hrange]
      rfl
    · rfl

/-! ## Keys in a range of keys -/

/-- A key is in a range of keys if its place is between those of the bounds. -/
theorem covers_keyRange {values vs : List Value}
    (hvalues : ∀ c ∈ values, (lowBound c).isJson = true ∧ (highBound c).isJson = true)
    (hvs : ∀ v ∈ vs, v.isJson = true) :
    Condition.covers (keyRange values) (.list vs) =
      Collation.between (.list (values.map fun c => Collation.placeOf (lowBound c)))
        (.list (values.map fun c => Collation.placeOf (highBound c)))
        (.list (vs.map Collation.placeOf)) := by
  have hlow : ∀ v ∈ values.map lowBound, v.isJson = true :=
    List.forall_mem_map.2 fun c hc => (hvalues c hc).1
  have hhigh : ∀ v ∈ values.map highBound, v.isJson = true :=
    List.forall_mem_map.2 fun c hc => (hvalues c hc).2
  rw [Condition.covers, keyRange, lowBound, highBound, Collation.placeOf_list hlow,
    Collation.placeOf_list hhigh, Collation.placeOf_list hvs, List.map_map, List.map_map]
  rfl

section
variable {α : Type} {condition value : α → Value} {before after : List α} {c : α}

/-- In a key between two others the first field that is not asked for by an exact value is between its
bounds. -/
theorem covers_of_between (hbefore : ∀ b ∈ before, Condition.isRange (condition b) = false)
    (h : Collation.between
      (.list ((before ++ c :: after).map fun a => Collation.placeOf (lowBound (condition a))))
      (.list ((before ++ c :: after).map fun a => Collation.placeOf (highBound (condition a))))
      (.list ((before ++ c :: after).map fun a => Collation.placeOf (value a))) = true) :
    Condition.covers (condition c) (value c) = true := by
  induction before with
  | nil => exact Collation.between_of_between_cons h
  | cons b before ih =>
    obtain ⟨hb, hbefore⟩ := List.forall_mem_cons.1 hbefore
    obtain ⟨hlow, hhigh⟩ := Condition.bounds_of_exact hb
    rw [List.cons_append, List.map_cons, List.map_cons, List.map_cons, hlow, hhigh] at h
    exact ih hbefore (Collation.between_tail (Collation.compare?_self _) h)

/-- In a key between two others all fields are between their bounds, if these are decisive. -/
theorem covers_of_isDecisive {l : List α} (hdecisive : isDecisive (l.map condition) = true)
    (h : Collation.between (.list (l.map fun a => Collation.placeOf (lowBound (condition a))))
      (.list (l.map fun a => Collation.placeOf (highBound (condition a))))
      (.list (l.map fun a => Collation.placeOf (value a))) = true) :
    ∀ a ∈ l, Condition.covers (condition a) (value a) = true := by
  induction l with
  | nil => exact nofun
  | cons a l ih =>
    rw [List.map_cons, List.map_cons, List.map_cons] at h
    have hfirst := Collation.between_of_between_cons h
    refine List.forall_mem_cons.2 ⟨hfirst, ?_⟩
    have hle := Collation.between_iff.1 hfirst
    rw [List.map_cons, isDecisive] at hdecisive
    rcases Collation.atMost_iff.1 (Collation.atMost_trans hle.1 hle.2) with hlt | heq
    · rw [hlt] at hdecisive
      have hnil : l = [] := by simpa using hdecisive
      rw [hnil]
      exact nofun
    · rw [heq] at hdecisive
      exact ih hdecisive (Collation.between_tail heq h)

/-- In a key that a query asks for, the fields up to the first range meet their conditions. Where the
conditions are decisive all fields do. -/
theorem holds_of_answersTo {l : List α}
    (hinterval : ∀ a ∈ l, Condition.isInterval (condition a) = true)
    (hjson : ∀ a ∈ l, (value a).isJson = true)
    (h : answersTo (l.map condition) (.list (l.map value)) = true) {c : α} (hc : c ∈ l)
    (hcase : (∃ before after, l = before ++ c :: after ∧
        ∀ b ∈ before, Condition.isRange (condition b) = false) ∨
      isDecisive (l.map condition) = true) :
    Condition.holds (condition c) (value c) = true := by
  rw [answersTo] at h
  split at h
  · have hbounds : ∀ c ∈ l.map condition, (lowBound c).isJson = true ∧ (highBound c).isJson = true :=
      List.forall_mem_map.2 fun a ha => Condition.isJson_bounds (hinterval a ha)
    rw [covers_keyRange hbounds (List.forall_mem_map.2 hjson), List.map_map, List.map_map,
      List.map_map] at h
    refine Condition.holds_of_covers (hinterval c hc) (hjson c hc) ?_
    rcases hcase with ⟨before, after, rfl, hbefore⟩ | hdecisive
    · exact covers_of_between hbefore h
    · exact covers_of_isDecisive hdecisive h c hc
  · next hany =>
    have hexact : ∀ a ∈ l, Condition.isRange (condition a) = false := by
      simpa [List.any_map] using hany
    rw [Value.equal_list_iff (List.forall_mem_map.2 fun a ha => ?_), List.forall₂_map_left_iff,
      List.forall₂_map_right_iff, List.forall₂_same] at h
    · rw [Condition.holds, hexact c hc]
      exact Value.coincides_of_equal (h c hc)
    · obtain ⟨hbound, -⟩ := Condition.isInterval_iff.1 (hinterval a ha)
      rwa [(Condition.bounds_of_exact (hexact a ha)).1] at hbound

end

/-! ## Keys that meet the range of keys only -/

/-- Is a value JSON and no object? Every such value comes before all objects. -/
def isBelowObjects : Value → Bool
  | .dict _ => false
  | v => v.isJson

theorem isJson_of_isBelowObjects {v : Value} (h : isBelowObjects v = true) : v.isJson = true := by
  cases v <;> first | exact h | cases h

theorem compare?_dict_nil {v : Value} (h : isBelowObjects v = true) :
    (Collation.placeOf v).compare? (Collation.placeOf (.dict [])) = some .lt := by
  have hjson := isJson_of_isBelowObjects h
  have hlt : (Collation.placeOf v).rank < (Collation.placeOf (.dict [])).rank := by
    rw [Collation.rank_placeOf hjson, Collation.rank_placeOf (show (Value.dict []).isJson = true
      from rfl)]
    cases v with
    | null | bool | int | float | str | list => simp [Collation.rankOf]
    | _ => cases h
  rw [Collation.compare?_of_rank_ne (Nat.ne_of_lt hlt), Nat.compare_eq_lt.2 hlt]

/-- An empty object meets no condition that asks for other values than objects. -/
theorem holds_dict_nil {c : Value} (h : isBelowObjects (highBound c) = true) :
    Condition.holds c (.dict []) = false := by
  rw [Condition.holds]
  split
  · have hgt : (Collation.placeOf (.dict [])).compare? (Collation.placeOf (highBound c)) =
        some .gt := by
      rw [Collation.compare?_swap, compare?_dict_nil h]
      rfl
    rw [Condition.covers, Collation.between, Bool.and_eq_false_iff]
    refine .inr (Bool.eq_false_iff.2 fun hle => ?_)
    rw [Collation.atMost_iff, hgt] at hle
    simp at hle
  · next hrange =>
    cases c with
    | null | bool | int | float | str | list => simp [Value.coincides, Value.equal, Value.agree]
    | range => exact absurd rfl hrange
    | _ => cases h

/-- Where conditions are not decisive there is a key in the range of keys one of whose fields does not
meet its condition. -/
theorem exists_between_of_not_isDecisive {values : List Value}
    (hlow : ∀ c ∈ values, isBelowObjects (lowBound c) = true)
    (hhigh : ∀ c ∈ values, isBelowObjects (highBound c) = true)
    (h : isDecisive values = false) : ∃ vs : List Value, vs.length = values.length ∧
      (∀ v ∈ vs, v.isJson = true) ∧
      Collation.between (.list (values.map fun c => Collation.placeOf (lowBound c)))
        (.list (values.map fun c => Collation.placeOf (highBound c)))
        (.list (vs.map Collation.placeOf)) = true ∧
      ∃ p ∈ values.zip vs, Condition.holds p.1 p.2 = false := by
  induction values with
  | nil => cases h
  | cons c rest ih =>
    obtain ⟨hlowc, hlow⟩ := List.forall_mem_cons.1 hlow
    obtain ⟨-, hhigh⟩ := List.forall_mem_cons.1 hhigh
    have hjson := isJson_of_isBelowObjects hlowc
    rw [isDecisive] at h
    split at h
    · next heq =>
      obtain ⟨vs, hlength, hvs, hbetween, p, hp, hfalse⟩ := ih hlow hhigh h
      refine ⟨lowBound c :: vs, by rw [List.length_cons, hlength, List.length_cons],
        List.forall_mem_cons.2 ⟨hjson, hvs⟩, Collation.between_cons ?_ hbetween,
        p, List.mem_cons_of_mem _ hp, hfalse⟩
      exact Collation.between_iff.2 ⟨Collation.atMost_self _, Collation.atMost_iff.2 (.inr heq)⟩
    · next hlt =>
      cases rest with
      | nil => cases h
      | cons second rest =>
        have hsecond := compare?_dict_nil (hlow second (List.mem_cons_self ..))
        refine ⟨lowBound c :: .dict [] :: rest.map fun _ => .null, by simp,
          List.forall_mem_cons.2 ⟨hjson, List.forall_mem_cons.2 ⟨rfl, by simp [Value.isJson]⟩⟩, ?_,
          (second, .dict []), by simp, holds_dict_nil (hhigh second (List.mem_cons_self ..))⟩
        simp only [List.map_cons, Collation.between_iff, Collation.atMost_cons]
        exact ⟨.inr ⟨Collation.compare?_self _, .inl hsecond⟩, .inl hlt⟩
    · cases h

/-- So there is a key that a query asks for, one of whose fields does not meet its condition. -/
theorem exists_key_of_not_isDecisive {values : List Value}
    (hinterval : ∀ c ∈ values, Condition.isInterval c = true)
    (hbelow : ∀ c ∈ values, isBelowObjects (lowBound c) = true ∧
      isBelowObjects (highBound c) = true) (h : isDecisive values = false) :
    ∃ vs : List Value, vs.length = values.length ∧ (∀ v ∈ vs, v.isJson = true) ∧
      answersTo values (.list vs) = true ∧
      ∃ p ∈ values.zip vs, Condition.holds p.1 p.2 = false := by
  obtain ⟨vs, hlength, hvs, hbetween, hviolated⟩ := exists_between_of_not_isDecisive
    (fun c hc => (hbelow c hc).1) (fun c hc => (hbelow c hc).2) h
  have hany : values.any Condition.isRange = true := by
    by_contra hnone
    rw [isDecisive_of_last fun before c after hsplit hrange => ?_] at h
    · cases h
    · exact absurd (List.any_eq_true.2 ⟨c, by simp [hsplit], hrange⟩) hnone
  refine ⟨vs, hlength, hvs, ?_, hviolated⟩
  rw [answersTo, if_pos hany, covers_keyRange (fun c hc => Condition.isJson_bounds (hinterval c hc)) hvs]
  exact hbetween

/-! ## The rows of a query -/

section
variable {m : Memory} {s : Setting} {e : EntityType} {o : Options} {conditions : Entries}
  {fields keyFields : List String}

/-- A range among the conditions asks for both bounds and for nothing else. -/
theorem get?_of_range {p : Profile} {values : List Value}
    (hany : values.any Condition.isRange = true) {base : Entries}
    (hbase : conditionParams p values = .ok base) (n : String) : base.get? n =
      if "startkey" = n then some (.list (values.map lowBound))
      else if "endkey" = n then some (.list (values.map highBound)) else none := by
  rw [conditionParams, if_pos hany] at hbase
  rw [← Except.ok.inj hbase, Entries.get?_cons_str, Entries.get?_cons_str]
  rfl

/-- With a range among the conditions the rows of the keys asked for are chosen. -/
theorem chosen_of_range (hm : m.HoldsJson) (ho : o.Plain) {p : Profile} {values : List Value}
    (hvalues : ∀ c ∈ values, (lowBound c).isJson = true ∧ (highBound c).isJson = true)
    (hany : values.any Condition.isRange = true) {base : Entries}
    (hbase : conditionParams p values = .ok base) :
    chosen (asked base o) (m.rows e keyFields) =
      (m.rows e keyFields).filter fun r => answersTo values r.key := by
  obtain ⟨hnamed, hnull, hdescending, -⟩ := restriction_of_conditionParams hbase
  have hasked := get?_asked_of_plain ho hnamed hnull hdescending
  simp only [get?_of_range hany hbase] at hasked
  have hnone {n : String} (hn : n ∉ boundNames) : (asked base o).get? n = none := by
    rw [hasked n, if_neg hn]
    simp only [boundNames, List.mem_cons, List.not_mem_nil, or_false, not_or] at hn
    rw [if_neg (Ne.symm hn.1), if_neg (Ne.symm hn.2)]
  have hlow : (Value.list (values.map lowBound)).isJson = true :=
    Value.allJson_iff.2 <| List.forall_mem_map.2 fun c hc => (hvalues c hc).1
  have hhigh : (Value.list (values.map highBound)).isJson = true :=
    Value.allJson_iff.2 <| List.forall_mem_map.2 fun c hc => (hvalues c hc).2
  have hascending : ((asked base o).getD "descending").truthy = false := by
    rw [Entries.getD, hnone (by decide)]; rfl
  rw [chosen, oneByOne, hnone (by decide), selection,
    Index.select_between (hnone (by decide)) (hnone (by decide)) hascending (hasked "startkey")
      (hasked "endkey") hlow hhigh]
  refine List.filter_congr fun r hr => ?_
  rw [answersTo, if_pos hany, hm.place_eq_of_mem_rows hr]
  rfl

/-- Without conditions the parameters are those of the window. -/
theorem exists_searchValues_of_none {p : Profile} (ho : o.Plain) (hc : o.conditions = .dict []) :
    (∃ params, searchValues p o = .ok params ∧ ∀ k, params.get? k =
      ((windowParams p o).get? k).or (Entries.get? [] k)) ∧
    Restriction p [] ∧ Index.Selectable [] := by
  have hbase : conditionParams p (sortedValues []) = .ok [] := rfl
  have hasked : asked [] o = [] := by
    rw [asked, withBounds, ho.startkey, ho.endkey, ho.descending]
    rfl
  have hparams := exists_searchValues_asked ho.extra hc hbase .nil
  have hsel := selectable_asked hbase (List.forall_mem_nil _) (.inl (by rw [ho.startkey]; rfl))
    (.inl (by rw [ho.endkey]; rfl))
  have hr := restriction_asked hbase o
  rw [hasked] at hparams hsel hr
  exact ⟨hparams, hr, hsel⟩

/-- A query without conditions comes to the window of all rows. -/
theorem find_ends_of_none (h : Answerable m s e o fields keyFields) (ho : o.Plain)
    (hc : o.conditions = .dict []) (hw : o.HasWindow) :
    ∃ q total after, find e s.profile o = .ok q ∧
      (q.execute s).Ends m (.ok (Window.response total o.skip ((Window.cut o.skip o.limit?
        (m.rows e keyFields)).map Row.toValue))) after := by
  obtain ⟨⟨params, hparams, hget⟩, hr, hsel⟩ := exists_searchValues_of_none ho hc
  have hends := find_ends_of_restriction h hparams hget hr hsel hw
  rwa [chosen_nil] at hends

/-- A query with a range among its conditions comes to the window of the rows of the keys asked for. -/
theorem find_ends_of_range (h : Answerable m s e o fields keyFields) (ho : o.Plain)
    (hc : o.conditions = .dict conditions)
    (hbounds : ∀ c ∈ conditions, (lowBound c.2).isJson = true ∧ (highBound c.2).isJson = true)
    (hrange : ∃ c ∈ conditions, Condition.isRange c.2 = true) (hw : o.HasWindow) :
    ∃ q total after, find e s.profile o = .ok q ∧
      (q.execute s).Ends m (.ok (Window.response total o.skip ((Window.cut o.skip o.limit?
        ((m.rows e keyFields).filter fun r => answersTo (sortedValues conditions) r.key)).map
          Row.toValue))) after := by
  have hvalues : ∀ v ∈ sortedValues conditions, (lowBound v).isJson = true ∧
      (highBound v).isJson = true := forall_mem_sortedValues.2 hbounds
  have hany : (sortedValues conditions).any Condition.isRange = true := by
    obtain ⟨c, hcmem, hc⟩ := hrange
    exact List.any_eq_true.2 ⟨c.2, mem_sortedValues.2 ⟨c, hcmem, rfl⟩, hc⟩
  obtain ⟨base, hbase, -⟩ := exists_conditionParams s.profile (sortedValues conditions)
  obtain ⟨hnamed, -⟩ := restriction_of_conditionParams hbase
  obtain ⟨params, hparams, hget⟩ := exists_searchValues_asked ho.extra hc hbase hnamed
  have hsel := selectable_asked hbase hvalues (.inl (by rw [ho.startkey]; rfl))
    (.inl (by rw [ho.endkey]; rfl))
  rw [← chosen_of_range h.json ho hvalues hany hbase]
  exact find_ends_of_restriction h hparams hget (restriction_asked hbase o) hsel hw

/-- A query for exact values and ranges comes to the window of the rows of the keys asked for. -/
theorem find_ends_of_intervals (h : Answerable m s e o fields keyFields) (ho : o.Plain)
    (hc : o.conditions = .dict conditions)
    (hinterval : ∀ c ∈ conditions, Condition.isInterval c.2 = true) (hw : o.HasWindow)
    (hne : conditions ≠ []) : ∃ q total after, find e s.profile o = .ok q ∧
      (q.execute s).Ends m (.ok (Window.response total o.skip ((Window.cut o.skip o.limit?
        ((m.rows e keyFields).filter fun r => answersTo (sortedValues conditions) r.key)).map
          Row.toValue))) after := by
  by_cases hrange : ∃ c ∈ conditions, Condition.isRange c.2 = true
  · exact find_ends_of_range h ho hc (fun c hc => Condition.isJson_bounds (hinterval c hc)) hrange hw
  · have hnone : ∀ c ∈ conditions, Condition.isRange c.2 = false := fun c hcmem =>
      Bool.eq_false_iff.2 fun hc => hrange ⟨c, hcmem, hc⟩
    have hexact : ∀ c ∈ conditions, Condition.isDiscrete c.2 = false := fun c hc =>
      (Condition.isInterval_iff.1 (hinterval c hc)).2.2
    have hany : (sortedValues conditions).any Condition.isRange = false := by
      rw [← forall_mem_sortedValues (p := fun v => Condition.isRange v = false)] at hnone
      simpa using hnone
    have hrows : (fun r : Row => answersTo (sortedValues conditions) r.key) =
        fun r => r.key.equal (.list (sortedValues conditions)) := by
      funext r
      rw [answersTo, hany, if_neg Bool.false_ne_true]
    rw [hrows]
    exact find_ends_of_exact h ho hc hnone hw hne hexact

end

end Query

end ViewFinder
