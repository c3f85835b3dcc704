import ViewFinder.Proofs.FindRange

/-!
# Finding all that is in a range

With a range among its conditions a query asks for the keys between that of the lower bounds and that
of the upper bounds. A key whose fields are all between their bounds is between these keys
(`Query.answersTo_of_covers`), so no document that meets the conditions is missed, whichever fields
the ranges are on (`find_within`). The documents come in ascending order of their keys. Where the only
range is on the last field nothing else is found.
-/

namespace ViewFinder

open Store

/-! ## Keys all of whose fields are in range -/

namespace Query

section
variable {α : Type} {condition value : α → Value} {l : List α}

/-- A list is between two others if each item is between the items at its place. -/
theorem between_of_covers (h : ∀ a ∈ l, Condition.covers (condition a) (value a) = true) :
    Collation.between (.list (l.map fun a => Collation.placeOf (lowBound (condition a))))
      (.list (l.map fun a => Collation.placeOf (highBound (condition a))))
      (.list (l.map fun a => Collation.placeOf (value a))) = true := by
  induction l with
  | nil => rfl
  | cons a l ih =>
    obtain ⟨hfirst, hrest⟩ := List.forall_mem_cons.1 h
    rw [List.map_cons, List.map_cons, List.map_cons]
    exact Collation.between_cons hfirst (ih hrest)

variable (hany : ∃ a ∈ l, Condition.isRange (condition a) = true)
  (hbounds : ∀ a ∈ l, (lowBound (condition a)).isJson = true ∧
    (highBound (condition a)).isJson = true) (hjson : ∀ a ∈ l, (value a).isJson = true)
include hany hbounds hjson

/-- With a range among the conditions a query asks for the keys between those of the bounds. -/
theorem answersTo_eq_between : answersTo (l.map condition) (.list (l.map value)) =
    Collation.between (.list (l.map fun a => Collation.placeOf (lowBound (condition a))))
      (.list (l.map fun a => Collation.placeOf (highBound (condition a))))
      (.list (l.map fun a => Collation.placeOf (value a))) := by
  obtain ⟨a, ha, hrange⟩ := hany
  have hsome : (l.map condition).any Condition.isRange = true :=
    List.any_eq_true.2 ⟨condition a, List.mem_map_of_mem ha, hrange⟩
  rw [answersTo, if_pos hsome,
    covers_keyRange (List.forall_mem_map.2 hbounds) (List.forall_mem_map.2 hjson), List.map_map,
    List.map_map, List.map_map]
  rfl

/-- A query asks for every key whose fields are all between the bounds of their conditions. -/
theorem answersTo_of_covers (h : ∀ a ∈ l, Condition.covers (condition a) (value a) = true) :
    answersTo (l.map condition) (.list (l.map value)) = true := by
  rw [answersTo_eq_between hany hbounds hjson]
  exact between_of_covers h

/-- Where ranges stand last it asks for no others. -/
theorem answersTo_iff_of_last
    (hlast : ∀ before c after, l = before ++ c :: after →
      Condition.isRange (condition c) = true → after = []) :
    answersTo (l.map condition) (.list (l.map value)) = true ↔
      ∀ a ∈ l, Condition.covers (condition a) (value a) = true := by
  refine ⟨fun h => ?_, answersTo_of_covers hany hbounds hjson⟩
  rw [answersTo_eq_between hany hbounds hjson] at h
  refine covers_of_isDecisive (isDecisive_of_last fun before c after hsplit hrange => ?_) h
  obtain ⟨front, back, rfl, rfl, hback⟩ := List.map_eq_append_iff.1 hsplit
  obtain ⟨a, rest, rfl, rfl, rfl⟩ := List.map_eq_cons_iff.1 hback
  rw [hlast front a rest rfl hrange, List.map_nil]

end

end Query

/-! ## The documents of a range of keys -/

namespace Query

variable {conditions : Entries}

/-- What conditions have in common they have in the order of their fields too. -/
theorem forall_mem_sortedConditions {p : String × Value → Prop} :
    (∀ c ∈ sortedConditions conditions, p c) ↔
      ∀ c ∈ conditions, p (Name.normalizeField c.1.text, c.2) := by
  simp only [(sortedConditions_perm conditions).mem_iff, List.forall_mem_map]

theorem exists_mem_sortedConditions {p : String × Value → Prop} :
    (∃ c ∈ sortedConditions conditions, p c) ↔
      ∃ c ∈ conditions, p (Name.normalizeField c.1.text, c.2) := by
  simp only [(sortedConditions_perm conditions).mem_iff, List.mem_map]
  constructor
  · rintro ⟨_, ⟨c, hc, rfl⟩, hp⟩
    exact ⟨c, hc, hp⟩
  · rintro ⟨c, hc, hp⟩
    exact ⟨_, ⟨c, hc, rfl⟩, hp⟩

end Query

namespace Condition

/-- Is every field of a document between the bounds of its condition, ends included? An exact value is
both its bounds. -/
def within (conditions : Entries) (d : String × Entries) : Bool :=
  conditions.all fun c => covers c.2 (d.2.getD (Name.normalizeField c.1.text))

theorem within_iff_sorted {conditions : Entries} {d : String × Entries} :
    within conditions d = true ↔
      ∀ c ∈ Query.sortedConditions conditions, covers c.2 (d.2.getD c.1) = true := by
  rw [Query.forall_mem_sortedConditions (p := fun c => covers c.2 (d.2.getD c.1) = true), within,
    List.all_eq_true]

end Condition

/-- The documents of a type whose keys a query for conditions asks for, in the order of the index. -/
def Store.Memory.selected (m : Memory) (e : EntityType) (conditions : Entries) :
    List (String × Entries) :=
  ((m.rows e (Query.sortedNames conditions)).filter fun r =>
    Query.answersTo (Query.sortedValues conditions) r.key).map Row.toDocument

section
variable {m : Memory} {e : EntityType} {designName : String} {conditions : Entries}

/-- The key of a document. -/
theorem Store.Row.key_ofDocument (d : String × Entries) :
    (Row.ofDocument (Query.sortedNames conditions) d).key =
      .list ((Query.sortedConditions conditions).map fun c => d.2.getD c.1) := by
  rw [Row.ofDocument, Query.sortedNames, List.map_map]
  rfl

section
variable (hm : m.HoldsJson)
include hm

/-- These are the documents of the type whose keys are asked for. -/
theorem Store.Memory.HoldsJson.selected_perm (e : EntityType) (conditions : Entries) :
    (m.selected e conditions).Perm
      ((m.documentsOf e).filter (Condition.selects (Query.sortedConditions conditions))) := by
  refine (hm.filter_toDocument_perm e _ _).trans (.of_eq (List.filter_congr fun d _ => ?_))
  rw [Row.key_ofDocument]
  rfl

/-- They come in ascending order of their keys. -/
theorem Store.Memory.HoldsJson.pairwise_selected : (m.selected e conditions).Pairwise fun d d' =>
    (Collation.placeOf (.list ((Query.sortedConditions conditions).map fun c =>
      d.2.getD c.1))).atMost
        (Collation.placeOf (.list ((Query.sortedConditions conditions).map fun c =>
          d'.2.getD c.1))) = true := by
  have hrows := (hm.pairwise_rows e (Query.sortedNames conditions)).filter fun r =>
    Query.answersTo (Query.sortedValues conditions) r.key
  refine List.pairwise_map.2 (hrows.imp_of_mem fun {r s} hr hs hrs => ?_)
  replace hr := List.mem_of_mem_filter hr
  replace hs := List.mem_of_mem_filter hs
  rw [hm.place_eq_of_mem_rows hr, hm.place_eq_of_mem_rows hs] at hrs
  obtain ⟨d, -, rfl⟩ := hm.exists_of_mem_rows hr
  obtain ⟨d', -, rfl⟩ := hm.exists_of_mem_rows hs
  rw [Row.key_ofDocument, Row.key_ofDocument] at hrs
  exact hrs

variable (he : e.HasIdentifiers) (hdesign : e.designName = .ok designName)
  (habsent : m.documents.get? (Registry.designId designName) = none)
  (hnames : ∀ c ∈ conditions, c.1.isIdentifier = true)
  (hdistinct : (conditions.map fun c => Name.normalizeField c.1.text).Nodup)
  (hbounds : ∀ c ∈ conditions, (Query.lowBound c.2).isJson = true ∧
    (Query.highBound c.2).isJson = true)
  (hrange : ∃ c ∈ conditions, Condition.isRange c.2 = true)
include he hdesign habsent hnames hdistinct hbounds hrange

/-- A query with a range among its conditions is answered with the rows of the keys asked for. -/
theorem outcome_of_range (p : Profile) (allowAdHoc : Bool) : ∃ total,
    m.outcome p allowAdHoc e (·.find (.dict [(.str "conditions", .dict conditions)])) =
      e.materialize (Window.response total 0 (((m.rows e (Query.sortedNames conditions)).filter
        fun r => Query.answersTo (Query.sortedValues conditions) r.key).map Row.toValue))
          (.bool false) (.bool false) .null := by
  have hne : conditions ≠ [] := by
    obtain ⟨c, hc, -⟩ := hrange
    exact List.ne_nil_of_mem hc
  have hanswerable := Query.answerable_conditions hnames hdistinct
    (s := (Database.finderOf e designName p allowAdHoc).setting) hm he hdesign habsent hne
  obtain ⟨q, total, after, hq, hends⟩ := Query.find_ends_of_range hanswerable
    (Options.plain_conditions _ _ _) rfl hbounds hrange (Options.hasWindow_conditions _)
  rw [Window.cut_conditions] at hends
  exact ⟨total, (Finder.find_conditions_ends hq hends).outcome_eq hdesign⟩

/-- So it finds the documents selected. -/
theorem yields_selected (p : Profile) (allowAdHoc : Bool) :
    e.Yields (m.outcome p allowAdHoc e (·.find (.dict [(.str "conditions", .dict conditions)])))
      (m.selected e conditions) := by
  obtain ⟨total, houtcome⟩ :=
    outcome_of_range hm he hdesign habsent hnames hdistinct hbounds hrange p allowAdHoc
  rw [houtcome]
  exact EntityType.yields_materialize total 0 fun r hr =>
    hm.exists_dict_of_mem_rows (List.mem_of_mem_filter hr)

/-- Without a sort field it finds them in the order of the index. -/
theorem outcome_eq_selected (hfactory : e.factory = .document)
    (hsort : e.defaultSort.truthy = false) (p : Profile) (allowAdHoc : Bool) :
    m.outcome p allowAdHoc e (·.find (.dict [(.str "conditions", .dict conditions)])) =
      .ok (.records ((m.selected e conditions).map e.recordOf)) := by
  obtain ⟨total, houtcome⟩ :=
    outcome_of_range hm he hdesign habsent hnames hdistinct hbounds hrange p allowAdHoc
  have hdicts : ∀ r ∈ (m.rows e (Query.sortedNames conditions)).filter
      (fun r => Query.answersTo (Query.sortedValues conditions) r.key),
        ∃ es, r.document = .dict es := fun r hr =>
    (hm.exists_dict_of_mem_rows (List.mem_of_mem_filter hr)).imp fun _ => And.left
  rw [houtcome]
  exact EntityType.materialize_default (EntityType.records_response total 0 hfactory hdicts) hsort

end

end

end ViewFinder
