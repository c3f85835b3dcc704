import ViewFinder.Proofs.Finder

/-!
# Conditions that no document meets

A set of acceptable values that is empty leaves no combination, so that no key is asked for. A store
that takes several keys in one request then finds nothing. A store that is asked for one key at a
time is not asked for any: no key restricts the rows, and all documents of the type are found. What
is found, counted and told is right just where it takes several keys, or has no document of the type
(`empty_set_iff`).
-/

namespace ViewFinder

open Store

namespace Query

/-- There is no combination where there is nothing to choose from. -/
theorem combinations_eq_nil {α : Type} {options : List (List α)} (h : [] ∈ options) :
    combinations options = [] := by
  induction options with
  | nil => cases h
  | cons some rest ih =>
    rw [combinations]
    rcases List.mem_cons.1 h with rfl | h
    · rfl
    · rw [ih h]
      simp

/-- An empty set of acceptable values leaves no key. -/
theorem expandKeys_eq_nil {values : List Value}
    (hempty : ∃ v ∈ values, Condition.isDiscrete v = true ∧ Condition.members v = .ok []) :
    expandKeys values = .ok [] := by
  obtain ⟨v, hv, hdiscrete, hmembers⟩ := hempty
  have hchoices := Fault.mapM_eq_ok fun v (_ : v ∈ values) => choices_eq_ok v
  have hnone : choices v = .ok [] := by rw [choices, if_pos hdiscrete, hmembers]
  have hmem : [] ∈ values.map fun v => (choices v).toOption.getD [] :=
    List.mem_map.2 ⟨v, hv, by rw [hnone]; rfl⟩
  rw [expandKeys, hchoices]
  simp only [bind, Except.bind, combinations_eq_nil hmem]
  rfl

/-- Without keys nothing is selected on a store that takes several, and all rows on one that does
not. -/
theorem selected_nil_iff {p : Profile} {rows : List Row} :
    selected p rows [] = [] ↔ p.multiKey = true ∨ rows = [] := by
  rw [selected]
  cases p.multiKey <;> simp [Index.withKeys]

end Query

/-- The names in conditions allow of a view: its path leads to it, and its map function can be read.
-/
def Query.Addressable (e : EntityType) (conditions : Entries) : Prop :=
  ∃ (fields : List String) (source : String) (emission : Emission),
    searchFields e { conditions := .dict conditions } = .ok fields ∧
      mapFunction e fields = .ok source ∧ (∀ f ∈ fields, '/' ∉ f.toList) ∧
        Emission.ofSource (.str source) = .ok emission

/-- Names that hold neither slash nor line break allow of a view. -/
theorem Query.addressable_of_clear {e : EntityType} (he : e.HasIdentifiers) {conditions : Entries}
    (hclear : ∀ c ∈ conditions, '/' ∉ c.1.text.toList ∧ '\n' ∉ c.1.text.toList) :
    Query.Addressable e conditions := by
  have hgiven : givenNames { conditions := .dict conditions } = .ok (conditions.map (·.1)) := rfl
  obtain ⟨fields, source, keyFields, hsearched, hsource, hread, hslashless⟩ :=
    exists_readable he.isTagged hgiven (List.forall_mem_map.2 hclear)
  exact ⟨fields, source, _, hsearched, hsource, hslashless, hread⟩

/-- The views that queries for conditions go through are there, or can be registered. -/
def Registry.AdmitsConditions (m : Memory) (designName : String) (p : Profile) (e : EntityType)
    (conditions : Entries) : Prop :=
  ∀ fields source, Query.searchFields e { conditions := .dict conditions } = .ok fields →
    Query.mapFunction e fields = .ok source →
      ∀ operation ∈ [Query.findPrefix, Query.countOperation p], Registry.Admits m designName
        ⟨.str (Query.viewName fields operation), .str source, Query.reduceSource p⟩

section
variable {m : Memory} {e : EntityType} {designName : String} {conditions : Entries} {p : Profile}
  {allowAdHoc : Bool} {fields keyFields : List String}

/-- Queries for nothing but conditions can be answered, if the names allow of a view. -/
theorem exists_answerable_conditions (hm : m.HoldsJson) (he : e.HasIdentifiers)
    (hdesign : e.designName = .ok designName) (haddressable : Query.Addressable e conditions)
    (hadmits : Registry.AdmitsConditions m designName p e conditions) (allowAdHoc : Bool) :
    ∃ fields keyFields, Query.Answerable m (Database.finderOf e designName p allowAdHoc).setting e
      { conditions := .dict conditions } fields keyFields := by
  obtain ⟨fields, source, emission, hsearched, hsource, hslashless, hread⟩ := haddressable
  obtain ⟨keyFields, rfl⟩ := Query.eq_emission_of_ofSource he.isTagged hsource hread
  exact ⟨fields, keyFields, hm, he, hdesign, hsearched, fun hslow => Bool.noConfusion hslow,
    fun _ => hslashless, source, hsource, hread, fun _ => hadmits fields source hsearched hsource⟩

theorem exists_discrete_and_keys
    (hempty : ∃ c ∈ conditions, Condition.isDiscrete c.2 = true ∧ Condition.members c.2 = .ok []) :
    (∃ c ∈ conditions, Condition.isDiscrete c.2 = true) ∧
      Query.expandKeys (Query.sortedValues conditions) = .ok [] := by
  obtain ⟨c, hcmem, hdiscrete, hmembers⟩ := hempty
  exact ⟨⟨c, hcmem, hdiscrete⟩, Query.expandKeys_eq_nil
    ⟨c.2, Query.mem_sortedValues.2 ⟨c, hcmem, rfl⟩, hdiscrete, hmembers⟩⟩

/-- Without a design document finding fails, if the names do not allow of a view. -/
theorem outcome_find_unaddressable (he : e.HasIdentifiers) (hdesign : e.designName = .ok designName)
    (habsent : m.documents.get? (Registry.designId designName) = none)
    (hnot : ¬ Query.Addressable e conditions)
    (hrange : ∀ c ∈ conditions, Condition.isRange c.2 = false)
    (hempty : ∃ c ∈ conditions, Condition.isDiscrete c.2 = true ∧ Condition.members c.2 = .ok []) :
    (m.outcome p allowAdHoc e
      (·.find (.dict [(.str "conditions", .dict conditions)]))).toOption = none := by
  obtain ⟨hdiscrete, hkeys⟩ := exists_discrete_and_keys hempty
  have hgiven : Query.givenNames { conditions := .dict conditions } =
      .ok (conditions.map (·.1)) := rfl
  obtain ⟨fields, hsearched, -, -⟩ := Query.exists_searchFields e hgiven
  obtain ⟨source, -, -, hsource, -⟩ := Query.exists_mapFunction he.isTagged fields
  obtain ⟨q, hq, hfails⟩ := Query.find_fails
    (s := (Database.finderOf e designName p allowAdHoc).setting) he hdesign habsent hsource
    hsearched (fun h => hnot ⟨fields, source, _, hsearched, hsource, h.slashless rfl,
      h.readable.choose_spec⟩)
    (Options.plain_conditions _ _ _) (Options.hasWindow_conditions _) rfl hrange hdiscrete hkeys
  exact Dialogue.Fails.toOption_outcome hdesign
    (Dialogue.fails_lift (Options.ofValue_conditions conditions)
      (Dialogue.fails_lift hq hfails.bind))

variable (h : Query.Answerable m (Database.finderOf e designName p allowAdHoc).setting e
    { conditions := .dict conditions } fields keyFields)
  (hrange : ∀ c ∈ conditions, Condition.isRange c.2 = false)
  (hempty : ∃ c ∈ conditions, Condition.isDiscrete c.2 = true ∧ Condition.members c.2 = .ok [])
include h hrange hempty

/-- Counting by conditions of which one is an empty set comes to the number of rows that no key
selects. -/
theorem outcome_count_empty :
    m.outcome p allowAdHoc e (·.count (.dict [(.str "conditions", .dict conditions)])) =
      .ok (.int (Query.selected p (m.rows e keyFields) []).length) := by
  obtain ⟨hdiscrete, hkeys⟩ := exists_discrete_and_keys hempty
  obtain ⟨q, response, after, hq, hends, hn⟩ := Query.count_ends_of_keys h
    (Options.plain_conditions _ _ _) rfl hrange rfl rfl hdiscrete hkeys List.nodup_nil
  exact (Finder.count_conditions_ends hq hends hn).outcome_eq h.designName

/-- Where no key selects nothing, nothing is found. -/
theorem outcome_find_empty (hnone : Query.selected p (m.rows e keyFields) [] = []) :
    m.outcome p allowAdHoc e (·.find (.dict [(.str "conditions", .dict conditions)])) =
      .ok (.records []) := by
  obtain ⟨hdiscrete, hkeys⟩ := exists_discrete_and_keys hempty
  obtain ⟨q, total, after, hq, hends⟩ := Query.find_ends_of_keys h
    (Options.plain_conditions _ _ _) rfl hrange (Options.hasWindow_conditions _) hdiscrete hkeys
    List.nodup_nil
  rw [show Query.selected (Database.finderOf e designName p allowAdHoc).setting.profile
    (m.rows e keyFields) [] = [] from hnone, Window.cut_nil, List.map_nil] at hends
  rw [(Finder.find_conditions_ends hq hends).outcome_eq h.designName]
  exact EntityType.materialize_nil total _ e

/-- Where no key selects nothing, there is no document. -/
theorem outcome_exists_empty (hnone : Query.selected p (m.rows e keyFields) [] = []) :
    m.outcome p allowAdHoc e (·.exists (.dict conditions)) = .ok false := by
  obtain ⟨hdiscrete, hkeys⟩ := exists_discrete_and_keys hempty
  obtain ⟨q, total, after, hq, hends⟩ := Query.find_ends_of_keys (h.window (.int 1) .null)
    (Options.plain_conditions _ _ _) rfl hrange ⟨.inr ⟨1, rfl⟩, .inl rfl⟩ hdiscrete hkeys
    List.nodup_nil
  rw [show Query.selected (Database.finderOf e designName p allowAdHoc).setting.profile
    (m.rows e keyFields) [] = [] from hnone, Window.cut_nil, List.map_nil] at hends
  exact (Finder.exists_conditions_ends hq hends (EntityType.materialize_nil total _ e)).outcome_eq
    h.designName

end

/-- Without a design document every view can be registered. -/
theorem Registry.admitsConditions_of_absent {m : Memory} {designName : String}
    (h : m.documents.get? (Registry.designId designName) = none) (p : Profile) (e : EntityType)
    (conditions : Entries) : Registry.AdmitsConditions m designName p e conditions :=
  fun _ _ _ _ _ _ => .absent _ rfl h

/-- Conditions of which one is an empty set select nothing if and only if their names allow of a
view and the store takes several keys in one request, or has no document of the type. The design
document is absent, or has views for the conditions, or can have them. -/
theorem empty_set_iff {m : Memory} {e : EntityType} {designName : String} {conditions : Entries}
    (p : Profile) (allowAdHoc : Bool) (hm : m.HoldsJson) (he : e.HasIdentifiers)
    (hdesign : e.designName = .ok designName)
    (hadmits : m.documents.get? (Registry.designId designName) = none ∨
      Query.Addressable e conditions ∧ Registry.AdmitsConditions m designName p e conditions)
    (hrange : ∀ c ∈ conditions, Condition.isRange c.2 = false)
    (hempty : ∃ c ∈ conditions, Condition.isDiscrete c.2 = true ∧
      Condition.members c.2 = .ok []) :
    (m.outcome p allowAdHoc e (·.find (.dict [(.str "conditions", .dict conditions)])) =
          .ok (.records []) ∧
        m.outcome p allowAdHoc e (·.count (.dict [(.str "conditions", .dict conditions)])) =
          .ok (.int 0) ∧
        m.outcome p allowAdHoc e (·.exists (.dict conditions)) = .ok false) ↔
      Query.Addressable e conditions ∧ (p.multiKey = true ∨ m.documentsOf e = []) := by
  by_cases haddressable : Query.Addressable e conditions
  · have hviews : Registry.AdmitsConditions m designName p e conditions :=
      hadmits.elim (fun h => Registry.admitsConditions_of_absent h p e conditions) (·.2)
    obtain ⟨fields, keyFields, h⟩ :=
      exists_answerable_conditions hm he hdesign haddressable hviews allowAdHoc
    have hrows : m.rows e keyFields = [] ↔ m.documentsOf e = [] := by
      rw [← List.length_eq_zero_iff, (hm.rows_perm e keyFields).length_eq, List.length_map,
        List.length_eq_zero_iff]
    rw [and_iff_right haddressable, ← hrows, ← Query.selected_nil_iff]
    constructor
    · rintro ⟨-, hcount, -⟩
      rw [outcome_count_empty h hrange hempty] at hcount
      simpa using hcount
    · intro hnone
      refine ⟨outcome_find_empty h hrange hempty hnone, ?_,
        outcome_exists_empty h hrange hempty hnone⟩
      rw [outcome_count_empty h hrange hempty, hnone]
      rfl
  · have habsent : m.documents.get? (Registry.designId designName) = none :=
      hadmits.resolve_right fun h => haddressable h.1
    refine iff_of_false ?_ fun h => haddressable h.1
    rintro ⟨hfind, -, -⟩
    have hfails : (m.outcome p allowAdHoc e
        (·.find (.dict [(.str "conditions", .dict conditions)]))).toOption = none :=
      outcome_find_unaddressable he hdesign habsent haddressable hrange hempty
    rw [hfind] at hfails
    cases hfails

theorem addressable_person : Query.Addressable person [(.str "grade", .list [])] :=
  Query.addressable_of_clear hasIdentifiers_person (by decide)

/-- On a store that takes several keys nobody is of no grade. -/
theorem empty_set_people :
    people.outcome ⟨{ minor := 9 }⟩ true person (·.find (.dict [(.str "conditions",
        .dict [(.str "grade", .list [])])])) = .ok (.records []) ∧
      people.outcome ⟨{ minor := 9 }⟩ true person (·.count (.dict [(.str "conditions",
        .dict [(.str "grade", .list [])])])) = .ok (.int 0) ∧
      people.outcome ⟨{ minor := 9 }⟩ true person (·.exists (.dict [(.str "grade", .list [])])) =
        .ok false :=
  (empty_set_iff ⟨{ minor := 9 }⟩ true holdsJson_people hasIdentifiers_person rfl
    (.inl (by decide +kernel)) (by decide) ⟨_, List.mem_cons_self .., rfl, rfl⟩).2
      ⟨addressable_person, .inl (by decide)⟩

/-- On a store that is asked for one key at a time all three people are counted. -/
theorem empty_set_people_old :
    people.outcome ⟨{ minor := 8, patch := 1 }⟩ true person (·.count (.dict [(.str "conditions",
        .dict [(.str "grade", .list [])])])) = .ok (.int 3) ∧
      ¬ (people.outcome ⟨{ minor := 8, patch := 1 }⟩ true person (·.find (.dict [(.str "conditions",
          .dict [(.str "grade", .list [])])])) = .ok (.records []) ∧
        people.outcome ⟨{ minor := 8, patch := 1 }⟩ true person (·.count (.dict [(.str "conditions",
          .dict [(.str "grade", .list [])])])) = .ok (.int 0) ∧
        people.outcome ⟨{ minor := 8, patch := 1 }⟩ true person
          (·.exists (.dict [(.str "grade", .list [])])) = .ok false) := by
  obtain ⟨fields, keyFields, h⟩ := exists_answerable_conditions holdsJson_people
    hasIdentifiers_person rfl addressable_person
    (Registry.admitsConditions_of_absent (by decide +kernel) ⟨{ minor := 8, patch := 1 }⟩ _ _) true
  have hthree : (people.documentsOf person).length = 3 := by decide +kernel
  have hcount := outcome_count_empty h (by decide) ⟨_, List.mem_cons_self .., rfl, rfl⟩
  rw [Query.selected, if_pos ⟨by decide, rfl⟩, (holdsJson_people.rows_perm person _).length_eq,
    List.length_map, hthree] at hcount
  refine ⟨hcount, ?_⟩
  rintro ⟨-, hzero, -⟩
  rw [hcount] at hzero
  cases hzero

end ViewFinder
