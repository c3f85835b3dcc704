import ViewFinder.Proofs.Finder

/-!
# Finding by conditions

A query for conditions on identifiers, each an atom or a list of atoms, finds the documents of the
type that meet the conditions, all of them and no other, each once (`find_conditions_perm`). Those
come first whose fields have the earlier places among the values that the conditions accept.
-/

namespace ViewFinder

open Store

namespace Condition

/-- Does a document meet conditions: is the value of each field one that its condition accepts? -/
def meets (conditions : Entries) (d : String × Entries) : Bool :=
  conditions.all fun c => accepts c.2 (d.2.getD (Name.normalizeField c.1.text))

end Condition

namespace Query

section
variable {conditions : Entries} (hnames : ∀ c ∈ conditions, c.1.isIdentifier = true)
  (hdistinct : (conditions.map fun c => Name.normalizeField c.1.text).Nodup)

/-- The stored names of the conditions, in order. -/
def sortedNames (conditions : Entries) : List String := (sortedConditions conditions).map (·.1)

include hnames in
theorem isIdentifier_of_mem_normalized {c : String × Value}
    (hc : c ∈ conditions.map fun c => (Name.normalizeField c.1.text, c.2)) :
    Name.isIdentifier c.1 = true := by
  obtain ⟨c, hcmem, rfl⟩ := List.mem_map.1 hc
  obtain ⟨name, hname, hid⟩ := Value.exists_of_isIdentifier (hnames c hcmem)
  rw [hname]
  exact Name.isIdentifier_normalizeField hid

theorem sortedNames_ne_nil (hne : conditions ≠ []) : sortedNames conditions ≠ [] := by
  have hperm := sortedConditions_perm conditions
  intro hnil
  rw [sortedNames, List.map_eq_nil_iff] at hnil
  rw [hnil, List.nil_perm, List.map_eq_nil_iff] at hperm
  exact hne hperm

include hnames

theorem isIdentifier_of_mem_sortedNames :
    ∀ f ∈ sortedNames conditions, Name.isIdentifier f = true := by
  rw [sortedNames, List.forall_mem_map]
  intro c hc
  exact isIdentifier_of_mem_normalized hnames ((sortedConditions_perm conditions).mem_iff.1 hc)

include hdistinct

/-- The key of a query for conditions on distinct fields is made up of these fields, in order. -/
theorem searchFields_conditions (e : EntityType) (hne : conditions ≠ []) {o : Options}
    (hkey : o.useKey.truthy = false) (hc : o.conditions = .dict conditions) :
    searchFields e o = .ok (sortedNames conditions) := by
  have hgiven : givenNames o = .ok (conditions.map (·.1)) := by
    rw [givenNames, hkey, hc]
    rfl
  have hsorted := sortNames_eq (fun c => isIdentifier_of_mem_normalized hnames)
    (by rwa [List.map_map])
  rw [searchFields_eq e hgiven (by simpa using hne), List.map_map, sortedNames, sortedConditions,
    ← hsorted, List.map_map]
  rfl

/-- Where there is no design document a query for nothing but conditions can be answered, through the
index of their fields, in order. -/
theorem answerable_conditions {m : Memory} {s : Setting} {e : EntityType} (hm : m.HoldsJson)
    (he : e.HasIdentifiers) (hdesign : e.designName = .ok s.designName)
    (habsent : m.documents.get? (Registry.designId s.designName) = none) (hne : conditions ≠ []) :
    Answerable m s e { conditions := .dict conditions } (sortedNames conditions)
      (sortedNames conditions) := by
  have hfields := isIdentifier_of_mem_sortedNames hnames
  obtain ⟨source, hsource, hread⟩ := ofSource_mapFunction he.isTagged hfields (sortedNames_ne_nil hne)
  refine answerable_of_absent hm he hdesign habsent
    (searchFields_conditions hnames hdistinct e hne rfl rfl) nofun (fun _ f hf => ?_) hsource hread
  exact Text.not_mem_of_nameChars (Name.nameChars_of_isIdentifier (hfields f hf)) (by decide)

end

end Query

/-! ## Finding -/

section
variable {m : Memory} {e : EntityType} {designName : String} {conditions : Entries}

/-- A document meets conditions if and only if its row has one of the keys that the query asks for.
-/
theorem any_keysOf_eq_meets (hchoice : ∀ c ∈ conditions, Condition.isChoice c.2 = true)
    (d : String × Entries) : (Query.keysOf (Query.sortedValues conditions)).any
      ((Row.ofDocument (Query.sortedNames conditions) d).key.equal ·) =
        Condition.meets conditions d := by
  have hvalues : ∀ v ∈ Query.sortedValues conditions, Condition.isChoice v = true :=
    Query.forall_mem_sortedValues.2 hchoice
  rw [Bool.eq_iff_iff, Row.ofDocument, Query.any_keysOf_iff hvalues, Query.sortedNames,
    Query.sortedValues, List.map_map, List.forall₂_map_left_iff, List.forall₂_map_right_iff,
    List.forall₂_same, Condition.meets, List.all_eq_true]
  simp only [(Query.sortedConditions_perm conditions).mem_iff, List.forall_mem_map]
  rfl

/-- The rows whose keys a query asks for are those of the documents that meet the conditions. -/
theorem withKeys_toDocument_perm (hm : m.HoldsJson)
    (hchoice : ∀ c ∈ conditions, Condition.isChoice c.2 = true) :
    ((Index.withKeys (m.rows e (Query.sortedNames conditions))
      (Query.keysOf (Query.sortedValues conditions))).map Row.toDocument).Perm
        ((m.documentsOf e).filter (Condition.meets conditions)) := by
  have hvalues : ∀ v ∈ Query.sortedValues conditions, Condition.isChoice v = true :=
    Query.forall_mem_sortedValues.2 hchoice
  have hperm : (Index.withKeys (m.rows e (Query.sortedNames conditions))
      (Query.keysOf (Query.sortedValues conditions))).Perm _ := Index.withKeys_perm hm hvalues
  refine (hperm.map Row.toDocument).trans ((hm.filter_toDocument_perm e _ _).trans ?_)
  exact .of_eq (List.filter_congr fun d _ => any_keysOf_eq_meets hchoice d)

section
variable (hm : m.HoldsJson) (hnames : ∀ c ∈ conditions, c.1.isIdentifier = true)
  (hdistinct : (conditions.map fun c => Name.normalizeField c.1.text).Nodup)
  (hchoice : ∀ c ∈ conditions, Condition.isChoice c.2 = true)
include hm hchoice

/-- The documents come in the order of the places of their values. -/
theorem pairwise_toDocument :
    ((Index.withKeys (m.rows e (Query.sortedNames conditions))
      (Query.keysOf (Query.sortedValues conditions))).map Row.toDocument).Pairwise fun d d' =>
        ¬ Condition.places (Query.sortedValues conditions)
            ((Query.sortedConditions conditions).map fun c => d'.2.getD c.1) <
          Condition.places (Query.sortedValues conditions)
            ((Query.sortedConditions conditions).map fun c => d.2.getD c.1) := by
  have hkey (d : String × Entries) : (Row.ofDocument (Query.sortedNames conditions) d).key =
      .list ((Query.sortedConditions conditions).map fun c => d.2.getD c.1) := by
    rw [Row.ofDocument, Query.sortedNames, List.map_map]
    rfl
  have hvalues : ∀ v ∈ Query.sortedValues conditions, Condition.isChoice v = true :=
    Query.forall_mem_sortedValues.2 hchoice
  have hpairwise : (Index.withKeys (m.rows e (Query.sortedNames conditions)) _).Pairwise _ :=
    Index.pairwise_withKeys hm hvalues
  rw [← hm.map_ofDocument_toDocument fun r hr => Index.mem_of_mem_withKeys hr,
    List.pairwise_map] at hpairwise
  exact hpairwise.imp fun hplaces => hplaces _ _ (hkey _) (hkey _)

include hnames hdistinct

/-- Finding by conditions comes to the documents of the rows whose keys the query asks for. -/
theorem run_find_conditions (p : Profile) (allowAdHoc : Bool) (he : e.HasIdentifiers)
    (hfactory : e.factory = .document) (hsort : e.defaultSort.truthy = false)
    (hdesign : e.designName = .ok designName)
    (habsent : m.documents.get? (Registry.designId designName) = none) (hne : conditions ≠ []) :
    m.outcome p allowAdHoc e (·.find (.dict [(.str "conditions", .dict conditions)])) =
        .ok (.records (((Index.withKeys (m.rows e (Query.sortedNames conditions))
          (Query.keysOf (Query.sortedValues conditions))).map Row.toDocument).map e.recordOf)) := by
  have hanswerable := Query.answerable_conditions hnames hdistinct
    (s := (Database.finderOf e designName p allowAdHoc).setting) hm he hdesign habsent hne
  obtain ⟨q, total, after, hq, hends⟩ := Query.find_ends hanswerable
    (Options.plain_conditions _ _ _) rfl hchoice (Options.hasWindow_conditions _) hne
  have hdicts : ∀ r ∈ Index.withKeys (m.rows e (Query.sortedNames conditions))
      (Query.keysOf (Query.sortedValues conditions)), ∃ es, r.document = .dict es := fun r hr =>
    (hm.exists_dict_of_mem_rows (Index.mem_of_mem_withKeys hr)).imp fun _ => And.left
  have hfind := Finder.find_conditions_ends hq hends
  rw [Window.cut_conditions,
    show (Database.finderOf e designName p allowAdHoc).entityType = e from rfl,
    EntityType.materialize_default (EntityType.records_response total _ hfactory hdicts) hsort]
    at hfind
  exact hfind.outcome_eq hdesign

end

end

end ViewFinder
