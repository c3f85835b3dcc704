import ViewFinder.Proofs.FindConditions
import ViewFinder.Proofs.Query.Ranges

/-!
# Finding by ranges

A query for conditions on identifiers, each an exact value or a range, finds the documents of the type
whose key lies between that of the lower bounds and that of the upper bounds (`find_range_perm`). Such
a key meets the conditions up to the first range in the order of the fields. What comes after it is not
looked at unless the key is at one of the ends, so a document can be found that does not meet a later
condition: there is one for all conditions but those that are decisive (`exists_found_not_holds`).
-/

namespace ViewFinder

open Store

namespace Condition

/-- Does a document answer conditions that are in the order of their fields: is its key one that they
ask for? -/
def selects (sorted : List (String × Value)) (d : String × Entries) : Bool :=
  Query.answersTo (sorted.map (·.2)) (.list (sorted.map fun c => d.2.getD c.1))

end Condition

section
variable {m : Memory} {e : EntityType} {designName : String} {conditions : Entries}

/-- A query for exact values and ranges comes to the rows of the documents whose keys are asked for. -/
theorem exists_find_ends {s : Setting} (hm : m.HoldsJson) (he : e.HasIdentifiers)
    (hdesign : e.designName = .ok s.designName)
    (habsent : m.documents.get? (Registry.designId s.designName) = none)
    (hnames : ∀ c ∈ conditions, c.1.isIdentifier = true)
    (hdistinct : (conditions.map fun c => Name.normalizeField c.1.text).Nodup)
    (hinterval : ∀ c ∈ conditions, Condition.isInterval c.2 = true) :
    ∃ (keyFields : List String) (answers : Row → Bool),
      (∀ d, answers (Row.ofDocument keyFields d) =
        Condition.selects (Query.sortedConditions conditions) d) ∧
      ∃ q total after, Query.find e s.profile { conditions := .dict conditions } = .ok q ∧
        (q.execute s).Ends m (.ok (Window.response total 0
          (((m.rows e keyFields).filter answers).map Row.toValue))) after := by
  by_cases hne : conditions = []
  · -- all documents are asked for, and any of them answers no conditions
    subst hne
    obtain ⟨fields, keyFields, hanswerable⟩ := Query.exists_answerable (s := s)
      (o := { conditions := .dict [] }) hm he hdesign habsent rfl nofun nofun
    have hends := Query.find_ends_of_none hanswerable (Options.plain_conditions _ _ _) rfl
      (Options.hasWindow_conditions _)
    refine ⟨keyFields, fun _ => true, fun _ => Query.answersTo_nil.symm, ?_⟩
    rw [List.filter_eq_self.2 fun _ _ => rfl]
    rwa [Window.cut_conditions] at hends
  · have hanswerable := Query.answerable_conditions hnames hdistinct hm he hdesign habsent hne
    have hends := Query.find_ends_of_intervals hanswerable (Options.plain_conditions _ _ _) rfl
      hinterval (Options.hasWindow_conditions _) hne
    refine ⟨Query.sortedNames conditions, fun r => Query.answersTo (Query.sortedValues conditions)
      r.key, fun d => ?_, ?_⟩
    · rw [Condition.selects, Row.ofDocument, Query.sortedNames, List.map_map]
      rfl
    · rwa [Window.cut_conditions] at hends

/-- Finding by exact values and ranges comes to the documents whose keys are asked for. -/
theorem exists_found (p : Profile) (allowAdHoc : Bool) (hm : m.HoldsJson)
    (he : e.HasIdentifiers) (hdesign : e.designName = .ok designName)
    (habsent : m.documents.get? (Registry.designId designName) = none)
    (hnames : ∀ c ∈ conditions, c.1.isIdentifier = true)
    (hdistinct : (conditions.map fun c => Name.normalizeField c.1.text).Nodup)
    (hinterval : ∀ c ∈ conditions, Condition.isInterval c.2 = true) :
    ∃ found, e.Yields (m.outcome p allowAdHoc e
        (·.find (.dict [(.str "conditions", .dict conditions)]))) found ∧
      found.Perm ((m.documentsOf e).filter
        (Condition.selects (Query.sortedConditions conditions))) := by
  obtain ⟨keyFields, answers, hanswers, q, total, after, hq, hends⟩ :=
    exists_find_ends (s := (Database.finderOf e designName p allowAdHoc).setting) hm he hdesign
      habsent hnames hdistinct hinterval
  have houtcome : m.outcome p allowAdHoc e
      (·.find (.dict [(.str "conditions", .dict conditions)])) = _ :=
    (Finder.find_conditions_ends hq hends).outcome_eq hdesign
  rw [houtcome]
  refine ⟨_, EntityType.yields_materialize total 0
    (fun r hr => hm.exists_dict_of_mem_rows (List.mem_of_mem_filter hr)), ?_⟩
  refine (hm.filter_toDocument_perm e keyFields answers).trans (.of_eq ?_)
  exact List.filter_congr fun d _ => hanswers d

/-- Finding by exact values and ranges comes to the documents whose key, the fields in ascending order,
is one of those asked for. They meet the conditions up to the first range, and all conditions where
these are decisive. -/
theorem find_range_perm (p : Profile) (allowAdHoc : Bool) (hm : m.HoldsJson)
    (he : e.HasIdentifiers) (hdesign : e.designName = .ok designName)
    (habsent : m.documents.get? (Registry.designId designName) = none)
    (hnames : ∀ c ∈ conditions, c.1.isIdentifier = true)
    (hdistinct : (conditions.map fun c => Name.normalizeField c.1.text).Nodup)
    (hinterval : ∀ c ∈ conditions, Condition.isInterval c.2 = true) :
    ∃ (found : List (String × Entries)) (sorted : List (String × Value)),
      e.Yields (m.outcome p allowAdHoc e
        (·.find (.dict [(.str "conditions", .dict conditions)]))) found ∧
      found.Perm ((m.documentsOf e).filter (Condition.selects sorted)) ∧
      sorted.Perm (conditions.map fun c => (Name.normalizeField c.1.text, c.2)) ∧
      sorted.Pairwise (fun a b => Text.before a.1 b.1 = true) ∧
      (∀ before c after, sorted = before ++ c :: after →
        (∀ b ∈ before, Condition.isRange b.2 = false) →
          ∀ d ∈ found, Condition.holds c.2 (d.2.getD c.1) = true) ∧
      (Query.isDecisive (sorted.map (·.2)) = true →
        ∀ d ∈ found, ∀ c ∈ sorted, Condition.holds c.2 (d.2.getD c.1) = true) := by
  obtain ⟨found, hyields, hperm⟩ :=
    exists_found p allowAdHoc hm he hdesign habsent hnames hdistinct hinterval
  have hsorted := Query.sortedConditions_perm conditions
  have hconditions : ∀ c ∈ Query.sortedConditions conditions, Condition.isInterval c.2 = true := by
    intro c hc
    obtain ⟨c, hcmem, rfl⟩ := List.mem_map.1 (hsorted.mem_iff.1 hc)
    exact hinterval c hcmem
  have hholds {d : String × Entries} (hd : d ∈ found) {c : String × Value} :=
    have hmem := List.mem_filter.1 (hperm.mem_iff.1 hd)
    Query.holds_of_answersTo hconditions
      (fun c _ => Value.isJson_getD (hm.isJson_of_mem hmem.1) c.1) hmem.2 (c := c)
  refine ⟨found, _, hyields, hperm, hsorted, ?_, fun before c after hsplit hbefore d hd => ?_,
    fun hdecisive d hd c hc => hholds hd hc (.inr hdecisive)⟩
  · exact Query.pairwise_sortByName (fun c => Query.isIdentifier_of_mem_normalized hnames)
      (by rwa [List.map_map])
  · exact hholds hd (by simp [hsplit]) (.inl ⟨before, after, hsplit, hbefore⟩)

end

/-- The type of goods. -/
def good : EntityType := { name := .str "Good" }

theorem hasIdentifiers_good : good.HasIdentifiers := ⟨by decide, by decide, by decide⟩

/-- A heavy good. -/
def anvil : String × Entries :=
  ("g2", [(.str "_id", .str "g2"), (.str "doc_type", .str "Good"), (.str "cost", .int 5),
    (.str "weight", .int 100)])

/-- A store of three goods. -/
def goods : Memory :=
  { documents := [
      (.str "g1", .dict [(.str "_id", .str "g1"), (.str "doc_type", .str "Good"),
        (.str "cost", .int 5), (.str "weight", .int 2)]),
      (.str anvil.1, .dict anvil.2),
      (.str "g3", .dict [(.str "_id", .str "g3"), (.str "doc_type", .str "Good"),
        (.str "cost", .int 10), (.str "weight", .int 2)])] }

theorem holdsJson_goods : goods.HoldsJson :=
  Memory.holdsJson_of_isJson
    (by simp [goods, anvil, Value.isJson, Value.membersJson, Value.isFreshName]) (by decide)

theorem absent_goods (designName : String) :
    goods.documents.get? (Registry.designId designName) = none := by
  simp [goods, anvil, Registry.designId, Index.designPrefix, String.ext_iff]

/-- A cost between four and nine and a weight between one and three. -/
def costAndWeight : Entries :=
  [(.str "cost", .range (.int 4) (.int 9)), (.str "weight", .range (.int 1) (.int 3))]

/-- The goods of some cost and some weight that are found on a store of release 0.9 are those whose key
lies between `[4, 1]` and `[9, 3]`. -/
theorem find_goods_perm : ∃ (found : List (String × Entries)) (sorted : List (String × Value)),
    good.Yields (goods.outcome ⟨{ minor := 9 }⟩ true good
      (·.find (.dict [(.str "conditions", .dict costAndWeight)]))) found ∧
    found.Perm ((goods.documentsOf good).filter (Condition.selects sorted)) ∧
    sorted.Perm [("cost", .range (.int 4) (.int 9)), ("weight", .range (.int 1) (.int 3))] ∧
    sorted.Pairwise (fun a b => Text.before a.1 b.1 = true) ∧
    (∀ before c after, sorted = before ++ c :: after →
      (∀ b ∈ before, Condition.isRange b.2 = false) →
        ∀ d ∈ found, Condition.holds c.2 (d.2.getD c.1) = true) ∧
    (Query.isDecisive (sorted.map (·.2)) = true →
      ∀ d ∈ found, ∀ c ∈ sorted, Condition.holds c.2 (d.2.getD c.1) = true) :=
  find_range_perm _ true holdsJson_goods hasIdentifiers_good rfl (by decide +kernel) (by decide)
    (by decide) (by decide)

/-- Among them is the anvil, which is much too heavy. -/
theorem find_goods_too_heavy : ∃ rs,
    goods.outcome ⟨{ minor := 9 }⟩ true good
      (·.find (.dict [(.str "conditions", .dict costAndWeight)])) = .ok (.records rs) ∧
    good.recordOf anvil ∈ rs ∧
    Condition.holds (.range (.int 1) (.int 3)) (anvil.2.getD "weight") = false := by
  have hanvil : anvil ∈ (goods.documentsOf good).filter
      (Condition.selects (Query.sortedConditions costAndWeight)) := by
    refine List.mem_filter.2 ⟨List.mem_filterMap.2
      ⟨(.str anvil.1, .dict anvil.2), by simp [goods], ?_⟩, by decide +kernel⟩
    rw [EntityType.document?, if_pos (by decide +kernel)]
  obtain ⟨found, hyields, hperm⟩ : ∃ found, good.Yields (goods.outcome ⟨{ minor := 9 }⟩ true good
      (·.find (.dict [(.str "conditions", .dict costAndWeight)]))) found ∧ found.Perm _ :=
    exists_found _ true holdsJson_goods hasIdentifiers_good rfl (by decide +kernel) (by decide)
      (by decide) (by decide)
  obtain ⟨rs, hrs, hrecords⟩ := hyields.byDefault rfl
  refine ⟨rs, hrs, hrecords.mem_iff.2 ?_, by decide +kernel⟩
  exact List.mem_map_of_mem (hperm.mem_iff.2 hanvil)

/-! ## A document that does not meet its conditions -/

/-- A document of a type that holds some values under some names. -/
def EntityType.documentWith (e : EntityType) (names : List String) (vs : List Value) :
    String × Entries :=
  ("1", (.str Name.idField, .str "1") :: (e.discriminatorField, e.discriminatorValue) ::
    Entries.ofNames names vs)

section
variable {e : EntityType} {names : List String} {vs : List Value} (he : e.HasIdentifiers)
  (hmarked : e.discriminatorField ≠ .str Name.idField)
  (hfree : ∀ n ∈ names, n ≠ Name.idField ∧ e.discriminatorField ≠ .str n) (hnames : names.Nodup)

include hfree hnames in
/-- Under the names the document holds the values. -/
theorem map_getD_documentWith (hlength : vs.length = names.length) :
    names.map (e.documentWith names vs).2.getD = vs := by
  refine Eq.trans (List.map_congr_left fun n hn => ?_) (Entries.map_getD_ofNames hnames hlength)
  obtain ⟨hid, hfield⟩ := hfree n hn
  rw [EntityType.documentWith, Entries.getD, Entries.get?_cons_str, if_neg (Ne.symm hid),
    Entries.get?_cons_of_ne hfield]
  rfl

include he hmarked hfree hnames in
/-- The document can stand alone in a store. -/
theorem holdsJson_documentWith (hvs : ∀ v ∈ vs, v.isJson = true) :
    (Store.Memory.ofDocument (e.documentWith names vs)).HoldsJson := by
  obtain ⟨field, hfield, -⟩ := Value.exists_of_isIdentifier he.field
  obtain ⟨value, hvalue, -⟩ := Value.exists_of_isIdentifier he.value
  rw [hfield, ne_eq, Value.str.injEq] at hmarked
  have hnone {n : String} (hn : ∀ k ∈ names, k ≠ n) : (Entries.ofNames names vs).get? n = none :=
    Entries.get?_ofNames_of_not_mem fun hmem => hn n hmem rfl
  have hnamed : (e.documentWith names vs).2.Named := by
    rw [EntityType.documentWith, hfield]
    refine ((Entries.named_ofNames hnames).cons (hnone fun k hk => ?_)).cons ?_
    · rintro rfl
      exact (hfree k hk).2 hfield
    · rw [Entries.get?_cons_str, if_neg hmarked]
      exact hnone fun k hk => (hfree k hk).1
  have hvalues : ∀ a ∈ (e.documentWith names vs).2, a.2.isJson = true := by
    rw [EntityType.documentWith, hvalue]
    refine List.forall_mem_cons.2 ⟨rfl, List.forall_mem_cons.2 ⟨rfl, ?_⟩⟩
    exact List.forall_mem_map.2 fun a ha => hvs a.2 (List.of_mem_zip ha).2
  exact Memory.holdsJson_ofDocument ((Value.isJson_dict _).2 ⟨hnamed, hvalues⟩)

include he hmarked in
/-- The store holds that document of the type. -/
theorem documentsOf_documentWith : (Store.Memory.ofDocument (e.documentWith names vs)).documentsOf e =
    [e.documentWith names vs] := by
  obtain ⟨field, hfield, -⟩ := Value.exists_of_isIdentifier he.field
  obtain ⟨value, hvalue, -⟩ := Value.exists_of_isIdentifier he.value
  rw [hfield, ne_eq, Value.str.injEq] at hmarked
  have htype : e.isType (e.documentWith names vs).2 = true := by
    rw [e.isType_eq hfield, EntityType.documentWith, hfield, hvalue, Entries.getD,
      Entries.get?_cons_str, if_neg (Ne.symm hmarked), Entries.get?_cons_str, if_pos rfl]
    exact Value.equal_self_of_isAtom rfl
  rw [Memory.documentsOf_ofDocument (show "1".startsWith Index.designPrefix = false by decide), htype,
    if_pos rfl]

/-- The store holds no design document. -/
theorem absent_documentWith (e : EntityType) (names : List String) (vs : List Value)
    (designName : String) : (Store.Memory.ofDocument (e.documentWith names vs)).documents.get?
      (Registry.designId designName) = none :=
  Registry.absent_ofDocument (show "1".startsWith Index.designPrefix = false by decide) _

end

section
variable {e : EntityType} {conditions : Entries}
  (hdistinct : (conditions.map fun c => Name.normalizeField c.1.text).Nodup)
include hdistinct

theorem nodup_sortedNames : (Query.sortedNames conditions).Nodup := by
  rw [Query.sortedNames, ((Query.sortedConditions_perm conditions).map _).nodup_iff, List.map_map]
  exact hdistinct

variable (he : e.HasIdentifiers) (hmarked : e.discriminatorField ≠ .str Name.idField)
  (hfree : ∀ n ∈ Query.sortedNames conditions,
    n ≠ Name.idField ∧ e.discriminatorField ≠ .str n) {vs : List Value}
  (hlength : vs.length = (Query.sortedValues conditions).length)
include hfree hlength

/-- The key of the document that holds some values under the names of conditions is made up of these
values. -/
theorem map_getD_sortedConditions : (Query.sortedConditions conditions).map (fun c =>
    (e.documentWith (Query.sortedNames conditions) vs).2.getD c.1) = vs := by
  have hfields := map_getD_documentWith hfree (nodup_sortedNames hdistinct) (hlength.trans (by
    rw [Query.sortedValues, Query.sortedNames, List.length_map, List.length_map]))
  rwa [Query.sortedNames, List.map_map] at hfields

include he hmarked

/-- A document that stands alone is found if its key is one of those asked for. -/
theorem find_documentWith (p : Profile) (allowAdHoc : Bool) (hfactory : e.factory = .document)
    {designName : String} (hdesign : e.designName = .ok designName)
    (hnames : ∀ c ∈ conditions, c.1.isIdentifier = true)
    (hinterval : ∀ c ∈ conditions, Condition.isInterval c.2 = true)
    (hvs : ∀ v ∈ vs, v.isJson = true)
    (hanswers : Query.answersTo (Query.sortedValues conditions) (.list vs) = true) :
    (Store.Memory.ofDocument (e.documentWith (Query.sortedNames conditions) vs)).outcome p allowAdHoc
        e (·.find (.dict [(.str "conditions", .dict conditions)])) =
      .ok (.records [e.recordOf (e.documentWith (Query.sortedNames conditions) vs)]) := by
  have hselects : Condition.selects (Query.sortedConditions conditions)
      (e.documentWith (Query.sortedNames conditions) vs) = true := by
    rw [Condition.selects, ← Query.sortedValues, map_getD_sortedConditions hdistinct hfree hlength]
    exact hanswers
  have hm := holdsJson_documentWith he hmarked hfree (nodup_sortedNames hdistinct) hvs
  obtain ⟨found, hyields, hfound⟩ := exists_found p allowAdHoc hm he hdesign
    (absent_documentWith e _ vs designName) hnames hdistinct hinterval
  rw [documentsOf_documentWith he hmarked, List.filter_cons, hselects] at hfound
  obtain ⟨rs, hrs, hrecords⟩ := hyields.byDefault hfactory
  have hone : found = [e.documentWith (Query.sortedNames conditions) vs] :=
    List.perm_singleton.1 hfound
  rw [hone] at hrecords
  rwa [List.perm_singleton.1 hrecords] at hrs

end

/-- Where conditions are not decisive there is a store whose one document is found although it does not
meet one of them, unless objects or what marks the documents of the type are asked for. -/
theorem exists_found_not_holds {e : EntityType} {designName : String} {conditions : Entries}
    (p : Profile) (allowAdHoc : Bool) (he : e.HasIdentifiers) (hfactory : e.factory = .document)
    (hdesign : e.designName = .ok designName)
    (hnames : ∀ c ∈ conditions, c.1.isIdentifier = true)
    (hdistinct : (conditions.map fun c => Name.normalizeField c.1.text).Nodup)
    (hinterval : ∀ c ∈ conditions, Condition.isInterval c.2 = true)
    (hbelow : ∀ c ∈ conditions, Query.isBelowObjects (Query.lowBound c.2) = true ∧
      Query.isBelowObjects (Query.highBound c.2) = true)
    (hmarked : e.discriminatorField ≠ .str Name.idField)
    (hfree : ∀ c ∈ conditions, Name.normalizeField c.1.text ≠ Name.idField ∧
      e.discriminatorField ≠ .str (Name.normalizeField c.1.text))
    (hnot : Query.isDecisive (Query.sortedValues conditions) = false) :
    ∃ d, (Store.Memory.ofDocument d).HoldsJson ∧
      (Store.Memory.ofDocument d).outcome p allowAdHoc e
        (·.find (.dict [(.str "conditions", .dict conditions)])) =
          .ok (.records [e.recordOf d]) ∧
      ∃ c ∈ conditions, Condition.holds c.2 (d.2.getD (Name.normalizeField c.1.text)) = false := by
  have hperm := Query.sortedConditions_perm conditions
  have hsorted : ∀ n ∈ Query.sortedNames conditions,
      n ≠ Name.idField ∧ e.discriminatorField ≠ .str n := by
    rw [Query.sortedNames, List.forall_mem_map]
    intro c hc
    obtain ⟨c, hcmem, rfl⟩ := List.mem_map.1 (hperm.mem_iff.1 hc)
    exact hfree c hcmem
  obtain ⟨vs, hlength, hvs, hanswers, pair, hpair, hviolated⟩ :=
    Query.exists_key_of_not_isDecisive (Query.forall_mem_sortedValues.2 hinterval)
      (Query.forall_mem_sortedValues.2 hbelow) hnot
  refine ⟨_, holdsJson_documentWith he hmarked hsorted (nodup_sortedNames hdistinct) hvs,
    find_documentWith hdistinct he hmarked hsorted hlength p allowAdHoc hfactory hdesign hnames
      hinterval hvs hanswers, ?_⟩
  rw [← map_getD_sortedConditions hdistinct hsorted hlength, Query.sortedValues, List.zip_map',
    List.mem_map] at hpair
  obtain ⟨c, hc, rfl⟩ := hpair
  obtain ⟨c, hcmem, rfl⟩ := List.mem_map.1 (hperm.mem_iff.1 hc)
  exact ⟨c, hcmem, hviolated⟩

end ViewFinder
