import Mathlib.Data.List.Nodup
import ViewFinder.Proofs.Text.Identifier
import ViewFinder.Query.Compiled

/-!
# The fields of a key

The view of a query emits the fields that the conditions name, and the key is made of the
conditions' values. Both are sorted by the stored names, but one after the other:
`Query.sortNames_eq` says that they come in the same order where the names are distinct identifiers.
-/

namespace ViewFinder

namespace Query

open Text Name

/-! ## Sorted names -/

theorem mem_insertName {name other : String} {names : List String} :
    other ∈ insertName name names ↔ other = name ∨ other ∈ names := by
  induction names with
  | nil => simp [insertName]
  | cons first names ih =>
    rw [insertName]
    split
    · exact List.mem_cons
    · split
      · next heq => rw [beq_iff_eq.1 heq]; simp
      · rw [List.mem_cons, ih, List.mem_cons]
        exact or_left_comm

/-- Sorting names loses none and makes up none. -/
theorem mem_sortNames {name : String} {names : List String} :
    name ∈ sortNames names ↔ name ∈ names := by
  induction names with
  | nil => exact Iff.rfl
  | cons first names ih =>
    rw [sortNames, List.foldr_cons, mem_insertName, ← sortNames, ih, List.mem_cons]

/-- A name is put into its place. -/
theorem pairwise_insertName {name : String} {names : List String} (hname : isKept name = true)
    (hnames : ∀ n ∈ names, isKept n = true)
    (h : names.Pairwise fun m n => before m n = true) :
    (insertName name names).Pairwise fun m n => before m n = true := by
  induction names with
  | nil => exact List.pairwise_singleton ..
  | cons first names ih =>
    obtain ⟨hfirst, hrest⟩ := List.pairwise_cons.1 h
    obtain ⟨hkept, hnames⟩ := List.forall_mem_cons.1 hnames
    rw [insertName]
    split
    · next hlt =>
      refine List.pairwise_cons.2 ⟨fun n hn => ?_, h⟩
      rcases List.mem_cons.1 hn with rfl | hn
      · exact hlt
      · exact before_trans hlt (hfirst n hn)
    · next hnot =>
      split
      · exact h
      · next hne =>
        refine List.pairwise_cons.2 ⟨fun n hn => ?_, ih hnames hrest⟩
        rcases mem_insertName.1 hn with rfl | hn
        · exact before_of_ne hname hkept (fun heq => hne (beq_iff_eq.2 heq))
            (Bool.eq_false_iff.2 hnot)
        · exact hfirst n hn

/-- Sorted names come in strictly ascending order. -/
theorem pairwise_sortNames {names : List String} (h : ∀ n ∈ names, isKept n = true) :
    (sortNames names).Pairwise fun m n => before m n = true := by
  induction names with
  | nil => exact .nil
  | cons first names ih =>
    obtain ⟨hfirst, hnames⟩ := List.forall_mem_cons.1 h
    rw [sortNames, List.foldr_cons, ← sortNames]
    exact pairwise_insertName hfirst (fun n hn => hnames n (mem_sortNames.1 hn)) (ih hnames)

/-- Names in strictly ascending order are distinct. -/
theorem nodup_of_pairwise {names : List String}
    (h : names.Pairwise fun m n => before m n = true) : names.Nodup := by
  refine h.imp fun {m n} hmn heq => ?_
  subst heq
  rw [before_asymm hmn] at hmn
  cases hmn

/-- Two lists of the same names in ascending order are the same. -/
theorem eq_of_perm_of_pairwise {names others : List String} (h : ∀ n ∈ names, isKept n = true)
    (hnames : names.Pairwise fun m n => before n m = false)
    (hothers : others.Pairwise fun m n => before n m = false) (hperm : names.Perm others) :
    names = others := by
  refine List.Perm.eq_of_pairwise (fun m n hm hn hnm hmn => ?_) hnames hothers hperm
  exact eq_of_not_before (h m hm) (h n (hperm.mem_iff.2 hn)) hmn hnm

section
variable {α : Type} {named : List (String × α)}

/-- Names and values that are sorted by the names come in ascending order of these. -/
theorem not_before_sortByName (named : List (String × α)) :
    (Value.sortByName named).Pairwise fun a b => before b.1 a.1 = false :=
  (weak_before.comp Prod.fst).pairwise_sort named

/-- Names that are sorted by themselves are those sorted with their values, if these are the same
names. -/
theorem eq_sortByName_of_perm {names : List String} (h : ∀ n ∈ names, isKept n = true)
    (hnames : names.Pairwise fun m n => before m n = true) (hperm : names.Perm (named.map (·.1))) :
    names = (Value.sortByName named).map (·.1) := by
  have hsorted : (Value.sortByName named).Perm named := Sorting.sort_perm _ _
  exact eq_of_perm_of_pairwise h (hnames.imp before_asymm)
    (List.pairwise_map.2 (not_before_sortByName named)) (hperm.trans (hsorted.map _).symm)

variable (hid : ∀ n ∈ named, isIdentifier n.1 = true) (hnodup : (named.map (·.1)).Nodup)
include hid hnodup

/-- Distinct names are sorted alike with and without their values. -/
theorem sortNames_eq : sortNames (named.map (·.1)) = (Value.sortByName named).map (·.1) := by
  have hkept : ∀ n ∈ named.map (·.1), isKept n = true :=
    List.forall_mem_map.2 fun n hn => isKept_of_isIdentifier (hid n hn)
  have hsorted := pairwise_sortNames hkept
  refine eq_sortByName_of_perm (fun n hn => hkept n (mem_sortNames.1 hn)) hsorted ?_
  exact (List.perm_ext_iff_of_nodup (nodup_of_pairwise hsorted) hnodup).2 fun n => mem_sortNames

/-- Distinct names come in strictly ascending order. -/
theorem pairwise_sortByName :
    (Value.sortByName named).Pairwise fun a b => before a.1 b.1 = true := by
  have hperm : (Value.sortByName named).Perm named := Sorting.sort_perm _ _
  have hkept : ∀ n ∈ Value.sortByName named, isKept n.1 = true := fun n hn =>
    isKept_of_isIdentifier (hid n (hperm.mem_iff.1 hn))
  have hne : (Value.sortByName named).Pairwise fun a b => a.1 ≠ b.1 :=
    List.pairwise_map.1 ((hperm.map _).nodup_iff.2 hnodup)
  refine ((not_before_sortByName named).and hne).imp_of_mem fun {a b} ha hb hab => ?_
  exact before_of_ne (hkept b hb) (hkept a ha) hab.2.symm hab.1

end

/-! ## The fields of a query -/

/-- The names that a query gives make up its key, if there are any. -/
theorem searchFields_eq (e : EntityType) {o : Options} {names : List Value}
    (h : givenNames o = .ok names) (hne : names ≠ []) :
    searchFields e o = .ok (sortNames (names.map fun v => normalizeField v.text)) := by
  obtain ⟨v, hv⟩ := List.exists_mem_of_ne_nil _ hne
  have hmem : normalizeField v.text ∈ sortNames (names.map fun v => normalizeField v.text) :=
    mem_sortNames.2 (List.mem_map_of_mem hv)
  have hempty : (sortNames (names.map fun v => normalizeField v.text)).isEmpty = false :=
    List.isEmpty_eq_false_iff.2 (List.ne_nil_of_mem hmem)
  rw [searchFields, h]
  simp only [bind, Except.bind, hempty]
  rfl

/-- The key of a query has some field, and each is one that it names or the default of the type. -/
theorem exists_searchFields (e : EntityType) {o : Options} {names : List Value}
    (h : givenNames o = .ok names) : ∃ fields, searchFields e o = .ok fields ∧ fields ≠ [] ∧
      ∀ f ∈ fields, f = e.defaultKeyField ∨ ∃ v ∈ names, f = normalizeField v.text := by
  rw [searchFields, h]
  refine ⟨_, rfl, ?_⟩
  split
  · exact ⟨List.cons_ne_nil _ _, fun f hf => .inl (List.mem_singleton.1 hf)⟩
  · next hempty =>
    refine ⟨by simpa using hempty, fun f hf => .inr ?_⟩
    obtain ⟨v, hv, rfl⟩ := List.mem_map.1 (mem_sortNames.1 hf)
    exact ⟨v, hv, rfl⟩

/-- The fields of a key are in strictly ascending order. -/
theorem pairwise_searchFields {e : EntityType} {o : Options} {names : List Value}
    (hgiven : givenNames o = .ok names) (hnames : ∀ n ∈ names, isKept n.text = true)
    {fields : List String} (hfields : searchFields e o = .ok fields) :
    fields.Pairwise fun m n => before m n = true := by
  rw [searchFields, hgiven] at hfields
  cases hfields
  split
  · exact List.pairwise_singleton ..
  · exact pairwise_sortNames <| List.forall_mem_map.2 fun n hn =>
      isKept_normalizeField (hnames n hn)

theorem isIdentifier_defaultKeyField (e : EntityType) : isIdentifier e.defaultKeyField = true := by
  rw [EntityType.defaultKeyField]
  split <;> decide

/-- A character that no name holds, and no stored name of an id or a revision, is in no field. -/
theorem not_mem_normalizeField {c : Char} (hc : isNameChar c = false) {name : String}
    (h : c ∉ name.toList) : c ∉ (normalizeField name).toList := by
  rw [normalizeField]
  split
  · exact not_mem_of_nameChars (List.all_eq_true.1 rfl) hc
  · split
    · exact not_mem_of_nameChars (List.all_eq_true.1 rfl) hc
    · exact h

/-- The name of a view holds no character that its fields and the words around them do not hold. -/
theorem not_mem_viewName {c : Char} (hc : isNameChar c = false) {fields : List String}
    (h : ∀ f ∈ fields, c ∉ f.toList) {operation : String} (ho : c ∉ operation.toList) :
    c ∉ (viewName fields operation).toList := by
  have hand : c ∉ "_and_".toList := not_mem_of_nameChars (List.all_eq_true.1 rfl) hc
  have hby : c ∉ "_by_".toList := not_mem_of_nameChars (List.all_eq_true.1 rfl) hc
  have hjoined := forall_mem_intercalate (P := (· ≠ c)) (fun d hd heq => hand (heq ▸ hd))
    (List.forall_mem_map.2 fun f hf d hd heq => h f hf (heq ▸ hd))
  have hfields : c ∉ "_and_".toList.intercalate (fields.map String.toList) :=
    fun hmem => hjoined c hmem rfl
  simp only [viewName, String.toList_append, String.toList_intercalate, List.mem_append, not_or]
  exact ⟨⟨ho, hby⟩, hfields⟩

end Query

end ViewFinder
