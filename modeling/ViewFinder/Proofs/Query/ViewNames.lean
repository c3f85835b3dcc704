import ViewFinder.Proofs.Query.Fields

/-!
# The fields in the name of a view

A store looks a view up by its name alone, so two keys must not share one. The fields in a name stand
between the words `and`: a name of clear fields, which have no such word of their own, is split there
to get them back (`Query.eq_of_viewName_eq`). The fields that a query searches by are clear if the
names that it gives are (`Query.isKey_searchFields`).
-/

namespace ViewFinder

namespace Name

/-- The words of a name, which underscores separate. -/
def words (s : String) : List (List Char) := s.toList.splitOn '_'

/-- The word between two fields in the name of a view. -/
def conjunction : List Char := ['a', 'n', 'd']

/-- Is the text an identifier without the word that separates fields? -/
def isClear (s : String) : Bool := isIdentifier s && !(words s).contains conjunction

theorem isClear_iff {s : String} : isClear s = true ↔ isIdentifier s = true ∧ conjunction ∉ words s := by
  simp [isClear]

/-- A name is made up of its words. -/
theorem words_injective {s t : String} (h : words s = words t) : s = t := by
  have hchars := congrArg ['_'].intercalate h
  rwa [words, words, List.intercalate_splitOn, List.intercalate_splitOn, String.toList_inj] at hchars

theorem isClear_normalizeField {s : String} (h : isClear s = true) :
    isClear (normalizeField s) = true := by
  rw [normalizeField]
  split
  · decide
  · split
    · decide
    · exact h

end Name

namespace Query

open Name

/-- The fields in the name of a view. -/
def joined (fields : List String) : List Char := "_and_".toList.intercalate (fields.map String.toList)

theorem toList_viewName (fields : List String) (operation : String) :
    (viewName fields operation).toList = operation.toList ++ ("_by_".toList ++ joined fields) := by
  rw [viewName, String.toList_append, String.toList_append, String.toList_intercalate, joined,
    List.append_assoc]

/-- The words in the name of a view are those of its fields, with the separating word between two. -/
theorem splitOn_joined {fields : List String} (hne : fields ≠ []) :
    (joined fields).splitOn '_' = [conjunction].intercalate (fields.map words) := by
  induction fields with
  | nil => exact absurd rfl hne
  | cons f fields ih =>
    cases fields with
    | nil => simp [joined, List.intercalate, words]
    | cons g fields =>
      have hjoined : joined (f :: g :: fields) =
          f.toList ++ '_' :: (conjunction ++ '_' :: joined (g :: fields)) := by
        simp only [joined, List.map_cons, List.intercalate_cons_cons]
        simp [conjunction]
      have hword : conjunction.splitOn '_' = [conjunction] := List.splitOn_eq_singleton (by decide)
      rw [hjoined, List.splitOn_append_cons_self, List.splitOn_append_cons_self, hword,
        ih (List.cons_ne_nil _ _), List.map_cons, List.map_cons, List.map_cons,
        List.intercalate_cons_cons, List.append_assoc]
      rfl

/-- Split at the separating words they are the words of each field. -/
theorem splitOn_splitOn_joined {fields : List String} (hne : fields ≠ [])
    (h : ∀ f ∈ fields, conjunction ∉ words f) :
    ((joined fields).splitOn '_').splitOn conjunction = fields.map words := by
  rw [splitOn_joined hne]
  exact List.splitOn_intercalate conjunction (List.forall_mem_map.2 h) (by simpa using hne)

/-- So fields without a word of their own like it are got back from the name that they make up. -/
theorem eq_of_joined_eq_of_words {fields others : List String} (hne : fields ≠ [])
    (hne' : others ≠ []) (hfields : ∀ f ∈ fields, conjunction ∉ words f)
    (hothers : ∀ f ∈ others, conjunction ∉ words f) (h : joined fields = joined others) :
    fields = others := by
  have hwords := congrArg (fun s => (s.splitOn '_').splitOn conjunction) h
  rw [splitOn_splitOn_joined hne hfields, splitOn_splitOn_joined hne' hothers] at hwords
  exact List.map_injective_iff.2 (fun _ _ => words_injective) hwords

theorem joined_ne_nil {fields : List String} (hne : fields ≠ [])
    (h : ∀ f ∈ fields, isClear f = true) : joined fields ≠ [] := by
  cases fields with
  | nil => exact absurd rfl hne
  | cons f fields =>
    have hf := toList_ne_nil_of_isIdentifier (isClear_iff.1 (h f (List.mem_cons_self ..))).1
    cases fields with
    | nil => simpa [joined, List.intercalate] using hf
    | cons g fields => simp [joined, List.intercalate_cons_cons]

section
variable {fields others : List String} (hfields : ∀ f ∈ fields, isClear f = true)
  (hothers : ∀ f ∈ others, isClear f = true)
include hfields hothers

/-- Clear fields are got back from the name that they make up. -/
theorem eq_of_joined_eq (h : joined fields = joined others) : fields = others := by
  by_cases hnil : fields = []
  · by_contra hne
    subst hnil
    exact joined_ne_nil (Ne.symm hne) hothers h.symm
  · have hothers' : others ≠ [] := by
      rintro rfl
      exact joined_ne_nil hnil hfields h
    exact eq_of_joined_eq_of_words hnil hothers' (fun f hf => (isClear_iff.1 (hfields f hf)).2)
      (fun f hf => (isClear_iff.1 (hothers f hf)).2) h

/-- Two views of clear fields have the same name only if they serve the same operation and have the
same fields. -/
theorem eq_of_viewName_eq {operation other : String} (ho : operation ∈ [findPrefix, countPrefix])
    (ho' : other ∈ [findPrefix, countPrefix]) (h : viewName fields operation = viewName others other) :
    operation = other ∧ fields = others := by
  rw [← String.toList_inj, toList_viewName, toList_viewName] at h
  have hdiffer (s t : List Char) :
      findPrefix.toList ++ s ≠ countPrefix.toList ++ t := by
    simp [findPrefix, countPrefix]
  simp only [List.mem_cons, List.not_mem_nil, or_false] at ho ho'
  -- the words before the fields differ in their first letter
  rcases ho with rfl | rfl <;> rcases ho' with rfl | rfl
  · exact ⟨rfl, eq_of_joined_eq hfields hothers (by simpa using h)⟩
  · exact absurd h (hdiffer _ _)
  · exact absurd h.symm (hdiffer _ _)
  · exact ⟨rfl, eq_of_joined_eq hfields hothers (by simpa using h)⟩

end

/-- A field whose words hold the separating one can be read in two ways. -/
example : viewName ["x_and", "y"] findPrefix = viewName ["x", "and_y"] findPrefix := by decide

/-! ## Sorted fields -/

/-- The fields of a key that can be told from the name of its view: clear, and in ascending order. -/
structure IsKey (fields : List String) : Prop where
  clear : ∀ f ∈ fields, isClear f = true
  sorted : fields.Pairwise fun f g => Text.before f g = true

theorem IsKey.isIdentifier {fields : List String} (h : IsKey fields) :
    ∀ f ∈ fields, isIdentifier f = true := fun f hf => (isClear_iff.1 (h.clear f hf)).1

theorem isClear_defaultKeyField (e : EntityType) : isClear e.defaultKeyField = true := by
  rw [EntityType.defaultKeyField]
  split <;> decide

end Query

/-- The names that the options give for the key are clear. -/
def Options.GivesClear (o : Options) : Prop :=
  ∀ names, Query.givenNames o = .ok names → ∀ v ∈ names, Name.isClear v.text = true

namespace Query

open Name

/-- Clear names make up a key. -/
theorem isKey_searchFields {e : EntityType} {o : Options} (hclear : o.GivesClear)
    {fields : List String} (h : searchFields e o = .ok fields) : IsKey fields ∧ fields ≠ [] := by
  cases hgiven : givenNames o with
  | error fault =>
    rw [searchFields, hgiven] at h
    cases h
  | ok names =>
    obtain ⟨fields', hsearched, hne, hmem⟩ := exists_searchFields e hgiven
    cases hsearched.symm.trans h
    have hfields : ∀ f ∈ fields, isClear f = true := by
      intro f hf
      rcases hmem f hf with rfl | ⟨v, hv, rfl⟩
      · exact isClear_defaultKeyField e
      · exact isClear_normalizeField (hclear names hgiven v hv)
    exact ⟨⟨hfields, pairwise_searchFields hgiven (fun v hv =>
      isKept_of_isIdentifier (isClear_iff.1 (hclear names hgiven v hv)).1) h⟩, hne⟩

end Query

end ViewFinder
