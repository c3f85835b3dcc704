import ViewFinder.Proofs.OwnIndex
import ViewFinder.Proofs.Text.Points

/-!
# Names that two keys share

The name of a view joins the fields of a key by a word that a field may hold itself, so the name of one
key can be that of another. One that has several fields shares its name with the key of the one field
that this name spells; a key of one field does so just when the field reads as two
(`Query.own_name_iff`). The map functions of two keys that share a name are never the same
(`Query.eq_of_joined_of_mapFunction`), and the store runs the one that was registered first.
-/

namespace ViewFinder

namespace Text

/-! ## Texts put together -/

theorem points_ofPoints_append {ns : List Nat} (h : ∀ n ∈ ns, n < 0x110000) (s : List Char) :
    points (ofPoints ns ++ s) = ns ++ points s := by
  induction ns with
  | nil => rfl
  | cons n ns ih =>
    obtain ⟨hn, hns⟩ := List.forall_mem_cons.1 h
    rw [ofPoints, List.flatMap_cons, List.append_assoc, points_ofPoint_append hn, ← ofPoints, ih hns]
    rfl

/-- The code points of a text come first in what begins with it. -/
theorem points_append {s : String} (h : isKept s = true) (t : List Char) :
    points (s.toList ++ t) = points s.toList ++ points t := by
  rw [isKept, beq_iff_eq] at h
  conv_lhs => rw [← h]
  exact points_ofPoints_append lt_of_mem_points t

/-- What two texts make up is a text. -/
theorem isKept_append {s t : String} (hs : isKept s = true) (ht : isKept t = true) :
    isKept (s ++ t) = true := by
  have hpoints := points_append hs t.toList
  rw [isKept, beq_iff_eq] at hs ht ⊢
  rw [String.toList_append, hpoints, ofPoints, List.flatMap_append, ← ofPoints, ← ofPoints, hs, ht]

/-- A list that comes before another one comes before all that begin with that. -/
theorem compare_append_eq_lt {xs ys : List Nat} (h : compare xs ys = .lt) (zs : List Nat) :
    compare xs (ys ++ zs) = .lt := by
  induction xs generalizing ys with
  | nil =>
    cases ys with
    | nil => cases h
    | cons y ys => rfl
  | cons x xs ih =>
    cases ys with
    | nil => cases h
    | cons y ys =>
      rw [List.cons_append]
      simp only [List.compare_cons_cons, Ordering.then_eq_lt] at h ⊢
      exact h.imp_right fun hrest => ⟨hrest.1, ih hrest.2⟩

/-- A text that comes before another one comes before all that begin with that. -/
theorem before_append {s t : String} (ht : isKept t = true) (h : before s t = true) (u : String) :
    before s (t ++ u) = true := by
  rw [before, beq_iff_eq] at h ⊢
  rw [order, String.toList_append, points_append ht]
  exact compare_append_eq_lt h _

end Text

namespace Name

theorem normalizeField_idem (s : String) : normalizeField (normalizeField s) = normalizeField s := by
  by_cases hid : s = "id"
  · subst hid
    decide
  · by_cases hrev : s = "rev"
    · subst hrev
      decide
    · have hsame : normalizeField s = s := by simp [normalizeField, hid, hrev]
      rw [hsame, hsame]

end Name

namespace Query

open Name Text

/-! ## The name that fields spell -/

/-- The fields in the name of a view, as one text. -/
def spelled (fields : List String) : String := String.ofList (joined fields)

@[simp] theorem toList_spelled (fields : List String) : (spelled fields).toList = joined fields :=
  String.toList_ofList ..

theorem spelled_singleton (f : String) : spelled [f] = f := by
  rw [← String.toList_inj, toList_spelled]
  simp [joined]

/-- What several fields spell is the first one and what the others spell. -/
theorem spelled_cons_cons (f g : String) (fields : List String) :
    spelled (f :: g :: fields) = f ++ ("_and_" ++ spelled (g :: fields)) := by
  rw [← String.toList_inj]
  simp only [toList_spelled, joined, List.map_cons, List.intercalate_cons_cons,
    String.toList_append, List.append_assoc]

/-- Views for the same operation have the same name if and only if their fields spell the same. -/
theorem viewName_eq_iff {fields others : List String} {operation : String} :
    viewName fields operation = viewName others operation ↔ joined fields = joined others := by
  rw [← String.toList_inj, toList_viewName, toList_viewName, List.append_cancel_left_eq,
    List.append_cancel_left_eq]

theorem isKept_spelled {fields : List String} (h : ∀ f ∈ fields, isKept f = true) :
    isKept (spelled fields) = true := by
  induction fields with
  | nil => decide
  | cons f fields ih =>
    obtain ⟨hf, hfields⟩ := List.forall_mem_cons.1 h
    cases fields with
    | nil => rwa [spelled_singleton]
    | cons g fields =>
      rw [spelled_cons_cons]
      exact isKept_append hf (isKept_append (by decide) (ih hfields))

/-- What several fields spell is no shorter than the separating word. -/
theorem spelled_ne (f g : String) (fields : List String) {s : String} (hs : s.toList.length < 5) :
    spelled (f :: g :: fields) ≠ s := by
  rintro rfl
  rw [spelled_cons_cons, String.toList_append, String.toList_append, List.length_append,
    List.length_append] at hs
  have hand : "_and_".toList.length = 5 := rfl
  omega

/-- So it is stored as it is. -/
theorem normalizeField_spelled (f g : String) (fields : List String) :
    normalizeField (spelled (f :: g :: fields)) = spelled (f :: g :: fields) := by
  have hid : spelled (f :: g :: fields) ≠ "id" := spelled_ne f g fields (by decide)
  have hrev : spelled (f :: g :: fields) ≠ "rev" := spelled_ne f g fields (by decide)
  simp [normalizeField, hid, hrev]

/-! ## Fields that read as two -/

/-- Does a field read as the name of two others: are there two stored names, in order, that spell it? -/
def ReadsAsTwo (f : String) : Prop :=
  ∃ x y : String, isKept x = true ∧ isKept y = true ∧ normalizeField x = x ∧ normalizeField y = y ∧
    before x y = true ∧ f = spelled [x, y]

/-- A field without the separating word reads as one. -/
theorem not_readsAsTwo_of_words {f : String} (h : conjunction ∉ words f) : ¬ ReadsAsTwo f := by
  rintro ⟨x, y, -, -, -, -, -, rfl⟩
  refine h ?_
  rw [words, toList_spelled, splitOn_joined (List.cons_ne_nil _ _)]
  simp [List.intercalate_cons_cons]

/-- What a key of several fields spells reads as two: the first field, and the others. -/
theorem readsAsTwo_spelled {f g : String} {fields : List String}
    (hkept : ∀ n ∈ f :: g :: fields, isKept n = true)
    (hstored : ∀ n ∈ f :: g :: fields, normalizeField n = n) (hbefore : before f g = true) :
    ReadsAsTwo (spelled (f :: g :: fields)) := by
  obtain ⟨hf, hrest⟩ := List.forall_mem_cons.1 hkept
  have hspells : spelled (f :: g :: fields) = spelled [f, spelled (g :: fields)] := by
    rw [spelled_cons_cons, spelled_cons_cons, spelled_singleton]
  refine ⟨f, spelled (g :: fields), hf, isKept_spelled hrest, hstored f (List.mem_cons_self ..),
    ?_, ?_, hspells⟩
  · cases fields with
    | nil =>
      rw [spelled_singleton]
      exact hstored g (List.mem_cons_of_mem _ (List.mem_cons_self ..))
    | cons h fields => exact normalizeField_spelled g h fields
  · cases fields with
    | nil => rwa [spelled_singleton]
    | cons h fields =>
      rw [spelled_cons_cons]
      exact before_append (hrest g (List.mem_cons_self ..)) hbefore _

end Query

/-- The names that the options give for the key are texts. -/
def Options.GivesTexts (o : Options) : Prop :=
  ∀ names, Query.givenNames o = .ok names → ∀ v ∈ names, Text.isKept v.text = true

namespace Query

open Name Text

section
variable {e : EntityType} {o : Options} {fields : List String}
  (hfields : searchFields e o = .ok fields)
include hfields

/-- The fields of a key are the stored names of those that the options give, or the default of the
type. -/
theorem mem_searchFields : fields ≠ [] ∧ ∃ names, givenNames o = .ok names ∧
    ∀ f ∈ fields, f = e.defaultKeyField ∨ ∃ v ∈ names, f = normalizeField v.text := by
  cases hgiven : givenNames o with
  | error fault =>
    rw [searchFields, hgiven] at hfields
    cases hfields
  | ok names =>
    obtain ⟨fields', hsearched, hne, hmem⟩ := exists_searchFields e hgiven
    cases hsearched.symm.trans hfields
    exact ⟨hne, names, rfl, hmem⟩

theorem normalizeField_of_mem : ∀ f ∈ fields, normalizeField f = f := by
  obtain ⟨-, names, -, hmem⟩ := mem_searchFields hfields
  intro f hf
  rcases hmem f hf with rfl | ⟨v, -, rfl⟩
  · rw [EntityType.defaultKeyField]
    split <;> decide
  · exact normalizeField_idem v.text

theorem isKept_of_mem (htexts : o.GivesTexts) : ∀ f ∈ fields, isKept f = true := by
  obtain ⟨-, names, hgiven, hmem⟩ := mem_searchFields hfields
  intro f hf
  rcases hmem f hf with rfl | ⟨v, hv, rfl⟩
  · exact isKept_of_isIdentifier (isIdentifier_defaultKeyField e)
  · exact isKept_normalizeField (htexts names hgiven v hv)

/-- A key of several fields spells a field that reads as two. -/
theorem readsAsTwo_of_searchFields (htexts : o.GivesTexts) {f g : String} {rest : List String}
    (heq : fields = f :: g :: rest) : ReadsAsTwo (spelled fields) := by
  subst heq
  obtain ⟨-, names, hgiven, -⟩ := mem_searchFields hfields
  have hsorted := pairwise_searchFields hgiven (htexts names hgiven) hfields
  exact readsAsTwo_spelled (isKept_of_mem hfields htexts) (normalizeField_of_mem hfields)
    ((List.pairwise_cons.1 hsorted).1 g (List.mem_cons_self ..))

end

/-! ## Keys that share their names -/

section
variable {e : EntityType} {p : Profile} {o : Options} {q : CompiledQuery}

/-- Where a query can be compiled so can those that name a key by hand. -/
theorem exists_find_useKey (hq : find e p o = .ok q) {key : Value} {fields : List String}
    (hfields : searchFields e { useKey := key } = .ok fields) :
    ∃ q', find e p { useKey := key } = .ok q' ∧
      q'.viewName = .str (viewName fields findPrefix) := by
  obtain ⟨fields', source, -, hsource, hdesign, -⟩ := view_of_find hq
  have hmap : ∃ source, mapFunction e fields = .ok source := by
    rw [mapFunction] at hsource ⊢
    cases hprint : Json.print e.discriminatorValue with
    | error fault =>
      rw [hprint] at hsource
      cases hsource
    | ok value => exact ⟨_, rfl⟩
  obtain ⟨source', hsource'⟩ := hmap
  have hempty : ({ useKey := key } : Options).conditions = .dict [] := rfl
  obtain ⟨params, hvalues, -⟩ := exists_searchValues_asked (p := p) rfl hempty rfl Entries.Named.nil
  rw [find, hfields, hvalues]
  cases p.reduceCounting with
  | true => exact ⟨_, build_eq hdesign hsource' _ _ _ _ _, rfl⟩
  | false => exact ⟨_, build_eq hdesign hsource' _ _ _ _ _, rfl⟩

theorem givenNames_spelled (f g : String) (rest : List String) :
    givenNames { useKey := .str (spelled (f :: g :: rest)) } =
      .ok [.str (spelled (f :: g :: rest))] := by
  have hne : spelled (f :: g :: rest) ≠ "" := spelled_ne f g rest (by decide)
  have htruthy : (Value.str (spelled (f :: g :: rest))).truthy = true := by
    simpa [Value.truthy] using hne
  rw [givenNames]
  exact if_pos htruthy

/-- The key of the one field that other fields spell. -/
theorem searchFields_spelled (e : EntityType) (f g : String) (rest : List String) :
    searchFields e { useKey := .str (spelled (f :: g :: rest)) } = .ok [spelled (f :: g :: rest)] := by
  rw [searchFields_eq e (givenNames_spelled f g rest) (List.cons_ne_nil _ _), List.map_cons,
    List.map_nil]
  show Except.ok (sortNames [normalizeField (spelled (f :: g :: rest))]) = _
  rw [normalizeField_spelled]
  rfl

/-- The key of two stored names in order. -/
theorem searchFields_two (e : EntityType) {x y : String} (hx : normalizeField x = x)
    (hy : normalizeField y = y) (hbefore : before x y = true) :
    searchFields e { useKey := .list [.str x, .str y] } = .ok [x, y] := by
  have hgiven : givenNames { useKey := .list [.str x, .str y] } = .ok [.str x, .str y] := rfl
  have hsorted : sortNames [x, y] = [x, y] := by
    rw [sortNames, List.foldr_cons, List.foldr_cons, List.foldr_nil, insertName, insertName,
      if_pos hbefore]
  rw [searchFields_eq e hgiven (List.cons_ne_nil _ _), List.map_cons, List.map_cons, List.map_nil]
  show Except.ok (sortNames [normalizeField x, normalizeField y]) = _
  rw [hx, hy, hsorted]

end

/-! ## The map functions of keys that share their names -/

/-- Two texts followed by one character each, and by another one each, are the same. -/
theorem eq_of_append_cons_eq {s t a b c d : List Char} {u v : Char} (huv : u ≠ v)
    (hu : s ++ u :: a = t ++ u :: b) (hv : s ++ v :: c = t ++ v :: d) : s = t := by
  rcases List.append_eq_append_iff.1 hu with ⟨x, rfl, hx⟩ | ⟨x, rfl, hx⟩
  · cases x with
    | nil => exact (List.append_nil s).symm
    | cons w x =>
      rw [List.append_assoc, List.append_cancel_left_eq] at hv
      cases hx
      cases hv
      exact absurd rfl huv
  · cases x with
    | nil => exact List.append_nil t
    | cons w x =>
      rw [List.append_assoc, List.append_cancel_left_eq] at hv
      cases hx
      cases hv
      exact absurd rfl huv

/-- Fields that spell the same and are emitted by the same text are the same. -/
theorem eq_of_joined_of_keyText {fields others : List String} (hne : fields ≠ []) (hne' : others ≠ [])
    (hjoined : joined fields = joined others) (hkey : keyText fields = keyText others) :
    fields = others := by
  have hspells (f g : String) (fields : List String) : joined (f :: g :: fields) =
      f.toList ++ '_' :: ("and_".toList ++ joined (g :: fields)) := by
    simp only [joined, List.map_cons, List.intercalate_cons_cons]
    simp
  have hemits (f g : String) (fields : List String) : keyText (f :: g :: fields) =
      "doc.".toList ++ (f.toList ++ ',' :: (' ' :: keyText (g :: fields))) := by
    simp only [keyText, List.map_cons, List.intercalate_cons_cons]
    simp
  have hone (f : String) : joined [f] = f.toList ∧ keyText [f] = "doc.".toList ++ f.toList := by
    simp [joined, keyText]
  -- what follows the first field begins with one character in the name and with another in the key
  have hmark (f g h : String) (fields : List String) (hj : joined [f] = joined (g :: h :: fields))
      (hk : keyText [f] = keyText (g :: h :: fields)) : False := by
    rw [(hone f).1, hspells] at hj
    rw [(hone f).2, hemits, List.append_cancel_left_eq, hj, List.append_cancel_left_eq] at hk
    cases hk
  induction fields generalizing others with
  | nil => exact absurd rfl hne
  | cons f fields ih =>
    obtain ⟨g, others, rfl⟩ := List.exists_cons_of_ne_nil hne'
    cases fields with
    | nil =>
      cases others with
      | nil =>
        rw [(hone f).1, (hone g).1, String.toList_inj] at hjoined
        rw [hjoined]
      | cons g' others => exact (hmark f g g' others hjoined hkey).elim
    | cons f' fields =>
      cases others with
      | nil => exact (hmark g f f' fields hjoined.symm hkey.symm).elim
      | cons g' others =>
        rw [hspells, hspells] at hjoined
        rw [hemits, hemits, List.append_cancel_left_eq] at hkey
        have hfirst : f.toList = g.toList := eq_of_append_cons_eq (by decide) hjoined hkey
        rw [hfirst] at hjoined hkey
        have hrest : f' :: fields = g' :: others := ih (List.cons_ne_nil _ _) (List.cons_ne_nil _ _)
          (by simpa using hjoined) (by simpa using hkey)
        rw [String.toList_inj.1 hfirst, hrest]

/-- Two keys that share a name have the same map function only if they are the same. -/
theorem eq_of_joined_of_mapFunction {e : EntityType} {fields others : List String} {source : String}
    (hne : fields ≠ []) (hne' : others ≠ []) (hjoined : joined fields = joined others)
    (h : mapFunction e fields = .ok source) (h' : mapFunction e others = .ok source) :
    fields = others := by
  refine eq_of_joined_of_keyText hne hne' hjoined ?_
  have hkey (fields : List String) : (", ".intercalate (fields.map ("doc." ++ ·))).toList =
      keyText fields := by
    rw [String.toList_intercalate, keyText, List.map_map, List.map_map]
    exact congrArg _ (List.map_congr_left fun f _ => String.toList_append)
  rw [mapFunction] at h h'
  cases hprint : Json.print e.discriminatorValue with
  | error fault =>
    rw [hprint] at h
    cases h
  | ok value =>
    rw [hprint] at h h'
    have hsame := congrArg String.toList (Except.ok.inj (h.trans h'.symm))
    simpa only [String.toList_append, hkey, List.append_assoc, List.append_cancel_left_eq,
      List.append_cancel_right_eq] using hsame

/-! ## Keys with a name of their own -/

section
variable {e : EntityType} {p : Profile} {o : Options} {q : CompiledQuery} {fields : List String}
  (hq : find e p o = .ok q) (hfields : searchFields e o = .ok fields)
include hq hfields

/-- A query that finds documents goes to the view of its fields. -/
theorem name_of_find : q.viewName = .str (viewName fields findPrefix) ∧
    ∃ source, mapFunction e fields = .ok source ∧ q.mapSource = .str source := by
  obtain ⟨fields', source, hfields', hsource, -, hview⟩ := view_of_find hq
  cases hfields.symm.trans hfields'
  exact ⟨congrArg ViewDefinition.name hview, source, hsource, congrArg ViewDefinition.map hview⟩

/-- Queries for one view name have fields that spell the same, and the same fields just when they have
the same map function. -/
theorem joined_of_shared {o' : Options} {q' : CompiledQuery} {fields' : List String}
    (hq' : find e p o' = .ok q') (hfields' : searchFields e o' = .ok fields')
    (hname : q'.viewName = q.viewName) :
    joined fields' = joined fields ∧ (fields' = fields ↔ q'.mapSource = q.mapSource) := by
  obtain ⟨hview, source, hsource, hmap⟩ := name_of_find hq hfields
  obtain ⟨hview', source', hsource', hmap'⟩ := name_of_find hq' hfields'
  rw [hview, hview', Value.str.injEq, viewName_eq_iff] at hname
  refine ⟨hname, ?_⟩
  rw [hmap, hmap', Value.str.injEq]
  constructor
  · rintro rfl
    exact Except.ok.inj (hsource'.symm.trans hsource)
  · rintro rfl
    exact eq_of_joined_of_mapFunction (mem_searchFields hfields').1 (mem_searchFields hfields).1
      hname hsource' hsource

/-- The name of a key of several fields is also that of the one field that they spell. -/
theorem exists_shared_of_several (htexts : o.GivesTexts) {f g : String} {rest : List String}
    (heq : fields = f :: g :: rest) : ∃ o' q', o'.GivesTexts ∧ find e p o' = .ok q' ∧
      q'.viewName = q.viewName ∧ searchFields e o' = .ok [spelled fields] := by
  have hkept := isKept_spelled (isKept_of_mem hfields htexts)
  subst heq
  obtain ⟨q', hq', hname⟩ := exists_find_useKey hq (searchFields_spelled e f g rest)
  refine ⟨_, q', fun names hgiven v hv => ?_, hq', ?_, searchFields_spelled e f g rest⟩
  · rw [givenNames_spelled, Except.ok.injEq] at hgiven
    rw [← hgiven, List.mem_singleton] at hv
    rw [hv]
    exact hkept
  · rw [hname, (name_of_find hq hfields).1, viewName_eq_iff.2]
    rw [← toList_spelled, spelled_singleton, toList_spelled]

/-- The name of a key of one field that reads as two is also that of the two. -/
theorem exists_shared_of_readsAsTwo {f : String} (heq : fields = [f]) (htwo : ReadsAsTwo f) :
    ∃ o' q' x y, o'.GivesTexts ∧ find e p o' = .ok q' ∧ q'.viewName = q.viewName ∧
      searchFields e o' = .ok [x, y] := by
  obtain ⟨x, y, hx, hy, hxs, hys, hbefore, rfl⟩ := htwo
  subst heq
  have hsearched := searchFields_two e hxs hys hbefore
  obtain ⟨q', hq', hname⟩ := exists_find_useKey hq hsearched
  refine ⟨_, q', x, y, fun names hgiven v hv => ?_, hq', ?_, hsearched⟩
  · cases hgiven
    simp only [List.mem_cons, List.not_mem_nil, or_false] at hv
    rcases hv with rfl | rfl
    · exact hx
    · exact hy
  · rw [hname, (name_of_find hq hfields).1, viewName_eq_iff.2]
    rw [← toList_spelled [spelled [x, y]], spelled_singleton, toList_spelled]

end

/-- A key has the name of its view to itself, whatever options a query of the same type is compiled
from, just when it is made of one field that does not read as two. Two queries for one view name go by
the same fields if and only if they have the same map function, and they do where no field has the
separating word for a word of its own. -/
theorem own_name_iff {e : EntityType} {p : Profile} {o : Options} {q : CompiledQuery}
    {fields : List String} (htexts : o.GivesTexts) (hq : find e p o = .ok q)
    (hfields : searchFields e o = .ok fields) :
    ((∀ o' q', o'.GivesTexts → find e p o' = .ok q' → q'.viewName = q.viewName →
        searchFields e o' = .ok fields ∧ q'.mapSource = q.mapSource) ↔
      ∃ f, fields = [f] ∧ ¬ ReadsAsTwo f) ∧
    ∀ o' q' fields', find e p o' = .ok q' → q'.viewName = q.viewName →
      searchFields e o' = .ok fields' →
        (fields' = fields ↔ q'.mapSource = q.mapSource) ∧
        ((∀ f ∈ fields, conjunction ∉ words f) → (∀ f ∈ fields', conjunction ∉ words f) →
          fields' = fields) := by
  obtain ⟨hne, -⟩ := mem_searchFields hfields
  obtain ⟨f, rest, rfl⟩ := List.exists_cons_of_ne_nil hne
  constructor
  · constructor
    · intro hown
      cases rest with
      | nil =>
        refine ⟨f, rfl, fun htwo => ?_⟩
        obtain ⟨o', q', x, y, htexts', hq', hname, hsearched⟩ :=
          exists_shared_of_readsAsTwo hq hfields rfl htwo
        cases hsearched.symm.trans (hown o' q' htexts' hq' hname).1
      | cons g rest =>
        obtain ⟨o', q', htexts', hq', hname, hsearched⟩ :=
          exists_shared_of_several hq hfields htexts rfl
        have hsame := Except.ok.inj (hsearched.symm.trans (hown o' q' htexts' hq' hname).1)
        exact absurd (congrArg List.length hsame) (by simp)
    · rintro ⟨f', heq, hone⟩ o' q' htexts' hq' hname
      cases heq
      obtain ⟨fields', -, hfields', -⟩ := view_of_find hq'
      obtain ⟨hjoined, hiff⟩ := joined_of_shared hq hfields hq' hfields' hname
      have hspelled : spelled fields' = f := by
        rw [spelled, hjoined, ← spelled, spelled_singleton]
      obtain ⟨f', rest, rfl⟩ := List.exists_cons_of_ne_nil (mem_searchFields hfields').1
      cases rest with
      | nil =>
        rw [spelled_singleton] at hspelled
        rw [← hspelled] at hiff ⊢
        exact ⟨hfields', hiff.1 rfl⟩
      | cons g rest =>
        exact absurd (hspelled ▸ readsAsTwo_of_searchFields hfields' htexts' rfl) hone
  · intro o' q' fields' hq' hname hfields'
    obtain ⟨hjoined, hiff⟩ := joined_of_shared hq hfields hq' hfields' hname
    exact ⟨hiff, fun hwords hwords' =>
      eq_of_joined_eq_of_words (mem_searchFields hfields').1 hne hwords' hwords hjoined⟩

/-- The key of people's grades has its name to itself. -/
theorem own_name_grade : ∃ q, find person ⟨{ minor := 9 }⟩ { useKey := .str "grade" } = .ok q ∧
    ∀ o' q', o'.GivesTexts → find person ⟨{ minor := 9 }⟩ o' = .ok q' →
      q'.viewName = q.viewName →
        searchFields person o' = .ok ["grade"] ∧ q'.mapSource = q.mapSource := by
  have hgiven : ({ useKey := .str "grade" } : Options).GivesTexts := by
    intro names hnames v hv
    cases hnames
    rw [List.mem_singleton.1 hv]
    decide
  obtain ⟨q, hq⟩ : ∃ q, find person ⟨{ minor := 9 }⟩ { useKey := .str "grade" } = .ok q := ⟨_, rfl⟩
  have hfields : searchFields person { useKey := .str "grade" } = .ok ["grade"] := rfl
  have hiff := (own_name_iff hgiven hq hfields).1
  refine ⟨q, hq, fun o' q' htexts hq' hname => ?_⟩
  exact hiff.2 ⟨"grade", rfl, not_readsAsTwo_of_words (by decide)⟩ o' q' htexts hq' hname

/-- The key of two fields and that of the one field that they spell share a name. -/
theorem shared_name_people : ∃ q q',
    find person ⟨{ minor := 9 }⟩ { useKey := .list [.str "a", .str "b"] } = .ok q ∧
    find person ⟨{ minor := 9 }⟩ { conditions := .dict [(.str "a_and_b", .int 1)] } = .ok q' ∧
    q.viewName = q'.viewName ∧
    searchFields person { useKey := .list [.str "a", .str "b"] } = .ok ["a", "b"] ∧
    searchFields person { conditions := .dict [(.str "a_and_b", .int 1)] } = .ok ["a_and_b"] ∧
    q.mapSource ≠ q'.mapSource := by
  obtain ⟨q, hq⟩ : ∃ q, find person ⟨{ minor := 9 }⟩
      { useKey := .list [.str "a", .str "b"] } = .ok q := ⟨_, rfl⟩
  obtain ⟨q', hq'⟩ : ∃ q', find person ⟨{ minor := 9 }⟩
      { conditions := .dict [(.str "a_and_b", .int 1)] } = .ok q' := ⟨_, rfl⟩
  have hfields : searchFields person { useKey := .list [.str "a", .str "b"] } = .ok ["a", "b"] := rfl
  have hfields' : searchFields person { conditions := .dict [(.str "a_and_b", .int 1)] } =
      .ok ["a_and_b"] := rfl
  have hname : q.viewName = q'.viewName := by
    rw [(name_of_find hq hfields).1, (name_of_find hq' hfields').1]
    exact congrArg Value.str (by decide)
  refine ⟨q, q', hq, hq', hname, hfields, hfields', fun hmap => ?_⟩
  have hsame := (joined_of_shared hq' hfields' hq hfields hname).2.2 hmap
  exact absurd hsame (by decide)

end Query

end ViewFinder
