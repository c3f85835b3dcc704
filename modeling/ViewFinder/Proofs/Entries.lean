import ViewFinder.Value.Equal

/-!
# Dictionaries under textual names

What a dictionary holds under a name, after each of the operations on dictionaries: `get?` of
`set`, `erase`, `merge` and of a dictionary without its null entries. `Named` says of a dictionary
that its keys are distinct texts; documents and the parameters of requests are such dictionaries,
and the operations keep it so.
-/

namespace ViewFinder

namespace Value

/-- The only key that is the same as a text is that text. -/
theorem sameKey_str_iff {k : Value} {n : String} : k.sameKey (.str n) = true ↔ k = .str n := by
  cases k <;> simp [sameKey, isSameNaN, agree, agree.numberAgrees, isNull, quantity?]

@[simp] theorem sameKey_str (m n : String) : (Value.str m).sameKey (.str n) = decide (m = n) := by
  rw [Bool.eq_iff_iff, sameKey_str_iff]
  simp

/-- Every other key differs from a text. -/
theorem sameKey_str_of_ne {k : Value} {n : String} (h : k ≠ .str n) : k.sameKey (.str n) = false :=
  Bool.eq_false_iff.2 fun hk => h (sameKey_str_iff.1 hk)

theorem truthy_str_iff {s : String} : (Value.str s).truthy = true ↔ s ≠ "" := by
  rw [truthy, Bool.not_eq_true', Bool.eq_false_iff, Ne, String.isEmpty_iff]

/-- A dictionary stands for itself, even where an empty one is the default. -/
@[simp] theorem orElse_dict (es : Entries) : (Value.dict es).orElse (.dict []) = .dict es := by
  cases es <;> rfl

end Value

namespace Entries

/-! ## Looking up -/

@[simp] theorem get?_nil (n : String) : get? [] n = none := rfl

@[simp] theorem get?_cons_str (m n : String) (v : Value) (es : Entries) :
    get? ((.str m, v) :: es) n = if m = n then some v else get? es n := by
  by_cases h : m = n <;> simp [get?, find?, h]

theorem get?_cons_of_ne {k : Value} {n : String} (h : k ≠ .str n) (v : Value) (es : Entries) :
    get? ((k, v) :: es) n = get? es n := by
  simp [get?, find?, Value.sameKey_str_of_ne h]

/-- What is held under a name is an entry. -/
theorem mem_of_get? {es : Entries} {n : String} {v : Value} (h : get? es n = some v) :
    (.str n, v) ∈ es := by
  rw [get?, find?, Option.map_eq_some_iff] at h
  obtain ⟨⟨k, w⟩, he, rfl⟩ := h
  have hk : k = .str n := Value.sameKey_str_iff.1 (by simpa using List.find?_some he)
  subst hk
  exact List.mem_of_find?_eq_some he

/-- Nothing is held under a name that is no key. -/
theorem get?_eq_none_iff {es : Entries} {n : String} :
    get? es n = none ↔ ∀ e ∈ es, e.1 ≠ .str n := by
  rw [get?, find?, Option.map_eq_none_iff, List.find?_eq_none]
  refine forall₂_congr fun e _ => ?_
  rw [Value.sameKey_str_iff]

/-! ## Changing a dictionary -/

/-- A name that is set holds the new value, every other one what it held. -/
@[simp] theorem get?_set (es : Entries) (m n : String) (v : Value) :
    get? (set es m v) n = if m = n then some v else get? es n := by
  induction es with
  | nil => simp [set, insert]
  | cons e rest ih =>
    obtain ⟨k, w⟩ := e
    simp only [set] at ih
    by_cases hk : k = .str m
    · subst hk
      by_cases h : m = n <;> simp [set, insert, h]
    · rw [set, insert, Value.sameKey_str_of_ne hk, if_neg (by decide)]
      by_cases hn : k = .str n
      · subst hn
        have hmn : m ≠ n := fun h => hk (by rw [h])
        simp [hmn]
      · rw [get?_cons_of_ne hn, get?_cons_of_ne hn, ih]

/-- A name that is not held yet is set at the end. -/
theorem set_of_get?_eq_none {es : Entries} {n : String} (h : get? es n = none) (v : Value) :
    set es n v = es ++ [(.str n, v)] := by
  induction es with
  | nil => rfl
  | cons e rest ih =>
    obtain ⟨k, w⟩ := e
    have hk : k ≠ .str n := get?_eq_none_iff.1 h _ (List.mem_cons_self ..)
    rw [get?_cons_of_ne hk] at h
    rw [set, insert, Value.sameKey_str_of_ne hk, if_neg (by decide), List.cons_append, ← ih h]
    rfl

@[simp] theorem get?_erase (es : Entries) (m n : String) :
    get? (erase es m) n = if m = n then none else get? es n := by
  induction es with
  | nil => simp [erase]
  | cons e rest ih =>
    obtain ⟨k, w⟩ := e
    simp only [erase] at ih
    by_cases hk : k = .str m
    · subst hk
      rw [erase, List.filter_cons_of_neg (by simp), ih]
      by_cases h : m = n <;> simp [h]
    · rw [erase, List.filter_cons_of_pos (by simp [Value.sameKey_str_of_ne hk])]
      by_cases hn : k = .str n
      · subst hn
        have hmn : m ≠ n := fun h => hk (by rw [h])
        simp [hmn]
      · rw [get?_cons_of_ne hn, get?_cons_of_ne hn, ih]

/-! ## Distinct names -/

/-- A dictionary whose keys are distinct texts. -/
structure Named (es : Entries) : Prop where
  texts : ∀ e ∈ es, ∃ n, e.1 = .str n
  nodup : (es.map (·.1)).Nodup

theorem Named.nil : Named [] := ⟨by simp, by simp⟩

/-- Whether the keys are distinct texts does not depend on the values. -/
theorem Named.of_keys {es fs : Entries} (h : Named es) (hkeys : fs.map (·.1) = es.map (·.1)) :
    Named fs := by
  refine ⟨fun f hf => ?_, hkeys ▸ h.nodup⟩
  have hmem : f.1 ∈ fs.map (·.1) := List.mem_map_of_mem hf
  rw [hkeys] at hmem
  obtain ⟨e, he, heq⟩ := List.mem_map.1 hmem
  obtain ⟨n, hn⟩ := h.texts e he
  exact ⟨n, by rw [← heq, hn]⟩

/-- The rest of a dictionary holds nothing under the name of its first entry. -/
theorem Named.of_cons {e : Value × Value} {es : Entries} (h : Named (e :: es)) :
    ∃ n, e.1 = .str n ∧ get? es n = none ∧ Named es := by
  obtain ⟨n, hn⟩ := h.texts e (by simp)
  have hd := List.nodup_cons.1 h.nodup
  refine ⟨n, hn, get?_eq_none_iff.2 fun f hf hk => hd.1 ?_, ?_⟩
  · exact List.mem_map.2 ⟨f, hf, hk.trans hn.symm⟩
  · exact ⟨fun f hf => h.texts f (List.mem_cons_of_mem _ hf), hd.2⟩

theorem Named.cons {n : String} {v : Value} {es : Entries} (h : Named es)
    (hn : get? es n = none) : Named ((.str n, v) :: es) := by
  refine ⟨List.forall_mem_cons.2 ⟨⟨n, rfl⟩, h.texts⟩, List.nodup_cons.2 ⟨fun hk => ?_, h.nodup⟩⟩
  obtain ⟨f, hf, hfn⟩ := List.mem_map.1 hk
  exact get?_eq_none_iff.1 hn f hf hfn

/-- The keys after setting a name. -/
theorem mem_keys_set {es : Entries} {m : String} {v k : Value} :
    k ∈ (set es m v).map (·.1) ↔ k = .str m ∨ k ∈ es.map (·.1) := by
  induction es with
  | nil => simp [set, insert]
  | cons e es ih =>
    obtain ⟨l, w⟩ := e
    simp only [set] at ih
    by_cases hl : l = .str m
    · subst hl
      simp [set, insert]
    · simp only [set, insert, Value.sameKey_str_of_ne hl, Bool.false_eq_true, if_false,
        List.map_cons, List.mem_cons, ih]
      exact or_left_comm

theorem Named.set {es : Entries} (h : Named es) (m : String) (v : Value) : Named (es.set m v) := by
  constructor
  · intro e he
    have hk : e.1 ∈ (es.set m v).map (·.1) := List.mem_map_of_mem he
    rcases mem_keys_set.1 hk with hm | hk
    · exact ⟨m, hm⟩
    · obtain ⟨f, hf, hfe⟩ := List.mem_map.1 hk
      obtain ⟨n, hn⟩ := h.texts f hf
      exact ⟨n, by rw [← hfe, hn]⟩
  · induction es with
    | nil => simp [Entries.set, insert]
    | cons e es ih =>
      obtain ⟨n, hn, hnone, hes⟩ := h.of_cons
      obtain ⟨l, w⟩ := e
      subst hn
      have hd := List.nodup_cons.1 h.nodup
      have hset := ih hes
      by_cases hnm : n = m
      · subst hnm
        simpa [Entries.set, insert] using h.nodup
      · have hcons : Entries.set ((.str n, w) :: es) m v = (.str n, w) :: Entries.set es m v := by
          simp [Entries.set, insert, hnm]
        rw [hcons, List.map_cons, List.nodup_cons]
        refine ⟨fun hk => ?_, hset⟩
        rcases mem_keys_set.1 hk with hm | hk
        · exact hnm (by simpa using hm)
        · exact hd.1 hk

theorem Named.filter {es : Entries} (h : Named es) (p : Value × Value → Bool) :
    Named (List.filter p es) :=
  ⟨fun e he => h.texts e (List.mem_filter.1 he).1,
    h.nodup.sublist (List.filter_sublist.map _)⟩

/-- Merging goes by the second dictionary first. -/
theorem get?_merge {others : Entries} (h : Named others) (es : Entries) (n : String) :
    get? (merge es others) n = (get? others n).or (get? es n) := by
  induction others generalizing es with
  | nil => rfl
  | cons e others ih =>
    obtain ⟨m, hm, hnone, hothers⟩ := h.of_cons
    obtain ⟨k, v⟩ := e
    subst hm
    have hstep : merge es ((.str m, v) :: others) = merge (es.set m v) others := rfl
    rw [hstep, ih hothers]
    by_cases hmn : m = n
    · subst hmn
      simp [hnone]
    · simp [hmn]

theorem Named.merge {es others : Entries} (h : Named es) (ho : Named others) :
    Named (es.merge others) := by
  induction others generalizing es with
  | nil => exact h
  | cons e others ih =>
    obtain ⟨m, hm, -, hothers⟩ := ho.of_cons
    obtain ⟨k, v⟩ := e
    subst hm
    exact ih (h.set m v) hothers

/-- A dictionary restricted to some values holds, under a name, what it held if that is one. -/
theorem get?_filter {es : Entries} (h : Named es) (p : Value → Bool) (n : String) :
    get? (List.filter (fun e => p e.2) es) n = (get? es n).filter p := by
  induction es with
  | nil => rfl
  | cons e es ih =>
    obtain ⟨m, hm, hnone, hes⟩ := h.of_cons
    obtain ⟨k, v⟩ := e
    subst hm
    by_cases hmn : m = n
    · subst hmn
      by_cases hp : p v
      · simp [hp, Option.filter]
      · have hrest : get? (List.filter (fun e => p e.2) es) m = none := by
          rw [ih hes, hnone]
          rfl
        simp [hp, hrest, Option.filter]
    · by_cases hp : p v <;> simp [hp, hmn, ih hes]

/-! ## Names and values -/

/-- The dictionary of values under names. -/
def ofNames (names : List String) (vs : List Value) : Entries :=
  (names.zip vs).map fun e => (.str e.1, e.2)

section
variable {names : List String} {vs : List Value}

/-- Under other names there is nothing. -/
theorem get?_ofNames_of_not_mem {n : String} (hn : n ∉ names) : get? (ofNames names vs) n = none := by
  refine get?_eq_none_iff.2 (List.forall_mem_map.2 fun e he heq => hn ?_)
  cases heq
  exact (List.of_mem_zip he).1

theorem named_ofNames (hnames : names.Nodup) : Named (ofNames names vs) := by
  induction names generalizing vs with
  | nil => exact .nil
  | cons n names ih =>
    obtain ⟨hn, hrest⟩ := List.nodup_cons.1 hnames
    cases vs with
    | nil => exact .nil
    | cons v vs => exact (ih hrest).cons (get?_ofNames_of_not_mem hn)

/-- Under the names are the values. -/
theorem map_getD_ofNames (hnames : names.Nodup) (hlength : vs.length = names.length) :
    names.map (ofNames names vs).getD = vs := by
  induction names generalizing vs with
  | nil => exact (List.length_eq_zero_iff.1 hlength).symm
  | cons n names ih =>
    obtain ⟨hn, hrest⟩ := List.nodup_cons.1 hnames
    cases vs with
    | nil => cases hlength
    | cons v vs =>
      have hcons (m : String) : (ofNames (n :: names) (v :: vs)).getD m =
          if n = m then v else (ofNames names vs).getD m := by
        rw [getD, ofNames, List.zip_cons_cons, List.map_cons, get?_cons_str]
        split <;> rfl
      rw [List.map_cons, hcons, if_pos rfl]
      refine congrArg (v :: ·) (Eq.trans ?_ (ih hrest (Nat.succ.inj hlength)))
      refine List.map_congr_left fun m hm => ?_
      have hne : n ≠ m := fun heq => hn (heq ▸ hm)
      rw [hcons, if_neg hne]

end

end Entries

end ViewFinder
