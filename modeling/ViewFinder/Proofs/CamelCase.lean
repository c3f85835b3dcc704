import ViewFinder.Entity
import ViewFinder.Proofs.Text.Identifier

/-!
# Camel-case names

A camel-case name is made of words, each a capital of ASCII and small letters after it. No two capitals
meet in it, so there is nothing to split between capitals (`Name.splitAcronyms_flatten`), and a capital
after a small letter begins each word but the first (`Name.splitWords_flatten`). The name of the design
document is that of the words in lower case with underscores between them, from which the words are got
back (`Name.designName_camelCase`).
-/

namespace ViewFinder

namespace Name

open Text

/-! ## Letters -/

section
variable {c : Char}

theorem isCapital_iff : isCapital c = true ↔ 65 ≤ c.toNat ∧ c.toNat ≤ 90 := by
  rw [isCapital, Bool.and_eq_true, decide_eq_true_eq, decide_eq_true_eq, Char.le_def, Char.le_def,
    UInt32.le_iff_toNat_le, UInt32.le_iff_toNat_le]
  exact Iff.rfl

theorem isSmall_iff : isSmall c = true ↔ 97 ≤ c.toNat ∧ c.toNat ≤ 122 := by
  rw [isSmall, Bool.and_eq_true, decide_eq_true_eq, decide_eq_true_eq, Char.le_def, Char.le_def,
    UInt32.le_iff_toNat_le, UInt32.le_iff_toNat_le]
  exact Iff.rfl

theorem isNameChar_of_isCapital (h : isCapital c = true) : isNameChar c = true :=
  isNameChar_iff.2 (.inr (.inl (isCapital_iff.1 h)))

theorem isNameChar_of_isSmall (h : isSmall c = true) : isNameChar c = true :=
  isNameChar_iff.2 (.inr (.inr (.inr (isSmall_iff.1 h))))

theorem not_isCapital_of_isSmall (h : isSmall c = true) : isCapital c = false := by
  have hc := isSmall_iff.1 h
  rw [← Bool.not_eq_true, isCapital_iff]
  omega

/-- After a capital no word ends. -/
theorem not_ends_of_isCapital (h : isCapital c = true) : (isSmall c || isDigit c) = false := by
  have hc := isCapital_iff.1 h
  exact of_forall_ascii (P := fun c => isCapital c = true → (isSmall c || isDigit c) = false) (by decide)
    (by omega) h

/-- A capital has a small letter, and is got back from it. -/
theorem isSmall_toLower_of_isCapital (h : isCapital c = true) :
    isSmall c.toLower = true ∧ c.toLower.toUpper = c := by
  have hc := isCapital_iff.1 h
  exact of_forall_ascii (P := fun c => isCapital c = true → isSmall c.toLower = true ∧ c.toLower.toUpper = c)
    (by decide) (by omega) h

theorem toLower_of_isSmall (h : isSmall c = true) : c.toLower = c := by
  have hc := isSmall_iff.1 h
  exact of_forall_ascii (P := fun c => isSmall c = true → c.toLower = c) (by decide) (by omega) h

end

/-! ## Words -/

/-- A word of a camel-case name: a capital of ASCII, and one small letter or more. -/
inductive IsWord : List Char → Prop
  | intro {c : Char} {s : List Char} (hc : isCapital c = true) (hne : s ≠ [])
    (hs : ∀ e ∈ s, isSmall e = true) : IsWord (c :: s)

/-- Small letters are their own lower case. -/
theorem map_toLower_of_smalls {s : List Char} (h : ∀ c ∈ s, isSmall c = true) : s.map Char.toLower = s :=
  (List.map_congr_left fun c hc => toLower_of_isSmall (h c hc)).trans s.map_id

section
variable {w : List Char}

/-- Words are made of letters. -/
theorem IsWord.nameChars (h : IsWord w) : ∀ c ∈ w, isNameChar c = true := by
  cases h with
  | intro hc _ hs =>
    exact List.forall_mem_cons.2 ⟨isNameChar_of_isCapital hc, fun e he => isNameChar_of_isSmall (hs e he)⟩

/-- In lower case they are made of small ones. -/
theorem IsWord.smalls_toLower (h : IsWord w) : ∀ c ∈ w.map Char.toLower, isSmall c = true := by
  cases h with
  | intro hc _ hs =>
    rw [List.map_cons, map_toLower_of_smalls hs]
    exact List.forall_mem_cons.2 ⟨(isSmall_toLower_of_isCapital hc).1, hs⟩

/-- A word is known by its lower case. -/
theorem IsWord.eq_of_toLower {v : List Char} (hw : IsWord w) (hv : IsWord v)
    (h : w.map Char.toLower = v.map Char.toLower) : w = v := by
  cases hw with
  | intro hc _ hs =>
    cases hv with
    | intro hc' _ hs' =>
      rw [List.map_cons, List.map_cons, map_toLower_of_smalls hs, map_toLower_of_smalls hs',
        List.cons.injEq] at h
      rw [← (isSmall_toLower_of_isCapital hc).2, ← (isSmall_toLower_of_isCapital hc').2, h.1, h.2]

end

/-! ## Splitting -/

/-- Nothing is put before a small letter. -/
theorem splitAcronyms_small {c : Char} (hc : isSmall c = true) (b : Bool) (rest : List Char) :
    splitAcronyms b (c :: rest) = c :: splitAcronyms false rest := by
  rw [splitAcronyms, not_isCapital_of_isSmall hc, Bool.and_false]
  rfl

/-- Nothing is put before a small letter; after it a capital begins a word. -/
theorem splitWords_small {c : Char} (hc : isSmall c = true) (b : Bool) (rest : List Char) :
    splitWords b (c :: rest) = c :: splitWords true rest := by
  rw [splitWords, not_isCapital_of_isSmall hc, Bool.and_false, hc, Bool.true_or]
  rfl

section
variable {s : List Char} (hs : ∀ c ∈ s, isSmall c = true) (rest : List Char)
include hs

theorem splitAcronyms_smalls : splitAcronyms false (s ++ rest) = s ++ splitAcronyms false rest := by
  induction s with
  | nil => rfl
  | cons c s ih =>
    obtain ⟨hc, hs⟩ := List.forall_mem_cons.1 hs
    rw [List.cons_append, splitAcronyms_small hc, ih hs, List.cons_append]

theorem splitWords_smalls : splitWords true (s ++ rest) = s ++ splitWords true rest := by
  induction s with
  | nil => rfl
  | cons c s ih =>
    obtain ⟨hc, hs⟩ := List.forall_mem_cons.1 hs
    rw [List.cons_append, splitWords_small hc, ih hs, List.cons_append]

end

section
variable {w : List Char} (hw : IsWord w) (rest : List Char)
include hw

/-- A word after a small letter is not split: its capital stands alone. -/
theorem splitAcronyms_word : splitAcronyms false (w ++ rest) = w ++ splitAcronyms false rest := by
  cases hw with
  | @intro c s hc hne hs =>
    obtain ⟨d, s, rfl⟩ := List.exists_cons_of_ne_nil hne
    obtain ⟨hd, hs⟩ := List.forall_mem_cons.1 hs
    have hcapital : splitAcronyms false (c :: (d :: s ++ rest)) =
        c :: splitAcronyms (isCapital c) (d :: s ++ rest) := rfl
    rw [List.cons_append, hcapital, List.cons_append, splitAcronyms_small hd, splitAcronyms_smalls hs]
    rfl

/-- A word is set apart from what is before it if that ends in a small letter. -/
theorem splitWords_word (b : Bool) :
    splitWords b (w ++ rest) = (if b then ['_'] else []) ++ w ++ splitWords true rest := by
  cases hw with
  | @intro c s hc hne hs =>
    obtain ⟨d, s, rfl⟩ := List.exists_cons_of_ne_nil hne
    obtain ⟨hd, hs⟩ := List.forall_mem_cons.1 hs
    rw [List.cons_append, splitWords, not_ends_of_isCapital hc, hc, Bool.and_true, List.cons_append,
      splitWords_small hd, splitWords_smalls hs]
    cases b <;> rfl

end

section
variable {words : List (List Char)} (h : ∀ w ∈ words, IsWord w)
include h

theorem splitAcronyms_flatten : splitAcronyms false words.flatten = words.flatten := by
  induction words with
  | nil => rfl
  | cons w words ih =>
    obtain ⟨hw, hwords⟩ := List.forall_mem_cons.1 h
    rw [List.flatten_cons, splitAcronyms_word hw, ih hwords]

theorem splitWords_flatten : splitWords false words.flatten = ['_'].intercalate words := by
  induction words with
  | nil => rfl
  | cons w words ih =>
    obtain ⟨hw, hwords⟩ := List.forall_mem_cons.1 h
    rw [List.flatten_cons, splitWords_word hw, if_neg (by decide), List.nil_append]
    cases words with
    | nil => simp [splitWords]
    | cons v words =>
      have hv := hwords v (List.mem_cons_self ..)
      have hnext : splitWords true (v :: words).flatten = '_' :: splitWords false (v :: words).flatten := by
        rw [List.flatten_cons, splitWords_word hv, splitWords_word hv]
        rfl
      rw [hnext, ih hwords, List.intercalate_cons_cons, List.append_assoc]
      rfl

/-- The name of the design document has the words in lower case, with underscores between them. -/
theorem underscoreChars_flatten :
    underscoreChars words.flatten = ['_'].intercalate (words.map (·.map Char.toLower)) := by
  have hnames : ∀ c ∈ ['_'].intercalate words, isNameChar c = true :=
    forall_mem_intercalate (List.forall_mem_singleton.2 (by decide)) fun w hw => (h w hw).nameChars
  have hhyphens : hyphensToUnderscores (['_'].intercalate words) = ['_'].intercalate words := by
    refine (List.map_congr_left fun c hc => ?_).trans (List.map_id _)
    have hne : c ≠ '-' := ne_of_isNameChar (hnames c hc) (by decide)
    rw [id_eq, if_neg (by simpa using hne)]
  rw [underscoreChars, splitAcronyms_flatten h, splitWords_flatten h, hhyphens,
    colonsToSlashes_of_not_mem (not_mem_of_nameChars hnames (by decide)), lower,
    lowerFrom_of_nameChars hnames, map_intercalate]
  rfl

/-- The words are got back from the name of the design document. -/
theorem splitOn_underscoreChars (hne : words ≠ []) :
    (underscoreChars words.flatten).splitOn '_' = words.map (·.map Char.toLower) := by
  rw [underscoreChars_flatten h]
  refine List.splitOn_intercalate '_' (List.forall_mem_map.2 fun w hw hmem => ?_) (by simpa using hne)
  exact absurd ((h w hw).smalls_toLower '_' hmem) (by decide)

end

/-- Words are known by their lower case. -/
theorem eq_of_map_toLower {words others : List (List Char)} (h : ∀ w ∈ words, IsWord w)
    (ho : ∀ w ∈ others, IsWord w)
    (heq : words.map (·.map Char.toLower) = others.map (·.map Char.toLower)) : words = others := by
  induction words generalizing others with
  | nil => exact (List.map_eq_nil_iff.1 heq.symm).symm
  | cons w words ih =>
    cases others with
    | nil => cases heq
    | cons v others =>
      obtain ⟨hw, hwords⟩ := List.forall_mem_cons.1 h
      obtain ⟨hv, hothers⟩ := List.forall_mem_cons.1 ho
      rw [List.map_cons, List.map_cons, List.cons.injEq] at heq
      rw [hw.eq_of_toLower hv heq.1, ih hwords hothers heq.2]

theorem toList_map_toLower (words : List String) : (words.map String.toLower).map String.toList =
    (words.map String.toList).map (·.map Char.toLower) := by
  rw [List.map_map, List.map_map]
  exact List.map_congr_left fun w _ => String.toList_map

/-- The design document of a type with a camel-case name is named by the words in lower case, with
underscores between them. Types with different names of this kind have different design documents. -/
theorem designName_camelCase {words : List String} (hne : words ≠ []) (h : ∀ w ∈ words, IsWord w.toList) :
    underscore (String.join words) = "_".intercalate (words.map String.toLower) ∧
    ∀ others : List String, others ≠ [] → (∀ w ∈ others, IsWord w.toList) →
      String.join words ≠ String.join others → ∀ e f : EntityType,
      e.name = .str (String.join words) → f.name = .str (String.join others) →
      ∃ design other, e.designName = .ok design ∧ f.designName = .ok other ∧ design ≠ other := by
  have hwords : ∀ w ∈ words.map String.toList, IsWord w := List.forall_mem_map.2 h
  have hname (ws : List String) : (String.join ws).toList = (ws.map String.toList).flatten := by
    rw [String.toList_join, List.flatMap_def]
  refine ⟨?_, fun others hneo ho hdiffer e f he hf => ?_⟩
  · rw [← String.toList_inj, underscore, String.toList_ofList, hname, underscoreChars_flatten hwords,
      String.toList_intercalate, toList_map_toLower]
    rfl
  · have hothers : ∀ w ∈ others.map String.toList, IsWord w := List.forall_mem_map.2 ho
    refine ⟨_, _, by rw [EntityType.designName, he], by rw [EntityType.designName, hf], fun heq => hdiffer ?_⟩
    have hsplit := splitOn_underscoreChars hwords (by simpa using hne)
    rw [← hname, String.ofList_injective heq, hname, splitOn_underscoreChars hothers (by simpa using hneo)]
      at hsplit
    rw [← String.toList_inj, hname, hname, eq_of_map_toLower hwords hothers hsplit.symm]

/-- The name of a type of two words. -/
theorem designName_blogPost : underscore "BlogPost" = "blog_post" ∧
    ∃ design other, { name := .str "BlogPost" : EntityType }.designName = .ok design ∧
      { name := .str "Blogpost" : EntityType }.designName = .ok other ∧ design ≠ other := by
  have htwo : ∀ w ∈ ["Blog", "Post"], IsWord w.toList := by
    simp only [List.forall_mem_cons, List.not_mem_nil, IsEmpty.forall_iff, implies_true, and_true]
    exact ⟨.intro (by decide) (by decide) (List.all_eq_true.1 (by decide)),
      .intro (by decide) (by decide) (List.all_eq_true.1 (by decide))⟩
  have hone : ∀ w ∈ ["Blogpost"], IsWord w.toList :=
    List.forall_mem_singleton.2 (.intro (by decide) (by decide) (List.all_eq_true.1 (by decide)))
  have hblog : String.join ["Blog", "Post"] = "BlogPost" := by decide
  have hblogpost : String.join ["Blogpost"] = "Blogpost" := by decide
  have hlower : "_".intercalate (["Blog", "Post"].map String.toLower) = "blog_post" := by
    rw [← String.toList_inj, String.toList_intercalate, toList_map_toLower]
    rfl
  obtain ⟨hname, hdiffer⟩ := designName_camelCase (by decide) htwo
  rw [hblog, hlower] at hname
  exact ⟨hname, hdiffer ["Blogpost"] (by decide) hone (by decide) _ _ (by rw [hblog]) (by rw [hblogpost])⟩

end Name

end ViewFinder
