import ViewFinder.Text.CodePoint

/-!
# Code points of texts

The code points of a text are those of characters or halves of them (`Text.lt_of_mem_points`). Where a
text does not hold the character that announces halves its characters stand for themselves: they are
its code points (`Text.points_of_unmarked`), and the text of them (`Text.ofChars_of_unmarked`).
-/

namespace ViewFinder.Text

/-- A character has one of the code points that there are. -/
theorem toNat_lt (c : Char) : c.toNat < 0x110000 := by
  rcases c.valid with h | h
  · exact Nat.lt_trans h (by decide)
  · exact h.2

/-- What holds of the characters of ASCII one by one holds of each of them. -/
theorem of_forall_ascii {P : Char → Prop} (h : ∀ n < 128, P (Char.ofNat n)) {c : Char} (hc : c.toNat < 128) :
    P c :=
  Char.ofNat_toNat c ▸ h c.toNat hc

theorem lt_of_mem_points {s : List Char} : ∀ n ∈ points s, n < 0x110000 := by
  induction s using points.induct with
  | case1 => exact nofun
  | case2 c => exact List.forall_mem_singleton.2 (toNat_lt c)
  | case3 d rest ih =>
    rw [points, if_pos rfl]
    refine List.forall_mem_cons.2 ⟨?_, ih⟩
    have hd := toNat_lt d
    rw [markedPoint]
    split <;> omega
  | case4 c d rest hc ih =>
    rw [points, if_neg hc]
    exact List.forall_mem_cons.2 ⟨toNat_lt c, ih⟩

/-- A character that announces no half stands apart from what comes after it. -/
theorem points_append_cons {c : Char} (hc : c ≠ mark) (s rest : List Char) :
    points (s ++ c :: rest) = points (s ++ [c]) ++ points rest := by
  induction s using points.induct with
  | case1 => rw [List.nil_append, List.nil_append, points_cons_of_ne hc, points_cons_of_ne hc]; rfl
  | case2 d =>
    by_cases hd : d = mark
    · subst hd
      simp only [List.cons_append, List.nil_append, points, if_true]
    · simp only [List.cons_append, List.nil_append, points_cons_of_ne hd, points_cons_of_ne hc]
      rfl
  | case3 d s ih =>
    simp only [List.cons_append, points, if_true] at ih ⊢
    rw [ih]
  | case4 d e s hd ih =>
    show points (d :: (e :: s ++ c :: rest)) = points (d :: (e :: s ++ [c])) ++ points rest
    rw [points_cons_of_ne hd, points_cons_of_ne hd, ih]
    rfl

/-! ## Texts without halves -/

theorem not_isHalf_toNat (c : Char) : isHalf c.toNat = false := by
  have hvalid : c.toNat < 0xD800 ∨ 0xDFFF < c.toNat ∧ c.toNat < 0x110000 := c.valid
  simp only [isHalf, Bool.and_eq_false_iff, decide_eq_false_iff_not]
  omega

theorem char?_toNat (c : Char) : char? c.toNat = some c := by
  rw [char?, not_isHalf_toNat, if_neg (by decide), Char.ofNat_toNat]

theorem mapM_char?_toNat (cs : List Char) : (cs.map Char.toNat).mapM char? = some cs := by
  rw [List.mapM_map]
  induction cs with
  | nil => rfl
  | cons c cs ih =>
    rw [List.mapM_cons, Function.comp_apply, char?_toNat, ih]
    rfl

theorem points_ofChars (cs : List Char) : points (ofChars cs) = cs.map Char.toNat :=
  points_ofPoints (List.forall_mem_map.2 fun c _ => toNat_lt c)

/-- The characters of a text of characters are those. -/
theorem chars?_ofChars (cs : List Char) : chars? (ofChars cs) = some cs := by
  rw [chars?, points_ofChars, mapM_char?_toNat]

theorem ofPoint_toNat {c : Char} (h : c ≠ mark) : ofPoint c.toNat = [c] := by
  have hlast : c.toNat ≠ 0x10FFFF := fun heq => h (Char.toNat_inj.1 (heq.trans toNat_mark.symm))
  rw [ofPoint, not_isHalf_toNat, if_neg (by decide), if_neg hlast, Char.ofNat_toNat]

section
variable {s : List Char} (h : ∀ c ∈ s, c ≠ mark)
include h

theorem points_of_unmarked : points s = s.map Char.toNat := by
  induction s with
  | nil => rfl
  | cons c s ih =>
    obtain ⟨hc, hs⟩ := List.forall_mem_cons.1 h
    rw [points_cons_of_ne hc, ih hs, List.map_cons]

theorem ofChars_of_unmarked : ofChars s = s := by
  induction s with
  | nil => rfl
  | cons c s ih =>
    obtain ⟨hc, hs⟩ := List.forall_mem_cons.1 h
    have hrest := ih hs
    rw [ofChars, ofPoints] at hrest ⊢
    rw [List.map_cons, List.flatMap_cons, ofPoint_toNat hc, hrest]
    rfl

theorem ofPoints_points_of_unmarked : ofPoints (points s) = s := by
  rw [points_of_unmarked h]
  exact ofChars_of_unmarked h

theorem chars?_of_unmarked : chars? s = some s := by
  rw [chars?, points_of_unmarked h, mapM_char?_toNat]

end

end ViewFinder.Text
