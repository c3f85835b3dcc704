import Mathlib.Data.List.TakeDrop
import ViewFinder.Name
import ViewFinder.Proofs.Sorting.Merged
import ViewFinder.Proofs.Text.Points
import ViewFinder.Text.Blank
import ViewFinder.Text.Word

/-!
# Identifiers

The names of types and fields are identifiers as a rule: texts of letters and digits of ASCII and
underscores. Their characters are words and no blanks, and each stands for itself
(`Text.points_of_nameChars`). The order of texts is a strict order on them, as on all strings that texts
are kept as (`Text.before_of_ne`). The name of the design document of a type that has an identifier for its
name is made of the same characters (`Name.nameChars_underscoreChars`).
-/

namespace ViewFinder

namespace Text

/-- Is the character a letter or a digit of ASCII, or the underscore? -/
def isNameChar (c : Char) : Bool := c.isAlphanum || c == '_'

/-! ## Characters of identifiers -/

section
variable {c : Char}

/-- The characters of identifiers by their code points. -/
theorem isNameChar_iff : isNameChar c = true ↔
    (48 ≤ c.toNat ∧ c.toNat ≤ 57) ∨ (65 ≤ c.toNat ∧ c.toNat ≤ 90) ∨ c.toNat = 95 ∨
      (97 ≤ c.toNat ∧ c.toNat ≤ 122) := by
  have hline : c = '_' ↔ c.toNat = 95 := by
    rw [← Char.toNat_inj]
    rfl
  have hranges : isNameChar c = (decide (65 ≤ c.val ∧ c.val ≤ 90) || 97 ≤ c.val && c.val ≤ 122 ||
      48 ≤ c.val && c.val ≤ 57 || c == '_') := rfl
  simp only [hranges, Bool.or_eq_true, Bool.and_eq_true, decide_eq_true_eq,
    UInt32.le_iff_toNat_le, beq_iff_eq, hline]
  change (((65 ≤ c.toNat ∧ c.toNat ≤ 90) ∨ (97 ≤ c.toNat ∧ c.toNat ≤ 122)) ∨
    (48 ≤ c.toNat ∧ c.toNat ≤ 57)) ∨ c.toNat = 95 ↔ _
  omega

/-- A character of an identifier is none whose code point is out of their ranges. -/
theorem ne_of_isNameChar (h : isNameChar c = true) {d : Char} (hd : isNameChar d = false) :
    c ≠ d := by
  rintro rfl
  rw [h] at hd
  cases hd

theorem isWord_of_isNameChar (h : isNameChar c = true) : isWord c = true := by
  have hc := isNameChar_iff.1 h
  rw [isWord, if_pos (by omega)]
  exact h

theorem isBlank_of_isNameChar (h : isNameChar c = true) : isBlank c = false := by
  have hc := isNameChar_iff.1 h
  simp only [isBlank, inRanges, blankRanges, List.any_eq_false, List.mem_cons, List.not_mem_nil,
    Bool.and_eq_true, decide_eq_true_eq, or_false]
  rintro r (rfl | rfl | rfl | rfl | rfl | rfl | rfl | rfl | rfl | rfl) <;> simp only <;> omega

theorem isNameChar_toLower (h : isNameChar c = true) : isNameChar c.toLower = true := by
  have hc := isNameChar_iff.1 h
  exact of_forall_ascii (P := fun c => isNameChar c = true → isNameChar c.toLower = true) (by decide)
    (by omega) h

end

/-- Does the character stand for itself between double quotes: is it one of ASCII that prints, but
neither the double quote nor the backslash? -/
def isQuotable (c : Char) : Bool := 32 ≤ c.toNat && c.toNat ≤ 126 && c != '"' && c != '\\'

theorem isQuotable_iff {c : Char} :
    isQuotable c = true ↔ 32 ≤ c.toNat ∧ c.toNat ≤ 126 ∧ c ≠ '"' ∧ c ≠ '\\' := by
  simp [isQuotable, and_assoc]

theorem isQuotable_of_isNameChar {c : Char} (h : isNameChar c = true) : isQuotable c = true := by
  have hc := isNameChar_iff.1 h
  exact isQuotable_iff.2 ⟨by omega, by omega, ne_of_isNameChar h (by decide),
    ne_of_isNameChar h (by decide)⟩

/-! ## Texts of such characters -/

theorem points_of_quotable {s : List Char} (h : ∀ c ∈ s, isQuotable c = true) :
    points s = s.map Char.toNat := by
  refine points_of_unmarked fun c hc => ?_
  rintro rfl
  cases h mark hc

section
variable {s : List Char} (h : ∀ c ∈ s, isNameChar c = true)
include h

theorem points_of_nameChars : points s = s.map Char.toNat :=
  points_of_quotable fun c hc => isQuotable_of_isNameChar (h c hc)

theorem ofPoints_of_nameChars : ofPoints (s.map Char.toNat) = s :=
  ofChars_of_unmarked fun c hc => ne_of_isNameChar (h c hc) (by decide)

/-- Such a text has no character of another kind. -/
theorem not_mem_of_nameChars {d : Char} (hd : isNameChar d = false) : d ∉ s := fun hmem => by
  rw [h d hmem] at hd
  cases hd

end

/-- Joined lists hold what the lists and the one between them hold. -/
theorem forall_mem_intercalate {α : Type} {P : α → Prop} {between : List α}
    (hbetween : ∀ a ∈ between, P a) {lists : List (List α)} (h : ∀ l ∈ lists, ∀ a ∈ l, P a) :
    ∀ a ∈ between.intercalate lists, P a := by
  induction lists with
  | nil => exact nofun
  | cons l lists ih =>
    obtain ⟨hl, hlists⟩ := List.forall_mem_cons.1 h
    cases lists with
    | nil => simpa [List.intercalate] using hl
    | cons next lists =>
      rw [List.intercalate_cons_cons]
      simp only [List.forall_mem_append]
      exact ⟨⟨hl, hbetween⟩, ih hlists⟩

/-- A run of characters that pass a test ends where the text does or a character does not pass. -/
theorem span_append {p : Char → Bool} {s rest : List Char} (hs : ∀ c ∈ s, p c = true)
    (hrest : ∀ c ∈ rest.head?, p c = false) : (s ++ rest).span p = (s, rest) := by
  have hend : rest.takeWhile p = [] ∧ rest.dropWhile p = rest := by
    cases rest with
    | nil => exact ⟨rfl, rfl⟩
    | cons c rest =>
      have hc : ¬ p c = true := Bool.eq_false_iff.1 (hrest c rfl)
      exact ⟨List.takeWhile_cons_of_neg hc, List.dropWhile_cons_of_neg hc⟩
  rw [List.span_eq_takeWhile_dropWhile, List.takeWhile_append_of_pos hs, List.dropWhile_append_of_pos hs,
    hend.1, hend.2, List.append_nil]

theorem map_intercalate {α β : Type} (f : α → β) (between : List α) (lists : List (List α)) :
    (between.intercalate lists).map f = (between.map f).intercalate (lists.map (·.map f)) := by
  induction lists with
  | nil => rfl
  | cons l lists ih =>
    cases lists with
    | nil => simp [List.intercalate]
    | cons next lists =>
      rw [List.intercalate_cons_cons, List.map_append, List.map_append, ih, List.map_cons, List.map_cons,
        List.map_cons, List.intercalate_cons_cons]

/-! ## The order of texts -/

/-- The order of texts is that of their code points. -/
instance : Std.TransCmp order :=
  inferInstanceAs (Std.TransCmp (compareOn fun s : String => points s.toList))

/-- Exchanging two texts turns their order round. -/
theorem order_swap (s t : String) : order s t = (order t s).swap := Std.OrientedCmp.eq_swap

/-- One text does not come before another if and only if the other is at most as great. -/
theorem before_eq_false_iff {s t : String} : before s t = false ↔ (order t s).isLE = true := by
  rw [before, order_swap]
  cases order t s <;> decide

/-- Of two texts one at most comes before the other. -/
theorem before_asymm {s t : String} (h : before s t = true) : before t s = false := by
  rw [before, beq_iff_eq] at h
  rw [before_eq_false_iff, h]
  rfl

/-- Not to come before is transitive. -/
theorem not_before_trans {s t u : String} (h1 : before t s = false) (h2 : before u t = false) :
    before u s = false := by
  rw [before_eq_false_iff] at h1 h2 ⊢
  exact Std.TransCmp.isLE_trans h1 h2

/-- To come before is transitive. -/
theorem before_trans {s t u : String} (h1 : before s t = true) (h2 : before t u = true) :
    before s u = true := by
  rw [before, beq_iff_eq] at h1 h2 ⊢
  exact Std.TransCmp.lt_trans h1 h2

theorem weak_before : Sorting.Weak before := ⟨before_asymm, not_before_trans⟩

/-- Is the string the one that its text is kept as? -/
def isKept (s : String) : Bool := ofPoints (points s.toList) == s.toList

/-- Texts with the same code points are kept as the same string. -/
theorem eq_of_order {s t : String} (hs : isKept s = true) (ht : isKept t = true)
    (h : order s t = .eq) : s = t := by
  rw [isKept, beq_iff_eq] at hs ht
  have hpoints : points s.toList = points t.toList := Std.LawfulEqCmp.eq_of_compare h
  rw [← String.toList_inj, ← hs, ← ht, hpoints]

/-- Of two texts that are not the same one comes before the other. -/
theorem before_of_ne {s t : String} (hs : isKept s = true) (ht : isKept t = true) (hne : s ≠ t)
    (hst : before s t = false) : before t s = true := by
  rw [before_eq_false_iff] at hst
  rw [before, beq_iff_eq]
  cases hcmp : order t s with
  | lt => rfl
  | gt =>
    rw [hcmp] at hst
    cases hst
  | eq => exact absurd (eq_of_order ht hs hcmp).symm hne

/-- Two texts of which neither comes before the other are the same. -/
theorem eq_of_not_before {s t : String} (hs : isKept s = true) (ht : isKept t = true)
    (hst : before s t = false) (hts : before t s = false) : s = t := by
  by_contra hne
  rw [before_of_ne hs ht hne hst] at hts
  cases hts

end Text

namespace Name

open Text

/-- Is the text a name made of letters and digits of ASCII and underscores? -/
def isIdentifier (s : String) : Bool := !s.isEmpty && s.toList.all isNameChar

/-- Is the text made of letters and digits of ASCII, underscores and hyphens? -/
def isHyphenated (s : String) : Bool := s.toList.all fun c => isNameChar c || c == '-'

section
variable {s : String} (h : isIdentifier s = true)
include h

theorem nameChars_of_isIdentifier : ∀ c ∈ s.toList, isNameChar c = true := by
  rw [isIdentifier, Bool.and_eq_true, List.all_eq_true] at h
  exact h.2

theorem isHyphenated_of_isIdentifier : isHyphenated s = true := by
  rw [isHyphenated, List.all_eq_true]
  intro c hc
  rw [nameChars_of_isIdentifier h c hc, Bool.true_or]

theorem toList_ne_nil_of_isIdentifier : s.toList ≠ [] := by
  rw [isIdentifier, Bool.and_eq_true] at h
  simpa using h.1

theorem isKept_of_isIdentifier : isKept s = true := by
  have hs := nameChars_of_isIdentifier h
  rw [isKept, points_of_nameChars hs, ofPoints_of_nameChars hs, beq_self_eq_true]

end

theorem isNameChar_or_of_isHyphenated {s : String} (h : isHyphenated s = true) :
    ∀ c ∈ s.toList, isNameChar c = true ∨ c = '-' := by
  rw [isHyphenated, List.all_eq_true] at h
  simpa using h

theorem isKept_normalizeField {s : String} (h : isKept s = true) :
    isKept (normalizeField s) = true := by
  rw [normalizeField]
  split
  · decide
  · split
    · decide
    · exact h

theorem isIdentifier_normalizeField {s : String} (h : isIdentifier s = true) :
    isIdentifier (normalizeField s) = true := by
  rw [normalizeField]
  split
  · decide
  · split
    · decide
    · exact h

/-! ## Names of design documents -/

/-- The words of a name hold only its characters and underscores. -/
theorem mem_splitAcronyms {s : List Char} {b : Bool} {c : Char} (hc : c ∈ splitAcronyms b s) :
    c ∈ s ∨ c = '_' := by
  induction s generalizing b with
  | nil => exact .inl hc
  | cons d s ih =>
    rw [splitAcronyms] at hc
    split at hc <;> simp only [List.mem_cons] at hc ⊢ <;> grind

/-- The words of a name hold only its characters and underscores. -/
theorem mem_splitWords {s : List Char} {b : Bool} {c : Char} (hc : c ∈ splitWords b s) :
    c ∈ s ∨ c = '_' := by
  induction s generalizing b with
  | nil => exact .inl hc
  | cons d s ih =>
    rw [splitWords] at hc
    split at hc <;> simp only [List.mem_cons] at hc ⊢ <;> grind

theorem colonsToSlashes_of_not_mem {s : List Char} (h : ':' ∉ s) : colonsToSlashes s = s := by
  induction s with
  | nil => rfl
  | cons c s ih =>
    rw [List.mem_cons, not_or] at h
    rw [colonsToSlashes, ih h.2]
    rintro rest rfl
    exact absurd rfl h.1

/-- The characters of identifiers are lower-cased one by one. -/
theorem lowerFrom_of_nameChars {s before : List Char} (h : ∀ c ∈ s, isNameChar c = true) :
    lowerFrom before s = s.map Char.toLower := by
  induction s generalizing before with
  | nil => rfl
  | cons d s ih =>
    obtain ⟨hd, hs⟩ := List.forall_mem_cons.1 h
    have hn := isNameChar_iff.1 hd
    have hform : lowerChar d = d.toLower := by rw [lowerChar, if_pos (by omega)]
    have h130 : d ≠ '\u0130' := ne_of_isNameChar hd (by decide)
    have h3A3 : d ≠ '\u03A3' := ne_of_isNameChar hd (by decide)
    simp only [lowerFrom, beq_iff_eq, h130, h3A3, if_false, hform, List.singleton_append, List.map_cons,
      ih hs]

/-- Lower-casing an identifier leaves one. -/
theorem nameChars_lowerFrom {s before : List Char} (h : ∀ c ∈ s, isNameChar c = true) :
    ∀ c ∈ lowerFrom before s, isNameChar c = true := by
  rw [lowerFrom_of_nameChars h]
  exact List.forall_mem_map.2 fun c hc => isNameChar_toLower (h c hc)

/-- The design document of a name without other characters than hyphens has a name of these
characters alone. -/
theorem nameChars_underscoreChars {s : String} (h : isHyphenated s = true) :
    ∀ c ∈ underscoreChars s.toList, isNameChar c = true := by
  have hwords : ∀ c ∈ splitWords false (splitAcronyms false s.toList),
      isNameChar c = true ∨ c = '-' := by
    intro c hc
    rcases mem_splitWords hc with hc | rfl
    · rcases mem_splitAcronyms hc with hc | rfl
      · exact isNameChar_or_of_isHyphenated h c hc
      · exact .inl (by decide)
    · exact .inl (by decide)
  have hhyphens : ∀ c ∈ hyphensToUnderscores (splitWords false (splitAcronyms false s.toList)),
      isNameChar c = true := by
    intro c hc
    obtain ⟨d, hd, rfl⟩ := List.mem_map.1 hc
    split
    · decide
    · next hne => exact (hwords d hd).resolve_right (by simpa using hne)
  rw [underscoreChars, colonsToSlashes_of_not_mem (not_mem_of_nameChars hhyphens (by decide))]
  exact nameChars_lowerFrom hhyphens

end Name

end ViewFinder
