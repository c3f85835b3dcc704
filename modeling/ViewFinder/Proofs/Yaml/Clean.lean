import ViewFinder.Proofs.Yaml.Scalars

/-!
# The characters of a scalar

Whatever characters a text has, those that the printer writes for it are ones that a YAML text may have
(`Yaml.isCleanText_scalarIn`): in plain style and between apostrophes the text has no others, and
between double quotes the others are escaped.
-/

namespace ViewFinder.Yaml

/-- A character that a YAML text may have, other than the one that announces halves. -/
def IsClean (c : Char) : Prop := isAllowed c = true ∧ c ≠ Text.mark

theorem isClean_of_isOrdinary {c : Char} (h : Traits.isOrdinary c = true) : IsClean c := by
  refine ⟨?_, by rintro rfl; cases h⟩
  by_cases hfeed : c = '\n'
  · subst hfeed
    rfl
  · simp only [Traits.isOrdinary, isAllowed, Bool.or_eq_true, Bool.and_eq_true, decide_eq_true_eq,
      beq_iff_eq, hfeed, false_or] at h ⊢
    omega

/-- A text of such characters. -/
def IsCleanText (s : List Char) : Prop := ∀ c ∈ s, IsClean c

theorem isCleanText_append {s t : List Char} :
    IsCleanText (s ++ t) ↔ IsCleanText s ∧ IsCleanText t := List.forall_mem_append

theorem isCleanText_cons {c : Char} {s : List Char} :
    IsCleanText (c :: s) ↔ IsClean c ∧ IsCleanText s := List.forall_mem_cons

theorem isClean_of_isBasic {c : Char} (h : IsBasic c) : IsClean c :=
  isClean_of_isOrdinary (isOrdinary_of_isBasic h)

theorem isCleanText_blanks (n : Nat) : IsCleanText (List.replicate n ' ') := fun _ hc =>
  List.eq_of_mem_replicate hc ▸ isClean_of_isBasic (by decide)

theorem isCleanText_newLine (indent : Nat) : IsCleanText (newLine indent) :=
  isCleanText_cons.2 ⟨isClean_of_isBasic (by decide), isCleanText_blanks indent⟩

theorem isCleanText_plainRuns {rs : List (List Char)} (h : IsCleanText rs.flatten) (indent : Nat)
    (fold : Bool) (column : Nat) : IsCleanText (plainRuns indent fold column rs) := by
  induction rs generalizing column with
  | nil => exact h
  | cons run rs ih =>
    obtain ⟨hrun, hrs⟩ := isCleanText_append.1 h
    rw [plainRuns]
    split
    · exact isCleanText_append.2 ⟨isCleanText_newLine indent, ih hrs _⟩
    · exact isCleanText_append.2 ⟨hrun, ih hrs _⟩

theorem isCleanText_quotedBreaks {run : List Char} (h : IsCleanText run) :
    IsCleanText (quotedBreaks run) := by
  unfold quotedBreaks
  split
  · exact isCleanText_cons.2 ⟨isClean_of_isBasic (by decide), h⟩
  · exact h

theorem isCleanText_doubleApostrophes {s : List Char} (h : IsCleanText s) :
    IsCleanText (doubleApostrophes s) := by
  intro c hc
  obtain ⟨d, hd, hc⟩ := List.mem_flatMap.1 hc
  split at hc
  · obtain rfl : c = '\'' := by simpa using hc
    exact isClean_of_isBasic (by decide)
  · exact List.mem_singleton.1 hc ▸ h d hd

theorem isCleanText_singleRuns {rs : List (List Char)} (h : IsCleanText rs.flatten) (indent : Nat)
    (fold first : Bool) (column : Nat) :
    IsCleanText (singleRuns indent fold first column rs) := by
  induction rs generalizing first column with
  | nil => exact h
  | cons run rs ih =>
    obtain ⟨hrun, hrs⟩ := isCleanText_append.1 h
    rw [singleRuns]
    split
    · exact isCleanText_append.2 ⟨isCleanText_newLine indent, ih hrs _ _⟩
    · split
      · exact isCleanText_append.2 ⟨isCleanText_append.2
          ⟨isCleanText_quotedBreaks hrun, isCleanText_blanks indent⟩, ih hrs _ _⟩
      · exact isCleanText_append.2 ⟨isCleanText_doubleApostrophes hrun, ih hrs _ _⟩

theorem isCleanText_hexDigits (width n : Nat) :
    IsCleanText ((Text.hexDigits width n).map Char.toUpper) := by
  have hdigit : ∀ d < 16, IsClean (Nat.digitChar d).toUpper := fun d hd =>
    isClean_of_isBasic (by revert d; decide)
  have hdigits : IsCleanText ((Nat.toDigits 16 n).map Char.toUpper) := by
    induction n using Nat.strong_induction_on with
    | _ n ih =>
    rw [Nat.toDigits_eq_if (by decide)]
    split
    · next hn => exact List.forall_mem_singleton.2 (hdigit n hn)
    · next hn =>
      rw [List.map_append]
      exact isCleanText_append.2 ⟨ih (n / 16) (by omega),
        List.forall_mem_singleton.2 (hdigit _ (Nat.mod_lt _ (by decide)))⟩
  rw [Text.hexDigits, List.map_append, List.map_replicate]
  exact isCleanText_append.2 ⟨fun c hc => List.eq_of_mem_replicate hc ▸ hdigit 0 (by decide), hdigits⟩

theorem isCleanText_escape? {n : Nat} {letters : List Char} (hn : n < 0x110000)
    (h : escape? n = some letters) : IsCleanText letters := by
  have hbackslash : IsClean '\\' := isClean_of_isBasic (by decide)
  rcases Scalar.escape?_cases hn with ⟨c, letter, -, hletter, heq⟩ |
    ⟨letter, width, -, hdigits, -, -, heq⟩ | ⟨-, -, heq⟩
  · cases heq.symm.trans h
    refine isCleanText_cons.2 ⟨hbackslash, List.forall_mem_singleton.2 (isClean_of_isBasic ?_)⟩
    unfold escapeLetter? at hletter
    split at hletter <;> cases hletter <;> decide
  · cases heq.symm.trans h
    refine isCleanText_cons.2 ⟨hbackslash, isCleanText_cons.2
      ⟨isClean_of_isBasic ?_, isCleanText_hexDigits width n⟩⟩
    unfold Scalar.escapeDigits? at hdigits
    split at hdigits <;> cases hdigits <;> decide
  · cases heq.symm.trans h

theorem isClean_unescaped {n : Nat} (hn : n < 0x110000) (h : escape? n = none) :
    IsClean (Char.ofNat n) := by
  obtain ⟨hcode, -⟩ := Scalar.unescaped h hn
  rcases Scalar.escape?_cases hn with ⟨c, letter, -, -, heq⟩ | ⟨letter, width, -, -, -, -, heq⟩ |
    ⟨-, hshown, -⟩
  · cases heq.symm.trans h
  · cases heq.symm.trans h
  · refine ⟨?_, fun hmark => ?_⟩
    · simp only [isAllowed, hcode, Bool.or_eq_true, Bool.and_eq_true, decide_eq_true_eq, beq_iff_eq]
      rcases hshown with hlow | hhigh <;> omega
    · rw [hmark, Text.toNat_mark] at hcode
      rcases hshown with hlow | hhigh <;> omega

theorem isCleanText_doubleFold (indent : Nat) (ns : List Nat) : IsCleanText (doubleFold indent ns) := by
  have hbackslash : IsClean '\\' := isClean_of_isBasic (by decide)
  refine isCleanText_cons.2 ⟨hbackslash, isCleanText_append.2 ⟨isCleanText_newLine indent, ?_⟩⟩
  split
  · exact List.forall_mem_singleton.2 hbackslash
  · exact nofun

theorem isCleanText_doubleChars {ns : List Nat} (hns : ∀ n ∈ ns, n < 0x110000) (indent : Nat)
    (fold first fresh : Bool) (column : Nat) :
    IsCleanText (doubleChars indent fold first fresh column ns) := by
  induction ns generalizing first fresh column with
  | nil => exact nofun
  | cons n ns ih =>
    obtain ⟨hn, hns⟩ := List.forall_mem_cons.1 hns
    have ih := ih hns
    rcases Scalar.doubleChars_cons indent fold first fresh column n ns with
      ⟨letters, hletters, heq⟩ | ⟨hletters, heq⟩
    · have hescape := isCleanText_escape? hn hletters
      rcases heq with ⟨column', heq⟩ | heq
      · rw [heq]
        exact isCleanText_append.2 ⟨hescape, ih _ _ _⟩
      · rw [heq]
        exact isCleanText_append.2 ⟨hescape, isCleanText_append.2 ⟨isCleanText_doubleFold _ _, ih _ _ _⟩⟩
    · have hchar := isClean_unescaped hn hletters
      rcases heq with ⟨column', heq⟩ | ⟨-, column', heq⟩
      · rw [heq]
        exact isCleanText_cons.2 ⟨hchar, ih _ _ _⟩
      · rw [heq]
        exact isCleanText_append.2 ⟨isCleanText_doubleFold _ _, isCleanText_cons.2 ⟨hchar, ih _ _ _⟩⟩

/-- What the printer writes for a text. -/
theorem isCleanText_scalarIn (s : List Char) (indent : Nat) (fold : Bool) (column : Nat) :
    IsCleanText (scalarIn (Style.of s) indent fold column s) := by
  have hflatten := (runs_spec (Nat.le_refl s.length)).flatten_eq
  have hordinary (h : ∀ c ∈ s, Traits.isOrdinary c = true) : IsCleanText (runs s.length s).flatten := by
    rw [hflatten]
    exact fun c hc => isClean_of_isOrdinary (h c hc)
  have hquote (q : Char) (hq : IsClean q) {t : List Char} (ht : IsCleanText t) :
      IsCleanText (q :: (t ++ [q])) :=
    isCleanText_cons.2 ⟨hq, isCleanText_append.2 ⟨ht, List.forall_mem_singleton.2 hq⟩⟩
  rcases Style.of_cases s with ⟨hstyle, -, hplain⟩ | ⟨hstyle, hsingle⟩ | hstyle <;> rw [hstyle]
  · exact isCleanText_plainRuns (hordinary hplain.ordinary) _ _ _
  · exact hquote _ (isClean_of_isBasic (by decide))
      (isCleanText_singleRuns (hordinary hsingle.ordinary) _ _ _ _)
  · exact hquote _ (isClean_of_isBasic (by decide))
      (isCleanText_doubleChars (fun n hn => Text.lt_of_mem_points n hn) _ _ _ _ _)

end ViewFinder.Yaml
