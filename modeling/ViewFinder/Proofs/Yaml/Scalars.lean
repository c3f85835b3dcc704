import ViewFinder.Proofs.Yaml.DoubleQuoted

/-!
# Scalars that are read back

`Yaml.readBack` is what a text reads as after it was written in the style that the printer chooses for
it. A text of printable ASCII characters and line feeds reads as itself (`Yaml.readBack_eq`). What is
written starts a token (`Yaml.starts_scalarIn`).
-/

namespace ViewFinder.Yaml

namespace Style

/-- The style of a text, with what allows it. -/
theorem of_cases (s : List Char) :
    (Style.of s = .plain ∧ Tag.ofPlain s = .str ∧ IsPlain s) ∨
    (Style.of s = .single ∧ IsSingle s) ∨ Style.of s = .double := by
  rw [Style.of]
  split
  · next hplain =>
    rw [Bool.and_eq_true, beq_iff_eq] at hplain
    exact .inl ⟨rfl, hplain.1, IsPlain.of_allowsPlain hplain.2⟩
  · split
    · next hsingle => exact .inr (.inl ⟨rfl, IsSingle.of_allowsSingle hsingle⟩)
    · exact .inr (.inr rfl)

end Style

/-- What a text is read back as. -/
def readBack (s : List Char) : List Char :=
  match Style.of s with
  | .plain => s
  | .single => (runs s.length s).flatMap Scalar.readRun
  | .double => Text.ofPoints (Text.points s)

/-- A printable ASCII character or a line feed. -/
def IsBasic (c : Char) : Prop := c = '\n' ∨ ' ' ≤ c ∧ c ≤ '~'

instance : DecidablePred IsBasic :=
  fun c => inferInstanceAs (Decidable (c = '\n' ∨ ' ' ≤ c ∧ c ≤ '~'))

/-- A text of such characters. -/
def IsBasicText (s : String) : Prop := ∀ c ∈ s.toList, IsBasic c

instance : DecidablePred IsBasicText := fun s => List.decidableBAll IsBasic s.toList

section
variable {s : List Char}

theorem ne_of_isBasic {c d : Char} (hc : IsBasic c) (hd : ¬ IsBasic d) : c ≠ d := by
  rintro rfl
  exact hd hc

theorem isOrdinary_of_isBasic {c : Char} (h : IsBasic c) : Traits.isOrdinary c = true := by
  rcases h with rfl | ⟨hlow, hhigh⟩
  · rfl
  · have hlow : 0x20 ≤ c.toNat := hlow
    have hhigh : c.toNat ≤ 0x7E := hhigh
    simp [Traits.isOrdinary, hlow, hhigh]

theorem flatMap_readRun {rs : List (List Char)} (h : ∀ c ∈ rs.flatten, c ≠ '\x85') :
    rs.flatMap Scalar.readRun = rs.flatten := by
  induction rs with
  | nil => rfl
  | cons run rs ih =>
    rw [List.flatten_cons, List.forall_mem_append] at h
    rw [List.flatMap_cons, List.flatten_cons, ih h.2, Scalar.readRun_eq h.1]

/-- A text of printable ASCII characters and line feeds reads as itself. -/
theorem readBack_eq (h : ∀ c ∈ s, IsBasic c) : readBack s = s := by
  have hnext : ¬ IsBasic '\x85' := by decide
  have hmark : ¬ IsBasic Text.mark := by decide
  have hflatten := (runs_spec (Nat.le_refl s.length)).flatten_eq
  rw [readBack]
  split
  · rfl
  · rw [flatMap_readRun, hflatten]
    rw [hflatten]
    exact fun c hc => ne_of_isBasic (h c hc) hnext
  · exact Text.ofPoints_points_of_unmarked fun c hc => ne_of_isBasic (h c hc) hmark

/-- A text that is written plain is not empty: that would read as null. -/
theorem ne_nil_of_plain (h : Tag.ofPlain s = .str) : s ≠ [] := by
  rintro rfl
  revert h
  decide

end

/-! ## How a scalar starts -/

/-- A text that starts a token, where blanks and comments were skipped before it. -/
structure Starts (s : List Char) : Prop where
  solid : ∀ c ∈ s.head?, Solid c
  noComment : s.head? ≠ some '#'
  /-- A byte order mark would be skipped too. -/
  noOrderMark : s.head? ≠ some '\ufeff'

theorem starts_nil : Starts [] := ⟨nofun, nofun, nofun⟩

theorem starts_cons {c : Char} (s : List Char) (h : Solid c ∧ c ≠ '#' ∧ c ≠ '\ufeff') :
    Starts (c :: s) :=
  ⟨fun _ hd => Option.mem_some_iff.1 hd ▸ h.1, fun hd => h.2.1 (Option.some.inj hd),
    fun hd => h.2.2 (Option.some.inj hd)⟩

/-- A scalar starts a token. -/
theorem starts_scalarIn (s : List Char) (indent : Nat) (fold : Bool) (column : Nat)
    (tail : List Char) : Starts (scalarIn (Style.of s) indent fold column s ++ tail) := by
  rcases Style.of_cases s with ⟨hstyle, htag, hplain⟩ | ⟨hstyle, -⟩ | hstyle <;> rw [hstyle]
  · have hwords := hplain.words (ne_nil_of_plain htag)
    have hhead := hwords.head_plainRuns indent fold column tail
    refine ⟨fun c hc => ?_, ?_, ?_⟩
    · exact hwords.head_solid c (hhead ▸ hc)
    all_goals
      rw [scalarIn, hhead]
      intro heq
      obtain ⟨rest, rfl⟩ := List.head?_eq_some_iff.1 heq
    · cases hplain.noStart
    · cases hplain.ordinary _ (List.mem_cons_self ..)
  · exact starts_cons _ ⟨⟨rfl, rfl⟩, by decide, by decide⟩
  · exact starts_cons _ ⟨⟨rfl, rfl⟩, by decide, by decide⟩

theorem scalarIn_ne_nil (s : List Char) (indent : Nat) (fold : Bool) (column : Nat) :
    scalarIn (Style.of s) indent fold column s ≠ [] := by
  rcases Style.of_cases s with ⟨hstyle, htag, hplain⟩ | ⟨hstyle, -⟩ | hstyle <;> rw [hstyle]
  · intro heq
    have hhead := (hplain.words (ne_nil_of_plain htag)).head_plainRuns indent fold column []
    rw [scalarIn] at heq
    rw [heq] at hhead
    exact ne_nil_of_plain htag (List.head?_eq_none_iff.1 hhead.symm)
  · exact List.cons_ne_nil _ _
  · exact List.cons_ne_nil _ _

/-- Without folding a plain text is written as it is. -/
theorem plainRuns_eq_flatten (indent column : Nat) (rs : List (List Char)) :
    plainRuns indent false column rs = rs.flatten := by
  induction rs generalizing column with
  | nil => rfl
  | cons run rs ih =>
    rw [plainRuns, Bool.and_false, Bool.false_and, if_neg Bool.false_ne_true, ih, List.flatten_cons]

theorem isDocumentMark_eq_true {s : List Char} (h : isDocumentMark s = true) :
    ∃ c rest, (c = '-' ∨ c = '.') ∧ s = c :: c :: c :: rest := by
  unfold isDocumentMark at h
  split at h
  · exact ⟨_, _, .inl rfl, rfl⟩
  · exact ⟨_, _, .inr rfl, rfl⟩
  · cases h

/-- A key on one line does not separate documents. -/
theorem isDocumentMark_key (s : List Char) (indent column : Nat) (rest : List Char) :
    isDocumentMark (scalarIn (Style.of s) indent false column s ++ ':' :: rest) = false := by
  rcases Style.of_cases s with ⟨hstyle, -, hplain⟩ | ⟨hstyle, -⟩ | hstyle <;> rw [hstyle]
  · rw [scalarIn, plainRuns_eq_flatten, (runs_spec (Nat.le_refl _)).flatten_eq]
    refine Bool.eq_false_iff.2 fun hmark => ?_
    obtain ⟨c, after, hc, heq⟩ := isDocumentMark_eq_true hmark
    match s, heq with
    | [], heq | [_], heq | [_, _], heq => rcases hc with rfl | rfl <;> cases heq
    | a :: b :: d :: s, heq =>
      cases heq
      have hstart := hplain.noMark
      rcases hc with rfl | rfl <;> cases hstart
  · rfl
  · rfl

end ViewFinder.Yaml
