import Mathlib.Algebra.Group.Nat.Defs
import Mathlib.Data.List.TakeWhile
import ViewFinder.Proofs.Text.Identifier
import ViewFinder.Store.Memory

/-!
# Numbers that are printed and read back

A text that holds no sign reads as no negative integer, and the digits of a number read as that
number, if there are not too many of them (`Text.readInteger_toDigits`). So the generation of
a revision is what was counted up to (`Store.Memory.eq_of_generation_printed`).
-/

namespace ViewFinder

namespace Text

/-- The value of a digit of ASCII. -/
theorem digitValue?_of_isDigit {c : Char} (h : c.isDigit = true) :
    digitValue? c = some (c.toNat - 48) := by
  have hrange : 48 ≤ c.toNat ∧ c.toNat ≤ 57 := by
    simpa [Char.isDigit, UInt32.le_iff_toNat_le] using h
  have hzero : (decide (48 ≤ c.toNat) && decide (c.toNat < 48 + 10)) = true := by
    simp only [Bool.and_eq_true, decide_eq_true_eq]
    omega
  rw [digitValue?, decimalZeros, List.find?_cons, hzero]
  rfl

theorem isOuterBlank_of_isDigit {c : Char} (h : c.isDigit = true) : isOuterBlank c = false := by
  have hname : isNameChar c = true := by simp [isNameChar, Char.isAlphanum, h]
  rw [isOuterBlank, isBlank_of_isNameChar hname, Bool.false_and]

theorem trimNumber_of_dark {s : List Char} (h : ∀ c ∈ s, isOuterBlank c = false) : trimNumber s = s := by
  have hdrop {l : List Char} (hl : ∀ c ∈ l, isOuterBlank c = false) : l.dropWhile isOuterBlank = l := by
    cases l with
    | nil => rfl
    | cons c l => exact List.dropWhile_cons_of_neg (Bool.eq_false_iff.1 (hl c (List.mem_cons_self ..)))
  rw [trimNumber, hdrop h, hdrop fun c hc => h c (List.mem_reverse.1 hc), List.reverse_reverse]

section
variable {s : List Char} (h : ∀ c ∈ s, c.isDigit = true)
include h

theorem groupedDigits?_of_digits (hne : s ≠ []) : groupedDigits? s = some s := by
  induction s with
  | nil => exact absurd rfl hne
  | cons c s ih =>
    obtain ⟨hc, hs⟩ := List.forall_mem_cons.1 h
    have hdigit : isDigit c = true := by rw [isDigit, digitValue?_of_isDigit hc]; rfl
    cases s with
    | nil => simp [groupedDigits?, hdigit]
    | cons d s =>
      have hd : d ≠ '_' := by
        rintro rfl
        exact absurd (hs _ (List.mem_cons_self ..)) (by decide)
      rw [groupedDigits?, if_pos hdigit, ih hs (List.cons_ne_nil _ _)]
      · rfl
      · exact List.cons_ne_nil _ _
      · rintro _ ⟨⟩
        exact hd rfl

theorem trimNumber_of_digits : trimNumber s = s :=
  trimNumber_of_dark fun c hc => isOuterBlank_of_isDigit (h c hc)

end

/-- The digits of a number stand for it. -/
theorem decimalValue_toDigits (n : Nat) : decimalValue (Nat.toDigits 10 n) = n := by
  have hfold {l : List Char} (hl : ∀ c ∈ l, c.isDigit = true) (k : Nat) :
      l.foldl (fun n c => 10 * n + (digitValue? c).getD 0) k = Nat.ofDigitChars 10 l k := by
    induction l generalizing k with
    | nil => rfl
    | cons c l ih =>
      obtain ⟨hc, hl⟩ := List.forall_mem_cons.1 hl
      rw [List.foldl_cons, ih hl, Nat.ofDigitChars_cons, digitValue?_of_isDigit hc]
      rfl
  rw [decimalValue, hfold fun c hc => Nat.isDigit_of_mem_toDigits (by decide) (by decide) hc]
  exact Nat.ofDigitChars_ten_toDigits

/-- The digits of a number read as it, unless they are too many. -/
theorem readInteger_toDigits (n : Nat) : readInteger (String.ofList (Nat.toDigits 10 n)) =
    if (Nat.toDigits 10 n).length > maxDigits then
      .error (.unreadable (.tooManyDigits (Nat.toDigits 10 n).length))
    else .ok (n : Int) := by
  have hdigits : ∀ c ∈ Nat.toDigits 10 n, c.isDigit = true := fun c hc =>
    Nat.isDigit_of_mem_toDigits (by decide) (by decide) hc
  have hsign {c : Char} {rest : List Char} (hc : c.isDigit = false) :
      Nat.toDigits 10 n ≠ c :: rest := fun heq => by
    have hmem := hdigits c (heq ▸ List.mem_cons_self ..)
    rw [hc] at hmem
    cases hmem
  have hread : readInteger (String.ofList (Nat.toDigits 10 n)) =
      if (Nat.toDigits 10 n).length > maxDigits then
        .error (.unreadable (.tooManyDigits (Nat.toDigits 10 n).length))
      else .ok (decimalValue (Nat.toDigits 10 n) : Int) := by
    rw [readInteger, String.toList_ofList, trimNumber_of_digits hdigits]
    split
    next negative digits heq =>
      split at heq
      · exact absurd ‹_› (hsign rfl)
      · exact absurd ‹_› (hsign rfl)
      · cases heq
        rw [groupedDigits?_of_digits hdigits (Nat.toDigits_ne_nil)]
        rfl
  rw [hread, decimalValue_toDigits]

/-- A text that holds no sign reads as no negative integer. -/
theorem nonneg_of_readInteger {s : String} (hs : '-' ∉ s.toList) {k : Int}
    (h : readInteger s = .ok k) : 0 ≤ k := by
  have hsign (rest : List Char) : trimNumber s.toList ≠ '-' :: rest := fun heq => by
    refine hs ((List.dropWhile_suffix isOuterBlank).mem (List.mem_reverse.1
      ((List.dropWhile_suffix isOuterBlank).mem (List.mem_reverse.1 ?_))))
    · rw [← trimNumber, heq]
      exact List.mem_cons_self ..
  rw [readInteger] at h
  split at h
  next negative digits heq =>
    have hnegative : negative = false := by
      split at heq
      · exact absurd ‹_› (hsign _)
      · cases heq; rfl
      · cases heq; rfl
    subst hnegative
    split at h
    · cases h
    · split at h
      · cases h
      · cases h
        exact Int.natCast_nonneg _

end Text

namespace Store.Memory

/-- The generation of a revision is not negative: a hyphen ends it. -/
theorem nonneg_of_generation {rev : String} {n : Int} (h : generation (.str rev) = .ok n) :
    0 ≤ n := by
  rw [generation] at h
  refine Text.nonneg_of_readInteger (fun hmem => ?_) h
  rw [String.toList_ofList] at hmem
  simpa using List.mem_takeWhile_imp hmem

/-- The generation of a printed revision is read off the digits of the number. -/
theorem generation_printed (n : Nat) : generation (.str s!"{(n : Int)}-mem") =
    Text.readInteger (String.ofList (Nat.toDigits 10 n)) := by
  have hdigits : (s!"{(n : Int)}-mem").toList = Nat.toDigits 10 n ++ '-' :: ['m', 'e', 'm'] := by
    show (toString (n : Int) ++ "-mem").toList = _
    rw [show toString (n : Int) = String.ofList (Nat.toDigits 10 n) from rfl, String.toList_append,
      String.toList_ofList]
    rfl
  have hbefore : (Nat.toDigits 10 n ++ '-' :: ['m', 'e', 'm']).takeWhile (· != '-') =
      Nat.toDigits 10 n := by
    rw [List.takeWhile_append_of_pos, List.takeWhile_cons_of_neg (by decide), List.append_nil]
    intro c hc
    have hdigit := Nat.isDigit_of_mem_toDigits (by decide) (by decide) hc
    rw [bne_iff_ne]
    rintro rfl
    cases hdigit
  rw [generation, hdigits, hbefore]

/-- It is the number that was printed, if it can be read. -/
theorem eq_of_generation_printed {n k : Int} (hn : 0 ≤ n)
    (h : generation (.str s!"{n}-mem") = .ok k) : k = n := by
  obtain ⟨m, rfl⟩ := Int.eq_ofNat_of_zero_le hn
  rw [generation_printed, Text.readInteger_toDigits] at h
  split at h
  · cases h
  · exact (Except.ok.inj h).symm

/-- A number that has not too many digits can be read. -/
theorem generation_printed_of_lt {n : Nat} (h : n < 10 ^ Text.maxDigits) :
    generation (.str s!"{(n : Int)}-mem") = .ok (n : Int) := by
  have hlength : (Nat.toDigits 10 n).length ≤ Text.maxDigits :=
    (Nat.length_toDigits_le_iff (by decide) (by decide)).2 h
  rw [generation_printed, Text.readInteger_toDigits, if_neg (by omega)]

end Store.Memory

end ViewFinder
