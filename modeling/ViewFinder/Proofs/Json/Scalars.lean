import Mathlib.Data.List.TakeDrop
import ViewFinder.Proofs.Json.Strings
import ViewFinder.Proofs.Text.Printed

/-!
# Scalars that are printed and read

The digits of an integer are read back as the integer in front of a text that does not go on with
them (`Json.scalar_decimalInt`), a string as its text with split pairs joined (`Json.value_quote`).
-/

namespace ViewFinder

namespace Text

/-- A number that is not zero starts with another digit. -/
theorem exists_toDigits_eq_cons {n : Nat} (hn : n ≠ 0) :
    ∃ c rest, Nat.toDigits 10 n = c :: rest ∧ c ≠ '0' := by
  induction n using Nat.strongRecOn with
  | ind n ih =>
    rw [Nat.toDigits_eq_if (by decide)]
    split
    · next hsmall =>
      have hdigit : ∀ d < 10, d ≠ 0 → Nat.digitChar d ≠ '0' := by decide
      exact ⟨_, [], rfl, hdigit n hsmall hn⟩
    · next hlarge =>
      obtain ⟨c, rest, heq, hc⟩ := ih (n / 10) (by omega) (by omega)
      exact ⟨c, rest ++ _, by rw [heq]; rfl, hc⟩

theorem isDigit_of_mem_decimalDigits {n : Nat} {c : Char} (hc : c ∈ decimalDigits n) :
    c.isDigit = true :=
  Nat.isDigit_of_mem_toDigits (by decide) (by decide) hc

/-- Short numbers have not too many digits. -/
theorem lt_pow_maxDigits {n : Nat} (hn : n < 10 ^ 9) : n < 10 ^ maxDigits :=
  hn.trans_le (Nat.pow_le_pow_right (by decide) (by decide))

theorem length_decimalDigits_le {n : Nat} (hn : n < 10 ^ maxDigits) :
    (decimalDigits n).length ≤ maxDigits :=
  (Nat.length_toDigits_le_iff (by decide) (by decide)).2 hn

/-- The digits of a number start with a digit. -/
theorem exists_decimalDigits_eq_cons (n : Nat) :
    ∃ c rest, decimalDigits n = c :: rest ∧ c.isDigit = true := by
  obtain ⟨c, rest, heq⟩ := List.exists_cons_of_ne_nil (Nat.toDigits_ne_nil (n := n) (b := 10))
  refine ⟨c, rest, heq, isDigit_of_mem_decimalDigits (n := n) ?_⟩
  rw [decimalDigits, heq]
  exact List.mem_cons_self ..

/-- An integer is read back from its decimal text. -/
theorem readInteger_decimalInt {n : Int} (hn : n.natAbs < 10 ^ maxDigits) :
    readInteger (String.ofList (decimalInt n)) = .ok n := by
  rw [decimalInt]
  split
  · next hneg =>
    have hdark : ∀ c ∈ '-' :: decimalDigits n.natAbs, isOuterBlank c = false :=
      List.forall_mem_cons.2 ⟨by decide, fun c hc =>
        isOuterBlank_of_isDigit (isDigit_of_mem_decimalDigits hc)⟩
    have hgrouped : groupedDigits? (decimalDigits n.natAbs) = some (decimalDigits n.natAbs) :=
      groupedDigits?_of_digits (fun c => isDigit_of_mem_decimalDigits) Nat.toDigits_ne_nil
    have hvalue : decimalValue (decimalDigits n.natAbs) = n.natAbs := decimalValue_toDigits _
    rw [readInteger, String.toList_ofList, trimNumber_of_dark hdark]
    simp only [hgrouped, Nat.not_lt.2 (length_decimalDigits_le hn), if_false, if_true, hvalue]
    rw [show -(n.natAbs : Int) = n by omega]
  · next hneg =>
    have hlength : ¬ (Nat.toDigits 10 n.natAbs).length > maxDigits :=
      Nat.not_lt.2 (length_decimalDigits_le hn)
    rw [decimalDigits, readInteger_toDigits, if_neg hlength, show (n.natAbs : Int) = n by omega]

end Text

namespace Json

open Text

/-! ## Integers -/

/-- Does a text not go on with a number that ends before it? -/
def Ends (rest : List Char) : Prop :=
  ∀ c ∈ rest.head?, c.isDigit = false ∧ c ≠ '.' ∧ c ≠ 'e' ∧ c ≠ 'E'

theorem ends_nil : Ends [] := nofun

theorem ends_cons {c : Char} (h : c.isDigit = false ∧ c ≠ '.' ∧ c ≠ 'e' ∧ c ≠ 'E') (rest : List Char) :
    Ends (c :: rest) := fun _ hd => by
  cases hd
  exact h

section
variable {rest : List Char} (hrest : Ends rest)
include hrest

theorem wholeDigits_append (n : Nat) : wholeDigits (decimalDigits n ++ rest) = (decimalDigits n, rest) := by
  have hspan : (decimalDigits n ++ rest).span Char.isDigit = (decimalDigits n, rest) :=
    span_append (fun c => isDigit_of_mem_decimalDigits) fun c hc => (hrest c hc).1
  by_cases hn : n = 0
  · subst hn
    rfl
  · obtain ⟨c, tail, heq, hc⟩ := exists_toDigits_eq_cons hn
    rw [decimalDigits, heq] at hspan ⊢
    rw [List.cons_append, wholeDigits]
    · exact hspan
    · rintro _ ⟨⟩
      exact hc rfl

theorem fractionDigits_of_ends : fractionDigits rest = ([], rest) := by
  rw [fractionDigits]
  rintro tail rfl
  exact (hrest '.' rfl).2.1 rfl

theorem exponent?_of_ends : exponent? rest = none := by
  cases rest with
  | nil => rfl
  | cons c rest =>
    obtain ⟨-, -, he, hE⟩ := hrest c rfl
    simp only [exponent?, beq_iff_eq, Bool.or_eq_true, he, hE, or_self, if_false]

/-- The digits of a number, in front of what does not go on with them, are read as the number. -/
theorem unsignedNumber_append {n : Nat} (hn : n < 10 ^ maxDigits) (negative : Bool) :
    unsignedNumber negative (decimalDigits n ++ rest) =
      .ok (.int (if negative then -(n : Int) else n), rest) := by
  have hlength := length_decimalDigits_le hn
  have hvalue : decimalValue (decimalDigits n) = n := decimalValue_toDigits n
  rw [unsignedNumber, wholeDigits_append hrest]
  split
  · next heq =>
    obtain ⟨c, tail, hcons, -⟩ := exists_decimalDigits_eq_cons n
    cases hcons.symm.trans (Prod.ext_iff.1 heq).1
  · next heq =>
    cases heq
    simp only [fractionDigits_of_ends hrest, exponent?_of_ends hrest, List.isEmpty_nil, if_true]
    rw [if_neg (Nat.not_lt.2 hlength), hvalue]

/-- An integer is read back from its digits and its sign. -/
theorem scalar_decimalInt {n : Int} (hn : n.natAbs < 10 ^ maxDigits) :
    scalar (decimalInt n ++ rest) = .ok (.int n, rest) := by
  obtain ⟨c, tail, hcons, hc⟩ := exists_decimalDigits_eq_cons n.natAbs
  have hne {d : Char} (hd : d.isDigit = false) : c ≠ d := fun heq => by
    rw [heq, hd] at hc
    cases hc
  rw [decimalInt]
  split
  · next hneg =>
    have hread := unsignedNumber_append hrest hn true
    rw [hcons] at hread ⊢
    rw [List.cons_append, List.cons_append, scalar]
    · rw [← List.cons_append, hread, if_pos rfl, show -(n.natAbs : Int) = n by omega]
    · exact fun _ heq => hne (by decide) (List.cons.inj heq).1
  · next hneg =>
    have hread := unsignedNumber_append hrest hn false
    rw [hcons] at hread ⊢
    rw [List.cons_append, scalar]
    · rw [← List.cons_append, hread, if_neg (by decide), show (n.natAbs : Int) = n by omega]
    all_goals exact fun _ heq => hne (by decide) (List.cons.inj heq).1

end

/-- How the digits of an integer start. -/
theorem exists_decimalInt_eq_cons (n : Int) :
    ∃ c rest, decimalInt n = c :: rest ∧ (c = '-' ∨ c.isDigit = true) := by
  rw [decimalInt]
  split
  · exact ⟨'-', _, rfl, .inl rfl⟩
  · obtain ⟨c, rest, heq, hc⟩ := exists_decimalDigits_eq_cons n.natAbs
    exact ⟨c, rest, heq, .inr hc⟩

/-! ## Values -/

theorem value_of_scalar {c : Char} (hquote : c ≠ '"') (hbracket : c ≠ '[') (hbrace : c ≠ '\x7b')
    (fuel depth : Nat) (s : List Char) : value (fuel + 1) depth (c :: s) = scalar (c :: s) := by
  rw [value]
  all_goals
    rintro rest ⟨⟩
    contradiction

/-- An integer is read back. -/
theorem value_decimalInt {n : Int} (hn : n.natAbs < 10 ^ maxDigits) {rest : List Char}
    (hrest : Ends rest) (fuel depth : Nat) :
    value (fuel + 1) depth (decimalInt n ++ rest) = .ok (.int n, rest) := by
  rw [← scalar_decimalInt hrest hn]
  obtain ⟨c, tail, hcons, hc⟩ := exists_decimalInt_eq_cons n
  rw [hcons, List.cons_append]
  refine value_of_scalar ?_ ?_ ?_ fuel depth _
  all_goals
    rintro rfl
    exact absurd hc (by decide)

/-- What is read after the quote that opens a string: its text with split pairs joined. -/
theorem exists_quote_append (s : String) (rest : List Char) :
    ∃ body, quote s.toList ++ rest = '"' :: body ∧ stringRest body = .ok ((whole s).toList, rest) := by
  refine ⟨(points s.toList).flatMap escapePoint ++ '"' :: rest, ?_, ?_⟩
  · rw [quote, List.cons_append, List.append_assoc, List.singleton_append]
  · rw [stringRest_escaped lt_of_mem_points, whole, String.toList_ofList]

/-- A string is read back with the halves of each pair joined. -/
theorem value_quote (s : String) (fuel depth : Nat) (rest : List Char) :
    value (fuel + 1) depth (quote s.toList ++ rest) = .ok (.str (whole s), rest) := by
  obtain ⟨body, hbody, hread⟩ := exists_quote_append s rest
  rw [hbody, value, hread]
  exact congrArg (fun t => Except.ok (Value.str t, rest)) String.ofList_toList

end Json

end ViewFinder
