import Mathlib.Data.Bool.AllAny
import ViewFinder.Proofs.Entries
import ViewFinder.Proofs.Json.Scalars

/-!
# Versions in texts

No version starts where there is no digit, so what stands before the first one does not matter
(`Version.components?_append`). Numbers with dots between them are read to the last of their digits, a
third one if and only if there is one (`Version.componentsAt?_three`, `Version.componentsAt?_two`). So a
version is found wherever it stands in a text, and is got back from its own text (`Version.ofValue_found`).
-/

namespace ViewFinder

namespace Text

theorem isDigit_decimalDigits {n : Nat} {c : Char} (hc : c ∈ decimalDigits n) : isDigit c = true := by
  rw [isDigit, digitValue?_of_isDigit (isDigit_of_mem_decimalDigits hc)]
  rfl

end Text

namespace Version

open Text

/-! ## Where digits end -/

/-- Does the text not go on with a digit? -/
def Ends (s : List Char) : Prop := ∀ c ∈ s.head?, isDigit c = false

theorem ends_nil : Ends [] := nofun

theorem ends_cons {c : Char} (hc : isDigit c = false) (s : List Char) : Ends (c :: s) := by
  rintro _ ⟨⟩
  exact hc

theorem span_of_ends {s : List Char} (h : Ends s) : s.span isDigit = ([], s) :=
  span_append (s := []) nofun h

/-! ## The first place -/

/-- No version starts where there is no digit. -/
theorem componentsAt?_of_not_isDigit {c : Char} (hc : isDigit c = false) (s : List Char) :
    componentsAt? (c :: s) = none := by
  rw [componentsAt?, span_of_ends (ends_cons hc s)]

/-- What stands before the first digit does not matter. -/
theorem components?_append {before : List Char} (h : ∀ c ∈ before, isDigit c = false) (s : List Char) :
    components? (before ++ s) = components? s := by
  induction before with
  | nil => rfl
  | cons c before ih =>
    obtain ⟨hc, hbefore⟩ := List.forall_mem_cons.1 h
    rw [List.cons_append, components?, componentsAt?_of_not_isDigit hc, Option.none_or, ih hbefore]

/-- What is found at the start comes first. -/
theorem components?_of_componentsAt? {s : List Char} {found : List Char × List Char × List Char}
    (h : componentsAt? s = some found) : components? s = some found := by
  cases s with
  | nil => cases h
  | cons c s => rw [components?, h, Option.some_or]

/-! ## The components -/

/-- Does the text go on with a dot and a digit? -/
def Continues (s : List Char) : Prop := ∃ c rest, s = '.' :: c :: rest ∧ isDigit c = true

theorem span_decimalDigits (n : Nat) {s : List Char} (h : Ends s) :
    (decimalDigits n ++ s).span isDigit = (decimalDigits n, s) :=
  span_append (fun _ => isDigit_decimalDigits) h

theorem dotDigits?_decimalDigits (n : Nat) {s : List Char} (h : Ends s) :
    dotDigits? ('.' :: (decimalDigits n ++ s)) = some (decimalDigits n, s) := by
  rw [dotDigits?, span_decimalDigits n h]
  split
  · next heq => exact absurd (Prod.ext_iff.1 heq).1 Nat.toDigits_ne_nil
  · rfl

theorem dotDigits?_of_not_continues {s : List Char} (h : ¬ Continues s) : dotDigits? s = none := by
  unfold dotDigits?
  split
  · next rest =>
    have hend : Ends rest := fun c hc => by
      obtain ⟨tail, rfl⟩ := List.head?_eq_some_iff.1 hc
      exact Bool.eq_false_iff.2 fun hdigit => h ⟨c, tail, rfl, hdigit⟩
    rw [span_of_ends hend]
  · rfl

section
variable (a b : Nat) {s : List Char}

/-- A number and a dot start a version if another number comes next. -/
theorem componentsAt?_decimalDigits : componentsAt? (decimalDigits a ++ '.' :: (decimalDigits b ++ s)) =
    (dotDigits? ('.' :: (decimalDigits b ++ s))).map fun found =>
      (decimalDigits a, found.1, ((dotDigits? found.2).map (·.1)).getD []) := by
  rw [componentsAt?, span_decimalDigits a (ends_cons (by decide) _)]
  split
  · next heq => exact absurd (Prod.ext_iff.1 heq).1 Nat.toDigits_ne_nil
  · next heq =>
    cases heq
    rfl

/-- Three numbers are read as three. -/
theorem componentsAt?_three (c : Nat) (h : Ends s) :
    componentsAt? (decimalDigits a ++ '.' :: (decimalDigits b ++ '.' :: (decimalDigits c ++ s))) =
      some (decimalDigits a, decimalDigits b, decimalDigits c) := by
  rw [componentsAt?_decimalDigits, dotDigits?_decimalDigits b (ends_cons (by decide) _), Option.map_some,
    dotDigits?_decimalDigits c h]
  rfl

/-- Two numbers are read as two, if there is no third one. -/
theorem componentsAt?_two (h : Ends s) (hs : ¬ Continues s) :
    componentsAt? (decimalDigits a ++ '.' :: (decimalDigits b ++ s)) =
      some (decimalDigits a, decimalDigits b, []) := by
  rw [componentsAt?_decimalDigits, dotDigits?_decimalDigits b h, Option.map_some,
    dotDigits?_of_not_continues hs]
  rfl

end

theorem readComponent_decimalDigits {n : Nat} (hn : n < 10 ^ maxDigits) :
    readComponent (decimalDigits n) = .ok n := by
  have hvalue : decimalValue (decimalDigits n) = n := decimalValue_toDigits n
  rw [readComponent, if_neg (Nat.not_lt.2 (length_decimalDigits_le hn)), hvalue]

/-! ## Texts -/

/-- A text is searched as it is, also the empty one, which counts as false. -/
theorem ofValue_str (s : String) :
    ofValue (.str s) = (read s.toList).mapError (.unreadable <| .tooManyDigits ·) := by
  rw [ofValue]
  · cases htruthy : (Value.str s).truthy with
    | true => rfl
    | false =>
      have hempty : s = "" := by
        rw [← Bool.not_eq_true, Value.truthy_str_iff] at htruthy
        simpa using htruthy
      subst hempty
      rfl
  · exact nofun

/-- The version is read whose components are found after a text without digits, if these are not too
many. -/
theorem ofValue_append {before s : List Char} (hbefore : ∀ d ∈ before, isDigit d = false)
    {major minor patch : List Char} (h : componentsAt? s = some (major, minor, patch)) {a b c : Nat}
    (ha : readComponent major = .ok a) (hb : readComponent minor = .ok b) (hc : readComponent patch = .ok c) :
    ofValue (.str (String.ofList (before ++ s))) = .ok ⟨a, b, c⟩ := by
  have hfound : components? (before ++ s) = some (major, minor, patch) :=
    (components?_append hbefore s).trans (components?_of_componentsAt? h)
  rw [ofValue_str, String.toList_ofList, read, hfound]
  simp only [ha, hb, hc]
  rfl

/-- A version is found wherever it stands in a text, if no digit is before it and none follows; a third
number that is left out is zero. A version is got back from its text. -/
theorem ofValue_found {a b c : Nat} (ha : a < 10 ^ maxDigits) (hb : b < 10 ^ maxDigits)
    (hc : c < 10 ^ maxDigits) {before after : String} (hbefore : ∀ d ∈ before.toList, isDigit d = false)
    (hafter : Ends after.toList) :
    ofValue (.str s!"{before}{a}.{b}.{c}{after}") = .ok ⟨a, b, c⟩ ∧
    (¬ Continues after.toList → ofValue (.str s!"{before}{a}.{b}{after}") = .ok ⟨a, b, 0⟩) ∧
    ofValue (.str (String.ofList (text ⟨a, b, c⟩))) = .ok ⟨a, b, c⟩ := by
  have hreadA := readComponent_decimalDigits ha
  have hreadB := readComponent_decimalDigits hb
  have hreadC := readComponent_decimalDigits hc
  have hdigits (n : Nat) : (ToString.toString n).toList = decimalDigits n := String.toList_ofList
  refine ⟨?_, fun hdot => ?_, ?_⟩
  · have hthree : s!"{before}{a}.{b}.{c}{after}" = String.ofList (before.toList ++
        (decimalDigits a ++ '.' :: (decimalDigits b ++ '.' :: (decimalDigits c ++ after.toList)))) := by
      simp only [← String.toList_inj, String.toList_append, String.toList_ofList, hdigits, List.append_assoc]
      rfl
    rw [hthree, ofValue_append hbefore (componentsAt?_three a b c hafter) hreadA hreadB hreadC]
  · have htwo : s!"{before}{a}.{b}{after}" = String.ofList (before.toList ++
        (decimalDigits a ++ '.' :: (decimalDigits b ++ after.toList))) := by
      simp only [← String.toList_inj, String.toList_append, String.toList_ofList, hdigits, List.append_assoc]
      rfl
    rw [htwo, ofValue_append hbefore (componentsAt?_two a b hafter hdot) hreadA hreadB (c := 0) rfl]
    rfl
  · have hnone : ∀ d ∈ ([] : List Char), isDigit d = false := nofun
    have htext : text ⟨a, b, c⟩ = [] ++
        (decimalDigits a ++ '.' :: (decimalDigits b ++ '.' :: (decimalDigits c ++ []))) := by
      rw [List.append_nil]
      rfl
    rw [htext, ofValue_append hnone (componentsAt?_three a b c ends_nil) hreadA hreadB hreadC]

/-- The version of a server that says more than its version. -/
theorem ofValue_found_release :
    ofValue (.str "CouchDB/0.8.1-incubating") = .ok ⟨0, 8, 1⟩ ∧
    ofValue (.str "CouchDB/0.8-incubating") = .ok ⟨0, 8, 0⟩ ∧
    ofValue (.str (String.ofList (text ⟨0, 8, 1⟩))) = .ok ⟨0, 8, 1⟩ := by
  have hsmall {n : Nat} (hn : n < 10 ^ 9) : n < 10 ^ maxDigits := lt_pow_maxDigits hn
  have hbefore : ∀ d ∈ ("CouchDB/" : String).toList, isDigit d = false :=
    List.all_iff_forall_prop.1 (by decide)
  have hafter : Ends ("-incubating" : String).toList := ends_cons (by decide) _
  obtain ⟨hthree, htwo, htext⟩ := ofValue_found (a := 0) (b := 8) (c := 1) (hsmall (by decide))
    (hsmall (by decide)) (hsmall (by decide)) hbefore hafter
  exact ⟨hthree, htwo (by rintro ⟨_, _, heq, -⟩; cases heq), htext⟩

end Version

end ViewFinder
