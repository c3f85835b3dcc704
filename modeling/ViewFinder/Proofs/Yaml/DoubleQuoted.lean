import Mathlib.Algebra.Group.Nat.Defs
import ViewFinder.Proofs.Text.Points
import ViewFinder.Proofs.Yaml.QuotedScalar

/-!
# Scalars between double quotes

Between double quotes every text can be written, code point by code point, and is read back as it was
(`Scalar.reads_doubleChars`). A line is folded after a backslash; what is skipped there are the
blanks at the beginning of the next line, so that a blank of the text needs a backslash of its own.
-/

namespace ViewFinder.Yaml

namespace Scalar

/-! ## Hexadecimal digits -/

theorem hexNumber?_append_singleton (ds : List Char) (c : Char) :
    hexNumber? (ds ++ [c]) =
      (hexNumber? ds).bind fun n => (Json.hexValue? c).map (16 * n + ·) := by
  rw [hexNumber?, hexNumber?, List.foldlM_append]
  cases ds.foldlM (fun n c => (Json.hexValue? c).map (16 * n + ·)) 0 with
  | none => rfl
  | some n =>
    simp only [bind, Option.bind, List.foldlM]
    cases Json.hexValue? c <;> rfl

theorem hexValue?_digitChar : ∀ d < 16, Json.hexValue? (Nat.digitChar d).toUpper = some d := by
  decide

theorem hexNumber?_toDigits (n : Nat) :
    hexNumber? ((Nat.toDigits 16 n).map Char.toUpper) = some n := by
  induction n using Nat.strong_induction_on with
  | _ n ih =>
  rw [Nat.toDigits_eq_if (by decide)]
  split
  · next hdigit =>
    have hvalue := hexValue?_digitChar n hdigit
    simp [hexNumber?, hvalue]
  · next hmore =>
    have hvalue := hexValue?_digitChar (n % 16) (Nat.mod_lt _ (by decide))
    rw [List.map_append, List.map_singleton, hexNumber?_append_singleton, ih (n / 16) (by omega)]
    simp [hvalue, Nat.div_add_mod]

theorem hexNumber?_hexDigits (width n : Nat) :
    hexNumber? ((Text.hexDigits width n).map Char.toUpper) = some n := by
  have hzeros (k : Nat) (ds : List Char) :
      hexNumber? (List.replicate k '0' ++ ds) = hexNumber? ds := by
    induction k with
    | zero => rfl
    | succ k ih => exact ih
  rw [Text.hexDigits, List.map_append, List.map_replicate]
  exact (hzeros _ _).trans (hexNumber?_toDigits n)

theorem length_hexDigits {width n : Nat} (hwidth : 0 < width) (hn : n < 16 ^ width) :
    (Text.hexDigits width n).length = width := by
  have hlength := (Nat.length_toDigits_le_iff (by decide) hwidth).2 hn
  rw [Text.hexDigits, List.length_append, List.length_replicate]
  omega

/-! ## Escapes -/

theorem escaped_letter {c letter : Char} (h : escapeLetter? c = some letter) (fuel : Nat)
    (s : List Char) : escaped fuel (letter :: s) = .ok ([c], s) := by
  unfold escapeLetter? at h
  split at h <;> cases h <;> rfl

theorem escaped_code {letter : Char} {width n : Nat} (hletter : escapeChar? letter = none)
    (hdigits : escapeDigits? letter = some width) (hwidth : 0 < width) (hn : n < 16 ^ width)
    (hpoint : n < 0x110000) (fuel : Nat) (s : List Char) :
    escaped fuel (letter :: ((Text.hexDigits width n).map Char.toUpper ++ s)) =
      .ok (Text.ofPoint n, s) := by
  have hlength : ((Text.hexDigits width n).map Char.toUpper).length = width := by
    rw [List.length_map, length_hexDigits hwidth hn]
  have hcode : ofCode n = .ok (Text.ofPoint n) := by
    rw [ofCode, if_neg (by omega), if_neg (by omega)]
  have htake : ((Text.hexDigits width n).map Char.toUpper ++ s).take width =
      (Text.hexDigits width n).map Char.toUpper := List.take_left' hlength
  have hdrop : ((Text.hexDigits width n).map Char.toUpper ++ s).drop width = s :=
    List.drop_left' hlength
  have hshort : ¬ ((Text.hexDigits width n).map Char.toUpper ++ s).length < width := by
    rw [List.length_append, hlength]
    omega
  simp only [escaped, hletter, hdigits, if_neg hshort, htake, hdrop, hexNumber?_hexDigits, hcode]
  rfl

/-- Can a code point stand unescaped between double quotes? -/
def IsShown (n : Nat) : Prop :=
  0x20 ≤ n ∧ n ≤ 0x7E ∨ 0xA0 ≤ n ∧ n ≤ 0xFFFD ∧ n ≠ 0xFEFF ∧ Text.isHalf n = false

/-- How a code point is escaped: by a letter, or by a letter that announces its digits; unless it
stands for itself. -/
theorem escape?_cases {n : Nat} (hn : n < 0x110000) :
    (∃ c letter, Text.char? n = some c ∧ escapeLetter? c = some letter ∧
      Yaml.escape? n = some ['\\', letter]) ∨
    (∃ letter width, escapeChar? letter = none ∧ escapeDigits? letter = some width ∧ 0 < width ∧
      n < 16 ^ width ∧
      Yaml.escape? n = some ('\\' :: letter :: (Text.hexDigits width n).map Char.toUpper)) ∨
    (Text.char? n).bind escapeLetter? = none ∧ IsShown n ∧ Yaml.escape? n = none := by
  cases hletter : (Text.char? n).bind escapeLetter? with
  | some letter =>
    obtain ⟨c, hc, hletter'⟩ := Option.bind_eq_some_iff.1 hletter
    exact .inl ⟨c, letter, hc, hletter', by simp only [Yaml.escape?, hletter]⟩
  | none =>
    refine .inr ?_
    simp only [Yaml.escape?, hletter]
    split
    · next hshown =>
      refine .inr ⟨trivial, ?_, rfl⟩
      simpa [IsShown, and_assoc] using hshown
    · refine .inl ?_
      split
      · exact ⟨'x', 2, rfl, rfl, by decide, by omega, rfl⟩
      · split
        · exact ⟨'u', 4, rfl, rfl, by decide, by omega, rfl⟩
        · exact ⟨'U', 8, rfl, rfl, by decide, by omega, rfl⟩

/-- The character that a letter stands for. -/
theorem ofPoint_of_char? {n : Nat} {c : Char} (h : Text.char? n = some c) (hmark : c ≠ Text.mark) :
    Text.ofPoint n = [c] := by
  rw [Text.char?] at h
  split at h
  · cases h
  · next hhalf =>
    cases h
    rw [Text.ofPoint, if_neg hhalf, if_neg (by rintro rfl; exact hmark rfl)]

namespace Reads

variable {s t rest : List Char} (h : Reads true s t rest)
include h

/-- A code point that is escaped. -/
theorem escape? {n : Nat} {letters : List Char} (hn : n < 0x110000)
    (hletters : Yaml.escape? n = some letters) :
    Reads true (letters ++ s) (Text.ofPoint n ++ t) rest := by
  rcases escape?_cases hn with ⟨c, letter, hc, hletter, heq⟩ |
    ⟨letter, width, hletter, hdigits, hwidth, hwide, heq⟩ | ⟨-, -, heq⟩
  · cases heq.symm.trans hletters
    rw [ofPoint_of_char? hc (by rintro rfl; cases hletter)]
    exact h.escape (escaped_letter hletter _ s) (Nat.le_succ _)
  · cases heq.symm.trans hletters
    exact h.escape (escaped_code hletter hdigits hwidth hwide hn _ s)
      (List.suffix_append (letter :: (Text.hexDigits width n).map Char.toUpper) s).length_le
  · cases heq.symm.trans hletters

/-- A fold, before a character that is no blank. -/
theorem fold {indent : Nat} (hindent : 0 < indent) (hs : ∀ c ∈ s.head?, Solid c) :
    Reads true ('\\' :: (newLine indent ++ s)) t rest := by
  have hescaped : escaped (newLine indent ++ s).length (newLine indent ++ s) = .ok ([], s) :=
    quotedBreaks_blanks hindent hs _
  have hread := h.escape hescaped (List.suffix_append _ _).length_le
  exact hread

end Reads

/-! ## Code points -/

/-- A code point that is not escaped stands for itself. -/
theorem unescaped {n : Nat} (h : Yaml.escape? n = none) (hn : n < 0x110000) :
    (Char.ofNat n).toNat = n ∧ escapeLetter? (Char.ofNat n) = none := by
  rcases escape?_cases hn with ⟨c, letter, -, -, heq⟩ | ⟨letter, width, -, -, -, -, heq⟩ |
    ⟨hletter, hshown, -⟩
  · cases heq.symm.trans h
  · cases heq.symm.trans h
  · have hhalf : Text.isHalf n = false := by
      rcases hshown with ⟨hlow, hhigh⟩ | ⟨-, -, -, hhalf⟩
      · simp only [Text.isHalf, Bool.and_eq_false_iff, decide_eq_false_iff_not]
        omega
      · exact hhalf
    rw [Text.char?, hhalf] at hletter
    exact ⟨Text.toNat_ofNat_of_not_half hhalf hn, hletter⟩

theorem solid_of_unescaped {c : Char} (h : escapeLetter? c = none) (hblank : c ≠ ' ') : Solid c := by
  have htab : c ≠ '\t' := by rintro rfl; cases h
  have hfeed : c ≠ '\n' := by rintro rfl; cases h
  have hreturn : c ≠ '\r' := by rintro rfl; cases h
  have hnext : c ≠ '\x85' := by rintro rfl; cases h
  have hseparator : c ≠ '\u2028' := by rintro rfl; cases h
  have hparagraph : c ≠ '\u2029' := by rintro rfl; cases h
  simp [Solid, isBlank, isBreak, hblank, htab, hfeed, hreturn, hnext, hseparator, hparagraph]

/-- An unescaped code point that is no blank stands for a character that is solid. -/
theorem solid_of_not_startsBlank {n : Nat} {ns : List Nat} (h : Yaml.escape? n = none)
    (hn : n < 0x110000) (hstart : startsBlank (n :: ns) = false) : Solid (Char.ofNat n) := by
  obtain ⟨hcode, hletter⟩ := unescaped h hn
  refine solid_of_unescaped hletter fun hc => ?_
  rw [hc] at hcode
  rw [← hcode] at hstart
  cases hstart

theorem not_quote_of_unescaped {c : Char} (h : escapeLetter? c = none) : c ≠ '"' ∧ c ≠ '\\' := by
  refine ⟨?_, ?_⟩ <;> rintro rfl <;> cases h

theorem escape?_backslash {n : Nat} {letters : List Char} (hn : n < 0x110000)
    (h : Yaml.escape? n = some letters) : letters.head? = some '\\' := by
  rcases escape?_cases hn with ⟨c, letter, -, -, heq⟩ | ⟨letter, width, -, -, -, -, heq⟩ | ⟨-, -, heq⟩
  · cases heq.symm.trans h
    rfl
  · cases heq.symm.trans h
    rfl
  · cases heq.symm.trans h

/-- A text that starts with a blank. -/
theorem eq_of_startsBlank {n : Nat} {ns : List Nat} (h : startsBlank (n :: ns) = true) :
    n = ' '.toNat :=
  Option.some.inj (beq_iff_eq.1 h)

section
variable (indent : Nat) (fold first fresh : Bool) (column : Nat)

/-- How a code point is written: escaped, or as it is, with a fold after it in the one case and
before it in the other where the line is too long. -/
theorem doubleChars_cons (n : Nat) (ns : List Nat) :
    (∃ letters, Yaml.escape? n = some letters ∧
      ((∃ column', doubleChars indent fold first fresh column (n :: ns) =
          letters ++ doubleChars indent fold false true column' ns) ∨
        doubleChars indent fold first fresh column (n :: ns) = letters ++
          (doubleFold indent ns ++ doubleChars indent fold false true (foldColumn indent ns) ns))) ∨
    Yaml.escape? n = none ∧
      ((∃ column', doubleChars indent fold first fresh column (n :: ns) =
          Char.ofNat n :: doubleChars indent fold false false column' ns) ∨
        width < column ∧ ∃ column', doubleChars indent fold first fresh column (n :: ns) =
          doubleFold indent (n :: ns) ++ Char.ofNat n ::
            doubleChars indent fold false false column' ns) := by
  rw [doubleChars]
  cases hletters : Yaml.escape? n with
  | some letters =>
    refine .inl ⟨letters, rfl, ?_⟩
    simp only
    split
    · exact .inr (List.append_assoc ..)
    · exact .inl ⟨_, rfl⟩
  | none =>
    refine .inr ⟨rfl, ?_⟩
    simp only
    split
    · next hfold =>
      simp only [Bool.and_eq_true, decide_eq_true_eq] at hfold
      exact .inr ⟨hfold.2, _, rfl⟩
    · exact .inl ⟨_, rfl⟩

/-- What is written starts with no blank if the text does not. -/
theorem head_doubleChars {ns : List Nat} (hns : ∀ n ∈ ns, n < 0x110000)
    (hblank : startsBlank ns = false) (rest : List Char) :
    ∀ c ∈ (doubleChars indent fold first fresh column ns ++ '"' :: rest).head?, Solid c := by
  have hbackslash : Solid '\\' := ⟨rfl, rfl⟩
  cases ns with
  | nil =>
    rintro c ⟨⟩
    exact ⟨rfl, rfl⟩
  | cons n ns =>
    intro c hc
    rcases doubleChars_cons indent fold first fresh column n ns with
      ⟨letters, hletters, heq⟩ | ⟨hletters, heq⟩
    · obtain ⟨more, rfl⟩ := List.head?_eq_some_iff.1
        (escape?_backslash (hns n (List.mem_cons_self ..)) hletters)
      rcases heq with ⟨column', heq⟩ | heq
      · rw [heq] at hc
        cases hc
        exact hbackslash
      · rw [heq] at hc
        cases hc
        exact hbackslash
    · rcases heq with ⟨column', heq⟩ | ⟨-, column', heq⟩
      · rw [heq] at hc
        cases hc
        exact solid_of_not_startsBlank hletters (hns n (List.mem_cons_self ..)) hblank
      · rw [heq] at hc
        cases hc
        exact hbackslash

theorem lineBreak?_of_solid {s : List Char} (hs : ∀ c ∈ s.head?, Solid c) :
    lineBreak? (s.dropWhile isBlank) = none := by
  rw [← List.nil_append s, ← List.replicate_zero, dropWhile_blanks hs 0]
  exact lineBreak?_eq_none fun c hc => (hs c hc).2

/-- No line ends after blanks: the end of a line is escaped. -/
theorem lineBreak?_doubleChars {ns : List Nat} (hns : ∀ n ∈ ns, n < 0x110000) (rest : List Char) :
    lineBreak? ((doubleChars indent fold first fresh column ns ++ '"' :: rest).dropWhile isBlank) =
      none := by
  induction ns generalizing first fresh column with
  | nil => rfl
  | cons n ns ih =>
    by_cases hblank : startsBlank (n :: ns) = true
    · obtain rfl := eq_of_startsBlank hblank
      rcases doubleChars_cons indent fold first fresh column ' '.toNat ns with
        ⟨letters, hletters, -⟩ | ⟨-, ⟨column', heq⟩ | ⟨-, column', heq⟩⟩
      · cases hletters
      · rw [heq]
        exact ih _ _ _ (List.forall_mem_cons.1 hns).2
      · rw [heq]
        rfl
    · exact lineBreak?_of_solid (head_doubleChars _ _ _ _ _ hns (Bool.eq_false_iff.2 hblank) rest)

end

section
variable {indent : Nat} (hindent : 0 < indent) (hwidth : indent + 1 ≤ width) (fold : Bool)
include hindent hwidth

omit hwidth in
/-- A fold, before a blank with a backslash of its own or before another character. -/
theorem reads_doubleFold {ns : List Nat} {s t rest : List Char}
    (hblank : startsBlank ns = true → Reads true ('\\' :: s) t rest)
    (hread : startsBlank ns = false → Reads true s t rest ∧ ∀ c ∈ s.head?, Solid c) :
    Reads true (doubleFold indent ns ++ s) t rest := by
  have hbackslash : Solid '\\' := ⟨rfl, rfl⟩
  rw [doubleFold, List.cons_append, List.append_assoc]
  cases hstart : startsBlank ns with
  | true => exact (hblank hstart).fold hindent fun c hc => Option.mem_some_iff.1 hc ▸ hbackslash
  | false => exact (hread hstart).1.fold hindent (hread hstart).2

/-- What is written between double quotes is read back, also after a backslash if it starts with a
blank: the line is not too long, so that the blank is not folded away from the backslash. -/
theorem reads_doubleChars_of_start {ns : List Nat} (hns : ∀ n ∈ ns, n < 0x110000) (rest : List Char)
    (first fresh : Bool) (column : Nat) :
    let written := doubleChars indent fold first fresh column ns ++ '"' :: rest
    Reads true written (Text.ofPoints ns) rest ∧
      (startsBlank ns = true → column ≤ width →
        Reads true ('\\' :: written) (Text.ofPoints ns) rest) := by
  induction ns generalizing first fresh column with
  | nil => exact ⟨.close_double, nofun⟩
  | cons n ns ih =>
    obtain ⟨hn, hmore⟩ := List.forall_mem_cons.1 hns
    have ih := ih hmore
    -- A code point that stands for itself.
    have hchar (hletters : Yaml.escape? n = none) (column : Nat) :
        Reads true (Char.ofNat n :: (doubleChars indent fold false false column ns ++ '"' :: rest))
          (Text.ofPoints (n :: ns)) rest := by
      obtain ⟨hcode, hletter⟩ := unescaped hletters hn
      by_cases hc : Char.ofNat n = ' '
      · rw [hc] at hcode
        subst hcode
        exact (ih false false column).1.blank (lineBreak?_doubleChars _ _ _ _ _ hmore rest)
      · have hread := (ih false false column).1.char (solid_of_unescaped hletter hc)
          (fun _ => not_quote_of_unescaped hletter) nofun
        rwa [hcode] at hread
    -- A blank after a backslash.
    have hblank (hstart : startsBlank (n :: ns) = true) (column : Nat) :
        Reads true
          ('\\' :: Char.ofNat n :: (doubleChars indent fold false false column ns ++ '"' :: rest))
          (Text.ofPoints (n :: ns)) rest := by
      obtain rfl := eq_of_startsBlank hstart
      have hescaped (s : List Char) : escaped (' ' :: s).length (' ' :: s) = .ok ([' '], s) := rfl
      exact (ih false false column).1.escape (hescaped _) (Nat.le_succ _)
    rcases doubleChars_cons indent fold first fresh column n ns with
      ⟨letters, hletters, heq⟩ | ⟨hletters, heq⟩
    · refine ⟨?_, fun hstart => ?_⟩
      · rcases heq with ⟨column', heq⟩ | heq
        · rw [heq, List.append_assoc]
          exact (ih false true column').1.escape? hn hletters
        · rw [heq, List.append_assoc, List.append_assoc]
          refine (reads_doubleFold hindent (fun hstart => ?_) fun hstart => ?_).escape? hn hletters
          · refine (ih false true _).2 hstart ?_
            rwa [foldColumn, if_pos hstart]
          · exact ⟨(ih false true _).1, head_doubleChars _ _ _ _ _ hmore hstart rest⟩
      · rw [eq_of_startsBlank hstart] at hletters
        cases hletters
    · rcases heq with ⟨column', heq⟩ | ⟨hcolumn, column', heq⟩
      · rw [heq]
        exact ⟨hchar hletters column', fun hstart _ => hblank hstart column'⟩
      · rw [heq, List.append_assoc]
        refine ⟨?_, fun _ hshort => absurd hshort (Nat.not_le.2 hcolumn)⟩
        refine reads_doubleFold hindent (fun hstart => hblank hstart column') fun hstart =>
          ⟨hchar hletters column', fun c hc => ?_⟩
        exact Option.mem_some_iff.1 hc ▸ solid_of_not_startsBlank hletters hn hstart

/-- What is written between double quotes is read back. -/
theorem reads_doubleChars (s rest : List Char) (column : Nat) :
    Reads true (doubleChars indent fold true true column (Text.points s) ++ '"' :: rest)
      (Text.ofPoints (Text.points s)) rest :=
  (reads_doubleChars_of_start hindent hwidth fold Text.lt_of_mem_points rest true true column).1

end

end Scalar

end ViewFinder.Yaml
