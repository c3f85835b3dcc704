import ViewFinder.Proofs.Text.Points
import ViewFinder.Text.Utf8

/-!
# Bytes of characters, read back

The bytes of a character are read as that character, whatever bytes come after them
(`Text.utf8Decode?_append`), so the bytes of a text are read as the text (`Text.utf8Decode?_flatMap`).
-/

namespace ViewFinder.Text

/-- A character is that of its code point. -/
theorem charFrom?_toNat {c : Char} {least : Nat} (h : least ≤ c.toNat) : charFrom? least c.toNat = some c := by
  have hvalid : c.toNat.isValidChar := c.valid
  rw [charFrom?, dif_pos hvalid, if_pos h]
  rfl

theorem isContinuation_add_mod (n : Nat) : isContinuation (0x80 + n % 0x40) = true := by
  rw [isContinuation, Bool.and_eq_true, decide_eq_true_eq, decide_eq_true_eq]
  omega

section
variable {a b d e : Nat} {c : Char} (rest : List Nat)

/-- One byte stands for a character of ASCII. -/
theorem utf8Decode?_one (ha : a < 0x80) :
    utf8Decode? (a :: rest) = (utf8Decode? rest).map (Char.ofNat a :: ·) := by
  rw [utf8Decode?.eq_def]
  simp only [ha, if_true]

/-- The character that two bytes stand for. -/
theorem utf8Decode?_two (ha : 0xC0 ≤ a) (ha' : a < 0xE0) (hb : isContinuation b = true)
    (hc : charFrom? 0x80 ((a - 0xC0) * 0x40 + (b - 0x80)) = some c) :
    utf8Decode? (a :: b :: rest) = (utf8Decode? rest).map (c :: ·) := by
  have hone : ¬ a < 0x80 := by omega
  rw [utf8Decode?.eq_def]
  simp only [hone, ha, ha', hb, hc, decide_true, Bool.and_true, Bool.not_true, Bool.false_eq_true, if_false,
    if_true]
  cases utf8Decode? rest <;> rfl

/-- The character that three bytes stand for. -/
theorem utf8Decode?_three (ha : 0xE0 ≤ a) (ha' : a < 0xF0) (hb : isContinuation b = true)
    (hd : isContinuation d = true)
    (hc : charFrom? 0x800 (((a - 0xE0) * 0x40 + (b - 0x80)) * 0x40 + (d - 0x80)) = some c) :
    utf8Decode? (a :: b :: d :: rest) = (utf8Decode? rest).map (c :: ·) := by
  have hone : ¬ a < 0x80 := by omega
  have htwo : ¬ a < 0xE0 := by omega
  rw [utf8Decode?.eq_def]
  simp only [hone, htwo, ha, ha', hb, hd, hc, decide_true, decide_false, Bool.and_true, Bool.and_false,
    Bool.not_true, Bool.false_eq_true, if_false, if_true]
  cases utf8Decode? rest <;> rfl

/-- The character that four bytes stand for. -/
theorem utf8Decode?_four (ha : 0xF0 ≤ a) (ha' : a < 0xF8) (hb : isContinuation b = true)
    (hd : isContinuation d = true) (he : isContinuation e = true)
    (hc : charFrom? 0x10000 ((((a - 0xF0) * 0x40 + (b - 0x80)) * 0x40 + (d - 0x80)) * 0x40 + (e - 0x80)) =
      some c) : utf8Decode? (a :: b :: d :: e :: rest) = (utf8Decode? rest).map (c :: ·) := by
  have hone : ¬ a < 0x80 := by omega
  have htwo : ¬ a < 0xE0 := by omega
  have hthree : ¬ a < 0xF0 := by omega
  rw [utf8Decode?.eq_def]
  simp only [hone, htwo, hthree, ha, ha', hb, hd, he, hc, decide_true, decide_false, Bool.and_true,
    Bool.and_false, Bool.not_true, Bool.false_eq_true, if_false, if_true]
  cases utf8Decode? rest <;> rfl

end

/-- The bytes of a character are read as it. -/
theorem utf8Decode?_append (c : Char) (rest : List Nat) :
    utf8Decode? (utf8 c ++ rest) = (utf8Decode? rest).map (c :: ·) := by
  have hlimit := toNat_lt c
  have hlow := isContinuation_add_mod
  have hpoint {n least : Nat} (hn : n = c.toNat) (hleast : least ≤ c.toNat) : charFrom? least n = some c :=
    hn ▸ charFrom?_toNat hleast
  -- The cases are the numbers of bytes.
  simp only [utf8]
  split
  · next hone =>
    rw [List.singleton_append, utf8Decode?_one rest hone, Char.ofNat_toNat]
  split
  · next hone htwo =>
    exact utf8Decode?_two rest (by omega) (by omega) (hlow _) (hpoint (by omega) (by omega))
  split
  · next hone htwo hthree =>
    exact utf8Decode?_three rest (by omega) (by omega) (hlow _) (hlow _) (hpoint (by omega) (by omega))
  · next hone htwo hthree =>
    exact utf8Decode?_four rest (by omega) (by omega) (hlow _) (hlow _) (hlow _)
      (hpoint (by omega) (by omega))

/-- The bytes of a text are read as it. -/
theorem utf8Decode?_flatMap (cs : List Char) : utf8Decode? (cs.flatMap utf8) = some cs := by
  induction cs with
  | nil => rw [List.flatMap_nil, utf8Decode?.eq_def]
  | cons c cs ih => rw [List.flatMap_cons, utf8Decode?_append, ih, Option.map_some]

/-- Each of them is a byte. -/
theorem lt_of_mem_utf8 {c : Char} {b : Nat} (hb : b ∈ utf8 c) : b < 0x100 := by
  have hlimit := toNat_lt c
  simp only [utf8] at hb
  repeat' split at hb
  all_goals
    simp only [List.mem_cons, List.not_mem_nil, or_false] at hb
    omega

end ViewFinder.Text
