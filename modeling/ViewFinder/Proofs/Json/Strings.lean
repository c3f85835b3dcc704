import ViewFinder.Json.Printer
import ViewFinder.Json.Reader
import ViewFinder.Proofs.Text.Halves

/-!
# Strings that are printed and read

In the JSON text of a string a code point is a character, or one or two UTF-16 units, and is read as
what it is (`Json.pieces_escapePoint`). Units are put together, though: a text is read back with the
halves of each pair joined (`Json.stringRest_escaped`), that is as it was, unless it splits a pair.
-/

namespace ViewFinder

namespace Json

open Text

/-! ## Units -/

theorem hexValue?_digitChar : ∀ d < 16, hexValue? (Nat.digitChar d) = some d := by decide

/-- The last digit of a number, of which more than one are written. -/
theorem hexDigits_succ {width : Nat} (hwidth : 0 < width) (n : Nat) :
    hexDigits (width + 1) n = hexDigits width (n / 16) ++ [Nat.digitChar (n % 16)] := by
  rw [hexDigits, hexDigits]
  rcases Nat.lt_or_ge n 16 with hn | hn
  · obtain ⟨zeros, rfl⟩ := Nat.exists_eq_succ_of_ne_zero (Nat.ne_of_gt hwidth)
    rw [Nat.toDigits_of_lt_base hn, Nat.div_eq_of_lt hn, Nat.mod_eq_of_lt hn,
      Nat.toDigits_of_lt_base (by decide)]
    exact congrArg (· ++ _) List.replicate_succ'
  · rw [Nat.toDigits_eq_if (by decide), if_neg (Nat.not_lt.2 hn)]
    simp only [List.length_append, List.length_singleton, Nat.add_sub_add_right, List.append_assoc]

/-- The four digits of a unit. -/
theorem hexDigits_four {n : Nat} (hn : n < 0x10000) : hexDigits 4 n = [Nat.digitChar (n / 4096),
    Nat.digitChar (n / 256 % 16), Nat.digitChar (n / 16 % 16), Nat.digitChar (n % 16)] := by
  have hhundreds : n / 16 / 16 = n / 256 := Nat.div_div_eq_div_mul ..
  have hthousands : n / 256 / 16 = n / 4096 := Nat.div_div_eq_div_mul ..
  rw [hexDigits_succ (by decide), hexDigits_succ (by decide), hexDigits_succ (by decide), hhundreds,
    hthousands, hexDigits, Nat.toDigits_of_lt_base (by omega)]
  rfl

/-- A unit is read back from its escape. -/
theorem pieces_unitEscape {n : Nat} (hn : n < 0x10000) (s : List Char) :
    pieces (unitEscape n ++ s) = consPiece (.unit n) (pieces s) := by
  have hunit : unit? (Nat.digitChar (n / 4096)) (Nat.digitChar (n / 256 % 16))
      (Nat.digitChar (n / 16 % 16)) (Nat.digitChar (n % 16)) = some n := by
    simp only [unit?, hexValue?_digitChar _ (by omega : n / 4096 < 16),
      hexValue?_digitChar _ (by omega : n / 256 % 16 < 16),
      hexValue?_digitChar _ (by omega : n / 16 % 16 < 16),
      hexValue?_digitChar _ (by omega : n % 16 < 16), bind, Option.bind, pure, Option.some.injEq]
    omega
  rw [unitEscape, hexDigits_four hn]
  simp only [List.cons_append, List.nil_append, pieces, hunit]

/-! ## Code points -/

/-- The code points that are printed as a letter after a backslash. -/
def lettered : List Nat := [34, 92, 10, 13, 9, 12, 8]

/-- Is the code point printed as a character, perhaps with a backslash? -/
def isShown (n : Nat) : Bool := (32 ≤ n && n ≤ 126) || lettered.contains n

/-- How a code point is printed: as a letter after a backslash, as itself, as a unit or as two. -/
inductive Escaped (n : Nat) : List Char → Prop
  | letter (letter : Char) (hshown : isShown n = true)
    (hletter : shortEscape? letter = some (Char.ofNat n)) : Escaped n ['\\', letter]
  | itself (hshown : isShown n = true) (hquote : Char.ofNat n ≠ '"') (hslash : Char.ofNat n ≠ '\\')
    (hspace : 32 ≤ n) : Escaped n [Char.ofNat n]
  | unit (hhidden : isShown n = false) (hn : n < 0x10000) : Escaped n (unitEscape n)
  | pair (hhidden : isShown n = false) (hn : 0x10000 ≤ n) :
    Escaped n (unitEscape (highHalf n) ++ unitEscape (lowHalf n))

theorem escaped_escapePoint {n : Nat} (hn : n < 0x110000) : Escaped n (escapePoint n) := by
  by_cases hletter : n ∈ lettered
  · simp only [lettered, List.mem_cons, List.not_mem_nil, or_false] at hletter
    rcases hletter with rfl | rfl | rfl | rfl | rfl | rfl | rfl
    · exact .letter '"' rfl rfl
    · exact .letter '\\' rfl rfl
    · exact .letter 'n' rfl rfl
    · exact .letter 'r' rfl rfl
    · exact .letter 't' rfl rfl
    · exact .letter 'f' rfl rfl
    · exact .letter 'b' rfl rfl
  · have hne (c : Char) (hc : c.toNat ∈ lettered) : Char.ofNat n ≠ c := fun heq => by
      refine hletter (eq_toNat_of_ofNat heq ?_ ▸ hc)
      rintro rfl
      exact absurd hc (by decide)
    have hshown : isShown n = (decide (32 ≤ n) && decide (n ≤ 126)) := by
      rw [isShown, Bool.eq_false_iff.2 fun h => hletter (List.contains_iff_mem.1 h), Bool.or_false]
    simp only [escapePoint, beq_iff_eq, hne _ (by decide : '"'.toNat ∈ lettered),
      hne _ (by decide : '\\'.toNat ∈ lettered), hne _ (by decide : '\n'.toNat ∈ lettered),
      hne _ (by decide : '\r'.toNat ∈ lettered), hne _ (by decide : '\t'.toNat ∈ lettered),
      hne _ (by decide : '\x0c'.toNat ∈ lettered), hne _ (by decide : '\x08'.toNat ∈ lettered),
      if_false, ← hshown]
    split
    · next h =>
      refine .itself h (hne _ (by decide)) (hne _ (by decide)) ?_
      rw [hshown, Bool.and_eq_true, decide_eq_true_eq] at h
      exact h.1
    · next h =>
      split
      · next hlow => exact .unit (Bool.eq_false_iff.2 h) hlow
      · next hlow => exact .pair (Bool.eq_false_iff.2 h) (Nat.le_of_not_lt hlow)

/-- The pieces of a string that a code point is read as. -/
def spelled (n : Nat) : List Piece :=
  if isShown n then [.char (Char.ofNat n)]
  else if n < 0x10000 then [.unit n] else [.unit (highHalf n), .unit (lowHalf n)]

theorem pieces_cons {c : Char} (hquote : c ≠ '"') (hslash : c ≠ '\\') (hspace : 32 ≤ c.toNat)
    (s : List Char) : pieces (c :: s) = consPiece (.char c) (pieces s) := by
  have hplain : (c.toNat < 32 || c == '\\') = false := by
    rw [Bool.or_eq_false_iff, decide_eq_false_iff_not, beq_eq_false_iff_ne]
    exact ⟨Nat.not_lt.2 hspace, hslash⟩
  rw [pieces, hplain, if_neg (by decide)]
  · exact hquote
  · exact fun _ _ _ _ _ heq _ => hslash heq
  · exact fun _ _ heq _ => hslash heq

/-- A code point that is shown is that of a character, and no half. -/
theorem isHalf_of_isShown {n : Nat} (h : isShown n = true) : isHalf n = false ∧ n < 0x110000 := by
  have hn : n ≤ 126 := by
    simp only [isShown, lettered, Bool.or_eq_true, Bool.and_eq_true, decide_eq_true_eq,
      List.contains_iff_mem, List.mem_cons, List.not_mem_nil, or_false] at h
    omega
  exact ⟨not_isHalf_of_lt (by omega), by omega⟩

/-- A code point is read back as its pieces. -/
theorem pieces_escapePoint {n : Nat} (hn : n < 0x110000) (s : List Char) :
    pieces (escapePoint n ++ s) = (pieces s).map fun (ps, rest) => (spelled n ++ ps, rest) := by
  have hescaped := escaped_escapePoint hn
  generalize escapePoint n = letters at hescaped ⊢
  cases hescaped with
  | letter letter hshown hletter =>
    rw [spelled, if_pos hshown]
    generalize Char.ofNat n = c at hletter ⊢
    unfold shortEscape? at hletter
    split at hletter <;> cases hletter <;> rfl
  | itself hshown hquote hslash hspace =>
    obtain ⟨hhalf, hn⟩ := isHalf_of_isShown hshown
    rw [spelled, if_pos hshown, List.singleton_append, pieces_cons hquote hslash]
    · rfl
    · rwa [toNat_ofNat_of_not_half hhalf hn]
  | unit hhidden hunit =>
    rw [spelled, hhidden, if_neg (by decide), if_pos hunit, pieces_unitEscape hunit]
    rfl
  | pair hhidden hbeyond =>
    have hhigh : highHalf n < 0x10000 := by
      unfold highHalf
      omega
    have hlow : lowHalf n < 0x10000 := by
      unfold lowHalf
      omega
    rw [spelled, hhidden, if_neg (by decide), if_neg (Nat.not_lt.2 hbeyond), List.append_assoc,
      pieces_unitEscape hhigh, pieces_unitEscape hlow]
    cases pieces s <;> rfl

/-! ## Texts -/

/-- A first half that is held back stays what it is, unless a second half follows. -/
theorem joinPieces_held {ps : List Piece} (h : ∀ n, .unit n ∈ ps.head? → isLow n = false) (high : Nat) :
    joinPieces (some high) ps = ofPoint high ++ joinPieces none ps := by
  cases ps with
  | nil => rw [joinPieces, joinPieces, List.append_nil]
  | cons p ps =>
    cases p with
    | char c => rw [joinPieces, joinPieces]
    | unit n =>
      rw [joinPieces, joinPieces, h n rfl, if_neg (by decide)]
      split <;> rfl

/-- The text of a code point and of those that are read after it. -/
theorem ofPoints_joined_cons {n : Nat} (h : isHigh n = false) (ns : List Nat) :
    ofPoints (joined (n :: ns)) = ofPoint n ++ ofPoints (joined ns) := by
  rw [joined_cons_of_not_isHigh h]
  rfl

/-- The pieces of a second half are the half alone. -/
theorem spelled_of_isLow {n : Nat} (h : isLow n = true) : spelled n = [.unit n] := by
  have hrange : 0xDC00 ≤ n ∧ n < 0xE000 := by simpa [isLow] using h
  have hhidden : ¬ isShown n = true := fun hshown => by
    rw [not_isLow_of_not_isHalf (isHalf_of_isShown hshown).1] at h
    cases h
  rw [spelled, if_neg hhidden, if_pos (by omega)]

/-- The pieces of another code point do not start with a second half. -/
theorem head_spelled {n : Nat} (hn : n < 0x110000) (hlow : isLow n = false) (ps : List Piece) :
    ∀ k, .unit k ∈ (spelled n ++ ps).head? → isLow k = false := by
  rw [spelled]
  split
  · exact nofun
  split
  · rintro k ⟨⟩
    exact hlow
  · rintro k ⟨⟩
    exact not_isLow_of_isHigh (isHigh_highHalf hn)

section
variable {ns : List Nat} (hnone : joinPieces none (ns.flatMap spelled) = ofPoints (joined ns))
  (hheld : ∀ high, isHigh high = true →
    joinPieces (some high) (ns.flatMap spelled) = ofPoints (joined (high :: ns)))
include hnone hheld

theorem joinPieces_spelled_append {n : Nat} (hn : n < 0x110000) :
    joinPieces none (spelled n ++ ns.flatMap spelled) = ofPoints (joined (n :: ns)) := by
  by_cases hshown : isShown n = true
  · have hhalf := (isHalf_of_isShown hshown).1
    have hchar : ofPoint n = [Char.ofNat n] := by
      rw [ofPoint, hhalf, if_neg (by decide), if_neg (by rintro rfl; cases hshown)]
    rw [spelled, if_pos hshown, ofPoints_joined_cons (not_isHigh_of_not_isHalf hhalf), hchar, ← hnone]
    rfl
  by_cases hunit : n < 0x10000
  · rw [spelled, if_neg hshown, if_pos hunit, List.singleton_append, joinPieces]
    cases hhigh : isHigh n with
    | true => rw [if_pos rfl, hheld n hhigh]
    | false => rw [if_neg (by decide), hnone, ofPoints_joined_cons hhigh]
  · have hbeyond : 0x10000 ≤ n := Nat.le_of_not_lt hunit
    rw [spelled, if_neg hshown, if_neg hunit, List.cons_append, List.singleton_append, joinPieces,
      if_pos (isHigh_highHalf hn), joinPieces, if_pos (isLow_lowHalf n), joinPair_halves hbeyond, hnone,
      ofPoints_joined_cons (not_isHigh_of_not_isHalf (not_isHalf_of_beyond hbeyond))]

end

/-- The pieces of a text are put together to its code points, the halves of pairs joined; so they are
after a first half that is held back. -/
theorem joinPieces_spelled {ns : List Nat} (hns : ∀ n ∈ ns, n < 0x110000) :
    joinPieces none (ns.flatMap spelled) = ofPoints (joined ns) ∧
      ∀ high, isHigh high = true →
        joinPieces (some high) (ns.flatMap spelled) = ofPoints (joined (high :: ns)) := by
  induction ns with
  | nil => exact ⟨rfl, fun high _ => (List.append_nil _).symm⟩
  | cons n ns ih =>
    obtain ⟨hn, hrest⟩ := List.forall_mem_cons.1 hns
    obtain ⟨hnone, hheld⟩ := ih hrest
    have hread := joinPieces_spelled_append hnone hheld hn
    rw [List.flatMap_cons]
    refine ⟨hread, fun high hhigh => ?_⟩
    cases hlow : isLow n with
    | true =>
      have hpair : isPair high n = true := by rw [isPair, hhigh, hlow]; rfl
      rw [spelled_of_isLow hlow, List.singleton_append, joinPieces, if_pos hlow, hnone, joined, if_pos hpair]
      rfl
    | false =>
      rw [joinPieces_held (head_spelled hn hlow _), hread, joined_cons_cons_of_not_isLow hlow]
      rfl

/-- What is read of the letters of a text, up to the closing quote. -/
theorem stringRest_escaped {ns : List Nat} (hns : ∀ n ∈ ns, n < 0x110000) (rest : List Char) :
    stringRest (ns.flatMap escapePoint ++ '"' :: rest) = .ok (ofPoints (joined ns), rest) := by
  have hpieces : pieces (ns.flatMap escapePoint ++ '"' :: rest) = .ok (ns.flatMap spelled, rest) := by
    induction ns with
    | nil => rfl
    | cons n ns ih =>
      obtain ⟨hn, hns⟩ := List.forall_mem_cons.1 hns
      rw [List.flatMap_cons, List.append_assoc, pieces_escapePoint hn, ih hns]
      rfl
  rw [stringRest, hpieces]
  exact congrArg (fun s => Except.ok (s, rest)) (joinPieces_spelled hns).1

end Json

end ViewFinder
