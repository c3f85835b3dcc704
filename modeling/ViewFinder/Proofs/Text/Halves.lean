import Mathlib.Data.List.Chain
import ViewFinder.Proofs.Text.Identifier

/-!
# Halves that follow each other

A text may hold the two halves of a surrogate pair as code points of their own. Where UTF-16 units are
put together they are read as the character of the pair: `Text.joined` gives the code points that are
read, and `Text.whole` their text. That is the text itself if and only if no pair in it is split
(`Text.whole_eq_self_iff`), as in every text without halves (`Text.Whole.of_chars`).
-/

namespace ViewFinder.Text

/-! ## Kinds of code points -/

section
variable {n : Nat}

theorem not_isHalf_of_lt (h : n < 0xD800) : isHalf n = false := by
  simp only [isHalf, Bool.and_eq_false_iff, decide_eq_false_iff_not]
  omega

theorem not_isHigh_of_not_isHalf (h : isHalf n = false) : isHigh n = false := by
  simp only [isHalf, isHigh, Bool.and_eq_false_iff, decide_eq_false_iff_not] at h ⊢
  omega

theorem not_isLow_of_not_isHalf (h : isHalf n = false) : isLow n = false := by
  simp only [isHalf, isLow, Bool.and_eq_false_iff, decide_eq_false_iff_not] at h ⊢
  omega

theorem not_isLow_of_isHigh (h : isHigh n = true) : isLow n = false := by
  simp only [isHigh, isLow, Bool.and_eq_true, decide_eq_true_eq, Bool.and_eq_false_iff,
    decide_eq_false_iff_not] at h ⊢
  omega

/-- Where a code point is that of a character which is not the zero one, it is the code point of just
this character. -/
theorem eq_toNat_of_ofNat {c : Char} (h : Char.ofNat n = c) (hc : c ≠ '\x00') : n = c.toNat := by
  by_cases hvalid : n.isValidChar
  · rw [← h, Char.ofNat, dif_pos hvalid]
    rfl
  · rw [Char.ofNat, dif_neg hvalid] at h
    exact absurd h.symm hc

end

/-! ## Pairs of halves -/

/-- Do the code points form a surrogate pair? -/
def isPair (m n : Nat) : Bool := isHigh m && isLow n

/-- The code points with the character of each surrogate pair in the place of its halves. -/
def joined : List Nat → List Nat
  | [] => []
  | [n] => [n]
  | m :: n :: rest => if isPair m n then joinPair m n :: joined rest else m :: joined (n :: rest)

theorem joined_cons_of_not_isHigh {n : Nat} (h : isHigh n = false) (ns : List Nat) :
    joined (n :: ns) = n :: joined ns := by
  cases ns with
  | nil => rfl
  | cons m ns => rw [joined, isPair, h, Bool.false_and, if_neg (by decide)]

theorem joined_cons_cons_of_not_isLow {n : Nat} (h : isLow n = false) (m : Nat) (ns : List Nat) :
    joined (m :: n :: ns) = m :: joined (n :: ns) := by
  rw [joined, isPair, h, Bool.and_false, if_neg (by decide)]

theorem length_joined_le (ns : List Nat) : (joined ns).length ≤ ns.length := by
  induction ns using joined.induct with
  | case1 => exact Nat.le_refl _
  | case2 n => exact Nat.le_refl _
  | case3 m n rest hpair ih =>
    rw [joined, if_pos hpair]
    exact Nat.succ_le_succ (Nat.le_succ_of_le ih)
  | case4 m n rest hpair ih =>
    rw [joined, if_neg hpair]
    exact Nat.succ_le_succ ih

theorem lt_of_mem_joined {ns : List Nat} (h : ∀ n ∈ ns, n < 0x110000) : ∀ n ∈ joined ns, n < 0x110000 := by
  induction ns using joined.induct with
  | case1 => exact nofun
  | case2 n => exact h
  | case3 m n rest hpair ih =>
    rw [joined, if_pos hpair]
    simp only [List.forall_mem_cons] at h
    refine List.forall_mem_cons.2 ⟨?_, ih h.2.2⟩
    simp only [isPair, isHigh, isLow, Bool.and_eq_true, decide_eq_true_eq] at hpair
    unfold joinPair
    omega
  | case4 m n rest hpair ih =>
    rw [joined, if_neg hpair]
    obtain ⟨hm, hrest⟩ := List.forall_mem_cons.1 h
    exact List.forall_mem_cons.2 ⟨hm, ih hrest⟩

/-- Code points stay as they are if and only if no two neighbours form a pair. -/
theorem joined_eq_self_iff {ns : List Nat} :
    joined ns = ns ↔ ns.IsChain fun m n => isPair m n = false := by
  induction ns using joined.induct with
  | case1 => exact ⟨fun _ => .nil, fun _ => rfl⟩
  | case2 n => exact ⟨fun _ => .singleton n, fun _ => rfl⟩
  | case3 m n rest hpair ih =>
    rw [joined, if_pos hpair, List.isChain_cons_cons, hpair]
    refine ⟨fun heq => ?_, fun h => absurd h.1 (by decide)⟩
    -- What is joined is shorter.
    have hlength := congrArg List.length heq
    have hshorter := length_joined_le rest
    simp only [List.length_cons] at hlength
    omega
  | case4 m n rest hpair ih =>
    rw [joined, if_neg hpair, List.isChain_cons_cons, ← ih, List.cons.injEq]
    exact ⟨fun h => ⟨Bool.eq_false_iff.2 hpair, h.2⟩, fun h => ⟨rfl, h.2⟩⟩

/-! ## The halves of a character -/

/-- The first half of a character beyond the sixteen bits of a unit. -/
def highHalf (n : Nat) : Nat := 0xD800 + (n - 0x10000) / 0x400

/-- The second half of such a character. -/
def lowHalf (n : Nat) : Nat := 0xDC00 + (n - 0x10000) % 0x400

theorem isLow_lowHalf (n : Nat) : isLow (lowHalf n) = true := by
  have hrange : 0xDC00 ≤ lowHalf n ∧ lowHalf n < 0xE000 := by
    unfold lowHalf
    omega
  simpa [isLow] using hrange

theorem isHigh_highHalf {n : Nat} (hn : n < 0x110000) : isHigh (highHalf n) = true := by
  have hrange : 0xD800 ≤ highHalf n ∧ highHalf n < 0xDC00 := by
    unfold highHalf
    omega
  simpa [isHigh] using hrange

section
variable {n : Nat} (hbeyond : 0x10000 ≤ n)
include hbeyond

theorem joinPair_halves : joinPair (highHalf n) (lowHalf n) = n := by
  have hdiv := Nat.div_add_mod (n - 0x10000) 0x400
  unfold joinPair highHalf lowHalf
  generalize (n - 0x10000) / 0x400 = high at hdiv ⊢
  generalize (n - 0x10000) % 0x400 = low at hdiv ⊢
  omega

/-- Such a character is no half itself. -/
theorem not_isHalf_of_beyond : isHalf n = false := by
  simp only [isHalf, Bool.and_eq_false_iff, decide_eq_false_iff_not]
  omega

end

/-! ## Texts -/

/-- The text with the character of each surrogate pair in the place of its halves. -/
def whole (s : String) : String := String.ofList (ofPoints (joined (points s.toList)))

/-- A text in which no pair is split: no first half is followed by a second one. -/
structure Whole (s : String) : Prop where
  kept : isKept s = true
  unsplit : (points s.toList).IsChain fun m n => isPair m n = false

theorem whole_eq_self_iff {s : String} (hs : isKept s = true) : whole s = s ↔ Whole s := by
  have hkept : ofPoints (points s.toList) = s.toList := beq_iff_eq.1 hs
  have hjoined : whole s = s ↔ joined (points s.toList) = points s.toList := by
    rw [whole, ← String.toList_inj, String.toList_ofList]
    refine ⟨fun heq => ?_, fun heq => by rw [heq, hkept]⟩
    rw [← points_ofPoints (lt_of_mem_joined lt_of_mem_points), heq]
  rw [hjoined, joined_eq_self_iff]
  exact ⟨fun h => ⟨hs, h⟩, fun h => h.unsplit⟩

theorem Whole.whole_eq {s : String} (h : Whole s) : whole s = s := (whole_eq_self_iff h.kept).2 h

/-- The text of characters splits no pair. -/
theorem Whole.of_chars (s : String) : Whole (ofString s) := by
  have hpoints : points (ofString s).toList = s.toList.map Char.toNat := by
    rw [ofString, String.toList_ofList, points_ofChars]
  refine ⟨?_, ?_⟩
  · rw [isKept, hpoints, ofString, String.toList_ofList, ofChars, beq_self_eq_true]
  · rw [hpoints, List.isChain_map]
    refine (List.pairwise_of_forall fun c d => ?_).isChain
    rw [isPair, not_isHigh_of_not_isHalf (not_isHalf_toNat c), Bool.false_and]

end ViewFinder.Text
