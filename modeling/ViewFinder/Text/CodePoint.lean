/-!
# Code points

A text is a sequence of code points. Every character has one, and so has an unpaired half of a
surrogate pair, which is no character but can be written by an escape. A text is kept as a string in
which characters stand for themselves, but for the last one that there is (`mark`): before a
character that stands for a half it announces that half, and twice in a row it is itself. So texts
can be put together, and taken apart next to any other character, as strings. `points` gives the
code points of a text and `ofPoints` the text of code points, from which it gets them back
(`points_ofPoints`); `order` compares texts by them.
-/

namespace ViewFinder.Text

/-- Is the unit the first half of a surrogate pair? -/
def isHigh (n : Nat) : Bool := 0xD800 ≤ n && n < 0xDC00

/-- Is the unit the second half of a surrogate pair? -/
def isLow (n : Nat) : Bool := 0xDC00 ≤ n && n < 0xE000

/-- Is the code point that of a half? -/
def isHalf (n : Nat) : Bool := 0xD800 ≤ n && n < 0xE000

/-- The code point of the character of a surrogate pair. -/
def joinPair (high low : Nat) : Nat := 0x10000 + (high - 0xD800) * 0x400 + (low - 0xDC00)

/-- The character that announces a half. -/
def mark : Char := Char.ofNat 0x10FFFF

/-- How far the character that stands for a half after the mark lies behind the half. -/
def halfDistance : Nat := 0x800

/-- The text of a code point. -/
def ofPoint (n : Nat) : List Char :=
  if isHalf n then [mark, Char.ofNat (n + halfDistance)]
  else if n = 0x10FFFF then [mark, mark]
  else [Char.ofNat n]

/-- The code point of a character after the mark. -/
def markedPoint (c : Char) : Nat :=
  if isHalf (c.toNat - halfDistance) then c.toNat - halfDistance else c.toNat

/-- The code points of a text. -/
def points : List Char → List Nat
  | [] => []
  | [c] => [c.toNat]
  | c :: d :: rest =>
    if c = mark then markedPoint d :: points rest else c.toNat :: points (d :: rest)

/-- The text of code points. -/
def ofPoints (ns : List Nat) : List Char := ns.flatMap ofPoint

/-- The character of a code point, if it has one. -/
def char? (n : Nat) : Option Char := if isHalf n then none else some (Char.ofNat n)

/-- The characters of a text, if it has no halves. -/
def chars? (s : List Char) : Option (List Char) := (points s).mapM char?

/-- The text of characters, each of which stands for itself. -/
def ofChars (cs : List Char) : List Char := ofPoints (cs.map Char.toNat)

/-- The characters of a text, with the replacement character for each half. -/
def outline (s : List Char) : List Char := (points s).map fun n => (char? n).getD '\ufffd'

/-- The text of a string whose characters stand for themselves. -/
def ofString (s : String) : String := String.ofList (ofChars s.toList)

/-- The string of a text, whose characters stand for themselves. Halves are replaced. -/
def toString (s : String) : String := String.ofList (outline s.toList)

/-- The texts of one code point each that a text is made of. -/
def letters (s : String) : List String := (points s.toList).map fun n => String.ofList (ofPoint n)

/-! ## The order of texts -/

/-- The order of texts: the first two code points that differ decide, else the lengths. -/
def order (s t : String) : Ordering := compare (points s.toList) (points t.toList)

/-- Does the first text come strictly before the second? -/
def before (s t : String) : Bool := order s t == .lt

/-! ## Code points and back -/

theorem toNat_mark : mark.toNat = 0x10FFFF := by decide

theorem toNat_ofNat_of_not_half {n : Nat} (h : isHalf n = false) (hn : n < 0x110000) :
    (Char.ofNat n).toNat = n := by
  have hv : n.isValidChar := by
    simp only [isHalf, Bool.and_eq_false_iff, decide_eq_false_iff_not] at h
    simp only [Nat.isValidChar]
    omega
  rw [Char.ofNat, dif_pos hv]
  rfl

theorem toNat_ofNat_half {n : Nat} (h : isHalf n = true) :
    (Char.ofNat (n + halfDistance)).toNat = n + halfDistance := by
  simp only [isHalf, Bool.and_eq_true, decide_eq_true_eq] at h
  refine toNat_ofNat_of_not_half ?_ ?_
  · have hlow : ¬ n + 0x800 < 0xE000 := by omega
    simp [isHalf, halfDistance, hlow]
  · simp only [halfDistance]
    omega

theorem points_cons_of_ne {c : Char} (h : c ≠ mark) (s : List Char) :
    points (c :: s) = c.toNat :: points s := by
  cases s with
  | nil => rfl
  | cons d rest => rw [points, if_neg h]

theorem points_ofPoint_append {n : Nat} (hn : n < 0x110000) (s : List Char) :
    points (ofPoint n ++ s) = n :: points s := by
  unfold ofPoint
  split
  · next h =>
    simp only [List.cons_append, List.nil_append, points, if_true, markedPoint, toNat_ofNat_half h,
      Nat.add_sub_cancel, h]
  · next h =>
    split
    · next hm =>
      subst hm
      have hm : markedPoint mark = 0x10FFFF := by decide
      simp only [List.cons_append, List.nil_append, points, if_true, hm]
    · next hm =>
      have h := toNat_ofNat_of_not_half (Bool.eq_false_iff.2 h) hn
      have hne : Char.ofNat n ≠ mark := fun he => hm (by rw [← h, he, toNat_mark])
      rw [List.cons_append, List.nil_append, points_cons_of_ne hne, h]

/-- Code points are got back from their text. -/
theorem points_ofPoints {ns : List Nat} (h : ∀ n ∈ ns, n < 0x110000) : points (ofPoints ns) = ns := by
  induction ns with
  | nil => rfl
  | cons n ns ih =>
    have hrest : points (ofPoints ns) = ns := ih fun m hm => h m (List.mem_cons_of_mem _ hm)
    rw [ofPoints, List.flatMap_cons, points_ofPoint_append (h n (List.mem_cons_self ..)), ← ofPoints, hrest]

end ViewFinder.Text
