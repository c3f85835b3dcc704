import Mathlib.Data.List.Infix
import ViewFinder.Condition
import ViewFinder.Proofs.Text.Halves

/-!
# Separators inside texts

A text is split at the first place where a separator occurs, if it occurs (`Condition.splitFirst_append`,
`Condition.splitFirst_eq_none_iff`). Where every code point is replaced by a text of its own, and only
the code points of the separator by texts that hold its letters, the separator occurs after that if and
only if it did before (`Text.infix_flatMap_iff`).
-/

namespace ViewFinder

namespace Condition

variable {c : Char} {separator : List Char}

theorem splitFirst_eq_none_iff (hne : separator ≠ []) {s : List Char} :
    splitFirst separator s = none ↔ ¬ separator <:+: s := by
  induction s with
  | nil => simp [splitFirst, hne]
  | cons d s ih =>
    rw [splitFirst, List.infix_cons_iff, ← List.isPrefixOf_iff_prefix]
    split
    · next h => simp [h]
    · next h => simp [h, ih]

/-- A text is split where the separator is, if its first letter does not occur before. -/
theorem splitFirst_append {before : List Char} (h : c ∉ before) (after : List Char) :
    splitFirst (c :: separator) (before ++ (c :: separator ++ after)) = some (before, after) := by
  induction before with
  | nil =>
    have hprefix : (c :: separator).isPrefixOf (c :: (separator ++ after)) = true :=
      List.isPrefixOf_iff_prefix.2 (List.prefix_append (c :: separator) after)
    rw [List.nil_append, List.cons_append, splitFirst, if_pos hprefix, ← List.cons_append,
      List.drop_left]
  | cons d before ih =>
    rw [List.mem_cons, not_or] at h
    have hprefix : ¬ (c :: separator).isPrefixOf (d :: (before ++ (c :: separator ++ after))) = true := by
      rw [List.isPrefixOf_iff_prefix, List.cons_prefix_cons]
      exact fun hd => h.1 hd.1
    rw [List.cons_append, splitFirst, if_neg hprefix, ih h.2]
    rfl

end Condition

namespace Text

/-- The character is written as itself, and in the text of no other code point. -/
structure Writes (f : Nat → List Char) (c : Char) : Prop where
  same : f c.toNat = [c]
  other : ∀ n < 0x110000, n ≠ c.toNat → f n ≠ [] ∧ c ∉ f n

section
variable {c : Char} {cs : List Char}

theorem infix_append_of_not_mem {s : List Char} (hs : c ∉ s) (rest : List Char) :
    c :: cs <:+: s ++ rest ↔ c :: cs <:+: rest := by
  induction s with
  | nil => exact Iff.rfl
  | cons d s ih =>
    rw [List.mem_cons, not_or] at hs
    rw [List.cons_append, List.infix_cons_iff, List.cons_prefix_cons, ih hs.2]
    exact or_iff_right fun h => hs.1 h.1

theorem infix_append_singleton_of_not_mem {d : Char} (hne : cs ≠ []) (hd : d ∉ cs) (s : List Char) :
    cs <:+: s ++ [d] ↔ cs <:+: s := by
  rw [List.infix_concat_iff, List.suffix_concat_iff]
  refine or_iff_right ?_
  rintro (rfl | ⟨t, rfl, -⟩)
  · exact hne rfl
  · exact hd (List.mem_append_right t (List.mem_singleton_self d))

variable {f : Nat → List Char} {ns : List Nat} (hns : ∀ n ∈ ns, n < 0x110000)
include hns

theorem prefix_flatMap_iff (hcs : ∀ c ∈ cs, Writes f c) :
    cs <+: ns.flatMap f ↔ cs.map Char.toNat <+: ns := by
  induction cs generalizing ns with
  | nil => simp
  | cons c cs ih =>
    obtain ⟨hc, hcs⟩ := List.forall_mem_cons.1 hcs
    cases ns with
    | nil => simp
    | cons n ns =>
      obtain ⟨hn, hns⟩ := List.forall_mem_cons.1 hns
      rw [List.flatMap_cons, List.map_cons, List.cons_prefix_cons]
      by_cases hsame : n = c.toNat
      · rw [hsame, hc.same, List.singleton_append, List.cons_prefix_cons, ih hns hcs]
        exact and_congr_left fun _ => iff_of_true rfl rfl
      · obtain ⟨hne, hmem⟩ := hc.other n hn hsame
        obtain ⟨d, s, heq⟩ := List.exists_cons_of_ne_nil hne
        rw [heq] at hmem ⊢
        rw [List.cons_append, List.cons_prefix_cons]
        exact iff_of_false (fun h => hmem (h.1 ▸ List.mem_cons_self ..)) fun h => hsame h.1.symm

/-- A separator occurs in the text that code points are written as where it occurs among them. -/
theorem infix_flatMap_iff (hne : cs ≠ []) (hcs : ∀ c ∈ cs, Writes f c) :
    cs <:+: ns.flatMap f ↔ cs.map Char.toNat <:+: ns := by
  obtain ⟨c, cs, rfl⟩ := List.exists_cons_of_ne_nil hne
  have hc := hcs c (List.mem_cons_self ..)
  induction ns with
  | nil => simp
  | cons n ns ih =>
    have hprefix := prefix_flatMap_iff hns hcs
    obtain ⟨hn, hrest⟩ := List.forall_mem_cons.1 hns
    have hlater : c :: cs <:+: ns.flatMap f ↔ (c :: cs).map Char.toNat <:+: ns := ih hrest
    rw [List.infix_cons_iff, ← hprefix, ← hlater, List.flatMap_cons]
    by_cases hsame : n = c.toNat
    · rw [hsame, hc.same, List.singleton_append, List.infix_cons_iff]
    · rw [infix_append_of_not_mem (hc.other n hn hsame).2]
      refine (or_iff_right fun h => ?_).symm
      rw [← List.flatMap_cons, hprefix, List.map_cons, List.cons_prefix_cons] at h
      exact hsame h.1.symm

end

/-- In a text, most characters stand for nothing but themselves. -/
theorem writes_ofPoint {c : Char} (hc : c.toNat < 0xD800) : Writes ofPoint c := by
  have hne : c ≠ mark := by
    rintro rfl
    rw [toNat_mark] at hc
    omega
  refine ⟨ofPoint_toNat hne, fun n hn hsame => ?_⟩
  unfold ofPoint
  split
  · next hhalf =>
    refine ⟨List.cons_ne_nil _ _, fun hmem => ?_⟩
    simp only [List.mem_cons, List.not_mem_nil, or_false, hne, false_or] at hmem
    have hpoint := toNat_ofNat_half hhalf
    simp only [isHalf, Bool.and_eq_true, decide_eq_true_eq] at hhalf
    rw [← hmem] at hpoint
    omega
  · next hhalf =>
    have hpoint := toNat_ofNat_of_not_half (Bool.eq_false_iff.2 hhalf) hn
    split
    · simp [hne]
    · refine ⟨List.cons_ne_nil _ _, fun hmem => hsame ?_⟩
      rw [← hpoint, List.mem_singleton.1 hmem]

end Text

end ViewFinder
