import Mathlib.Data.List.Forall2
import Mathlib.Data.List.Perm.Basic
import ViewFinder.Sorting

/-!
# Lists that are merged

`merged` takes what comes first of two lists, and that of the first list where neither does. What is in
order, or all of it in the wrong order, is merged as a whole (`append_merged`, `merged_append`, and the
same at the end), so any number of elements may be taken at a time. Two lists that are sorted and then
merged are sorted as one (`merged_sort`): whatever merges sorted parts of a list side by side gives
`Sorting.sort` of it.
-/

namespace ViewFinder.Sorting

variable {α : Type}

/-! ## Merging -/

/-- A strict order that tells which of two elements comes first, where elements that are neither before
the other may be swapped for one another. -/
structure Weak (before : α → α → Bool) : Prop where
  asymm : ∀ {a b}, before a b = true → before b a = false
  trans : ∀ {a b c}, before b a = false → before c b = false → before c a = false

/-- Two lists as one, what comes first taken first, and that of the first list where neither does. -/
def merged (before : α → α → Bool) (xs ys : List α) : List α :=
  List.merge xs ys fun a b => !before b a

section
variable {before : α → α → Bool}

@[simp] theorem nil_merged (ys : List α) : merged before [] ys = ys := by rw [merged, List.nil_merge]

@[simp] theorem merged_nil (xs : List α) : merged before xs [] = xs := by rw [merged, List.merge_right]

theorem cons_merged_cons (x y : α) (xs ys : List α) : merged before (x :: xs) (y :: ys) =
    if before y x then y :: merged before (x :: xs) ys else x :: merged before xs (y :: ys) := by
  rw [merged, List.cons_merge_cons]
  cases before y x <;> rfl

/-- What nothing of the second list comes before goes first. -/
theorem append_merged {ps ys : List α} (h : ∀ p ∈ ps, ∀ y ∈ ys, before y p = false) (xs : List α) :
    merged before (ps ++ xs) ys = ps ++ merged before xs ys := by
  induction ps with
  | nil => rfl
  | cons p ps ih =>
    obtain ⟨hp, hps⟩ := List.forall_mem_cons.1 h
    cases ys with
    | nil => rw [merged_nil, merged_nil]
    | cons y ys =>
      rw [List.cons_append, cons_merged_cons, hp y (List.mem_cons_self ..), if_neg Bool.false_ne_true,
        ih hps, List.cons_append]

/-- What comes before all of the first list goes first. -/
theorem merged_append {xs qs : List α} (h : ∀ x ∈ xs, ∀ q ∈ qs, before q x = true) (ys : List α) :
    merged before xs (qs ++ ys) = qs ++ merged before xs ys := by
  induction qs with
  | nil => rfl
  | cons q qs ih =>
    cases xs with
    | nil => rw [nil_merged, nil_merged]
    | cons x xs =>
      have hq : before q x = true := h x (List.mem_cons_self ..) q (List.mem_cons_self ..)
      rw [List.cons_append, cons_merged_cons, if_pos hq,
        ih fun x hx r hr => h x hx r (List.mem_cons_of_mem q hr), List.cons_append]

/-- Lists that are in order are put one after the other. -/
theorem merged_eq_append {xs ys : List α} (h : ∀ x ∈ xs, ∀ y ∈ ys, before y x = false) :
    merged before xs ys = xs ++ ys := by
  have hfirst := append_merged h []
  rwa [List.append_nil, nil_merged] at hfirst

/-- Lists that are in the wrong order change places. -/
theorem merged_eq_swapped {xs ys : List α} (h : ∀ x ∈ xs, ∀ y ∈ ys, before y x = true) :
    merged before xs ys = ys ++ xs := by
  have hfirst := merged_append h []
  rwa [List.append_nil, merged_nil] at hfirst

/-- What all of the second list comes before goes last. -/
theorem merged_append_left {ys zs : List α} (h : ∀ y ∈ ys, ∀ z ∈ zs, before y z = true) (xs : List α) :
    merged before (xs ++ zs) ys = merged before xs ys ++ zs := by
  induction ys generalizing xs with
  | nil => rw [merged_nil, merged_nil]
  | cons y ys ihy =>
    obtain ⟨hy, hys⟩ := List.forall_mem_cons.1 h
    induction xs with
    | nil =>
      rw [List.nil_append, nil_merged]
      exact merged_eq_swapped fun z hz q hq => h q hq z hz
    | cons x xs ihx =>
      have hcons := ihy hys (x :: xs)
      rw [List.cons_append] at hcons ⊢
      rw [cons_merged_cons, cons_merged_cons]
      split
      · rw [hcons, List.cons_append]
      · rw [ihx, List.cons_append]

/-- What comes before nothing of the first list goes last. -/
theorem merged_append_right {xs zs : List α} (h : ∀ x ∈ xs, ∀ z ∈ zs, before z x = false)
    (ys : List α) : merged before xs (ys ++ zs) = merged before xs ys ++ zs := by
  induction xs generalizing ys with
  | nil => rw [nil_merged, nil_merged]
  | cons x xs ihx =>
    obtain ⟨hx, hxs⟩ := List.forall_mem_cons.1 h
    induction ys with
    | nil =>
      rw [List.nil_append, merged_nil]
      exact merged_eq_append h
    | cons y ys ihy =>
      have hcons := ihx hxs (y :: ys)
      rw [List.cons_append] at hcons ⊢
      rw [cons_merged_cons, cons_merged_cons]
      split
      · rw [ihy, List.cons_append]
      · rw [hcons, List.cons_append]

/-! ## Merging sorted lists -/

/-- Putting an element into a list is merging. -/
theorem insert_eq_merged (a : α) (ys : List α) : insert before a ys = merged before [a] ys := by
  induction ys with
  | nil => rw [merged_nil, insert]
  | cons y ys ih => rw [cons_merged_cons, nil_merged, ← ih, insert]

section
variable (hw : Weak before)
include hw

/-- Elements may be told apart by something they have. -/
theorem Weak.comp {β : Type} (f : β → α) : Weak fun a b => before (f a) (f b) :=
  ⟨fun hab => hw.asymm hab, fun hba hcb => hw.trans hba hcb⟩

theorem Weak.not_before_self (a : α) : before a a = false :=
  Bool.eq_false_iff.2 fun h => Bool.false_ne_true ((hw.asymm h).symm.trans h)

/-- What comes before an element comes before those that do not come before it. -/
theorem Weak.before_of_not_before {a b c : α} (hab : before a b = true) (hbc : before c b = false) :
    before a c = true := by
  by_contra hac
  rw [hw.trans hbc (Bool.eq_false_iff.2 hac)] at hab
  cases hab

/-- What an element does not come before comes before those that the element comes before. -/
theorem Weak.before_of_before {a b c : α} (hab : before b a = false) (hbc : before b c = true) :
    before a c = true := by
  by_contra hac
  rw [hw.trans (Bool.eq_false_iff.2 hac) hab] at hbc
  cases hbc

theorem Weak.before_trans {a b c : α} (hab : before a b = true) (hbc : before b c = true) :
    before a c = true := hw.before_of_not_before hab (hw.asymm hbc)

section
variable {xs ps qs ys rs ss : List α} {x y : α}

/-- The first element of the second list goes after what it does not come before. -/
theorem merged_append_cons (hps : ∀ p ∈ ps, before y p = false) (hqs : ∀ q ∈ qs, before y q = true)
    (hys : ∀ b ∈ ys, before b y = false) :
    merged before (ps ++ qs) (y :: ys) = ps ++ y :: merged before qs ys := by
  have hkept : ∀ p ∈ ps, ∀ b ∈ y :: ys, before b p = false := fun p hp =>
    List.forall_mem_cons.2 ⟨hps p hp, fun b hb => hw.trans (hps p hp) (hys b hb)⟩
  have hhead : ∀ q ∈ qs, ∀ b ∈ [y], before b q = true := fun q hq =>
    List.forall_mem_singleton.2 (hqs q hq)
  rw [append_merged hkept]
  exact congrArg (ps ++ ·) (merged_append hhead ys)

/-- The first element of the first list goes after what comes before it. -/
theorem merged_cons_append (hxs : ∀ a ∈ xs, before a x = false) (hrs : ∀ r ∈ rs, before r x = true)
    (hss : ∀ s ∈ ss, before s x = false) :
    merged before (x :: xs) (rs ++ ss) = rs ++ x :: merged before xs ss := by
  have hbefore : ∀ a ∈ x :: xs, ∀ r ∈ rs, before r a = true := List.forall_mem_cons.2
    ⟨hrs, fun a ha r hr => hw.before_of_not_before (hrs r hr) (hxs a ha)⟩
  have hhead : ∀ a ∈ [x], ∀ s ∈ ss, before s a = false := List.forall_mem_singleton.2 hss
  rw [merged_append hbefore]
  exact congrArg (rs ++ ·) (append_merged hhead xs)

/-- The last element of the second list goes in front of what it comes before. -/
theorem merged_append_concat (hps : ∀ p ∈ ps, before y p = false)
    (hqs : ∀ q ∈ qs, before y q = true) (hys : ∀ b ∈ ys, before y b = false) :
    merged before (ps ++ qs) (ys ++ [y]) = merged before ps ys ++ ([y] ++ qs) := by
  have hbeyond : ∀ b ∈ ys ++ [y], ∀ q ∈ qs, before b q = true := List.forall_mem_append.2
    ⟨fun b hb q hq => hw.before_of_before (hys b hb) (hqs q hq), List.forall_mem_singleton.2 hqs⟩
  have hlast : ∀ p ∈ ps, ∀ b ∈ [y], before b p = false := fun p hp =>
    List.forall_mem_singleton.2 (hps p hp)
  rw [merged_append_left hbeyond, merged_append_right hlast, List.append_assoc]

/-- The last element of the first list goes in front of what does not come before it. -/
theorem merged_concat_append (hxs : ∀ a ∈ xs, before x a = false)
    (hrs : ∀ r ∈ rs, before r x = true) (hss : ∀ s ∈ ss, before s x = false) :
    merged before (xs ++ [x]) (rs ++ ss) = merged before xs rs ++ ([x] ++ ss) := by
  have hbeyond : ∀ a ∈ xs ++ [x], ∀ s ∈ ss, before s a = false := List.forall_mem_append.2
    ⟨fun a ha s hs => hw.trans (hxs a ha) (hss s hs), List.forall_mem_singleton.2 hss⟩
  have hlast : ∀ r ∈ rs, ∀ a ∈ [x], before r a = true := fun r hr =>
    List.forall_mem_singleton.2 (hrs r hr)
  rw [merged_append_right hbeyond, merged_append_left hlast, List.append_assoc]

end

/-- It does not matter whether an element is put into the first of two lists or into both of them
merged. -/
theorem insert_merged (a : α) (xs ys : List α) :
    insert before a (merged before xs ys) = merged before (insert before a xs) ys := by
  induction xs generalizing ys with
  | nil => rw [nil_merged, insert, insert_eq_merged]
  | cons x xs ihx =>
    induction ys with
    | nil => rw [merged_nil, merged_nil]
    | cons y ys ihy =>
      rw [insert] at ihy ⊢
      rw [cons_merged_cons]
      cases hxa : before x a with
      | true =>
        rw [hxa, if_pos rfl] at ihy
        rw [if_pos rfl, cons_merged_cons]
        cases hyx : before y x with
        | true => rw [if_pos rfl, if_pos rfl, insert, hw.before_trans hyx hxa, if_pos rfl, ihy]
        | false =>
          rw [if_neg Bool.false_ne_true, if_neg Bool.false_ne_true, insert, hxa, if_pos rfl, ihx]
      | false =>
        rw [hxa, if_neg Bool.false_ne_true] at ihy
        rw [if_neg Bool.false_ne_true, cons_merged_cons, cons_merged_cons]
        cases hyx : before y x with
        | true =>
          rw [if_pos rfl, insert]
          cases before y a with
          | true => rw [if_pos rfl, if_pos rfl, ihy]
          | false => rfl
        | false =>
          rw [if_neg Bool.false_ne_true, insert, hxa, hw.trans hxa hyx]
          rfl

/-- Two lists that are sorted and merged are sorted as one. -/
theorem merged_sort (xs ys : List α) :
    merged before (sort before xs) (sort before ys) = sort before (xs ++ ys) := by
  induction xs with
  | nil => exact nil_merged _
  | cons x xs ih => rw [sort, ← insert_merged hw, ih, List.cons_append, sort]

end

/-! ## Sorted lists -/

/-- A sorted list is in ascending order. -/
theorem Weak.pairwise_sort (hw : Weak before) (l : List α) :
    (sort before l).Pairwise fun a b => before b a = false := by
  have htrans (a b c : α) (hab : before b a = false) (hbc : before c b = false) :
      before c a = false := hw.trans hab hbc
  exact Sorting.pairwise_sort htrans (fun _ _ _ _ hab => hw.asymm hab) (fun _ _ _ _ hab => hab)

/-- The order of a list does not matter to what it is when sorted, if no two elements tie. -/
theorem sort_eq_of_perm (hw : Weak before) {l m : List α} (hperm : l.Perm m)
    (htie : ∀ a ∈ l, ∀ b ∈ l, before b a = false → before a b = false → a = b) :
    sort before l = sort before m := by
  refine List.Perm.eq_of_pairwise (fun a b ha hb => htie a ((mem_sort before).1 ha) b ?_)
    (hw.pairwise_sort l) (hw.pairwise_sort m) ?_
  · exact hperm.mem_iff.2 ((mem_sort before).1 hb)
  · exact (sort_perm before l).trans (hperm.trans (sort_perm before m).symm)

/-- Lists that agree item by item are sorted alike. -/
theorem forall₂_sort {R : α → α → Prop}
    (hR : ∀ {a a' b b'}, R a a' → R b b' → before a b = before a' b') {l m : List α}
    (h : List.Forall₂ R l m) : List.Forall₂ R (sort before l) (sort before m) := by
  have hinsert {a a' : α} (ha : R a a') {l m : List α} (h : List.Forall₂ R l m) :
      List.Forall₂ R (insert before a l) (insert before a' m) := by
    induction h with
    | nil => exact .cons ha .nil
    | @cons b b' l m hb h ih =>
      rw [insert, insert, hR hb ha]
      split
      · exact .cons hb ih
      · exact .cons ha (.cons hb h)
  induction h with
  | nil => exact .nil
  | cons ha _ ih => exact hinsert ha ih

/-- What is in ascending order stays as it is. -/
theorem sort_eq_of_ascending {l : List α} (h : l.Pairwise fun a b => before b a = false) :
    sort before l = l := by
  induction l with
  | nil => rfl
  | cons a l ih =>
    obtain ⟨ha, hl⟩ := List.pairwise_cons.1 h
    rw [sort, ih hl]
    cases l with
    | nil => rfl
    | cons b l => rw [insert, ha b (List.mem_cons_self ..), if_neg Bool.false_ne_true]

/-- What is in descending order is turned round. -/
theorem sort_eq_of_descending {l : List α} (h : l.Pairwise fun a b => before b a = true) :
    sort before l = l.reverse := by
  induction l with
  | nil => rfl
  | cons a l ih =>
    obtain ⟨ha, hl⟩ := List.pairwise_cons.1 h
    rw [sort, ih hl, List.reverse_cons, insert_eq_merged]
    refine merged_eq_swapped (List.forall_mem_singleton.2 fun b hb => ?_)
    exact ha b (List.mem_reverse.1 hb)

end

end ViewFinder.Sorting
