import Mathlib.Data.List.Basic
import ViewFinder.Sorting

/-!
# Stable sorting

Elements that stand one after the other, in an order in which none comes before an earlier one, stand so
when the list is sorted (`sublist_sort`). Sorting goes by what the order tells of the elements only, so it
may be done before they are made or after (`sort_map`).
-/

namespace ViewFinder.Sorting

variable {α β : Type} {before : α → α → Bool}

theorem sublist_insert (a : α) (l : List α) : l.Sublist (insert before a l) := by
  induction l with
  | nil => exact List.nil_sublist _
  | cons b l ih =>
    rw [insert]
    split
    · exact ih.cons_cons b
    · exact List.sublist_cons_self ..

/-- An element is put in front of those that do not come before it. -/
theorem cons_sublist_insert {a : α} {part l : List α} (hpart : part.Sublist l)
    (ha : ∀ b ∈ part, before b a = false) : (a :: part).Sublist (insert before a l) := by
  induction l with
  | nil =>
    rw [List.sublist_nil.1 hpart]
    exact .refl _
  | cons b l ih =>
    rw [insert]
    split
    · next hba =>
      cases hpart with
      | cons _ hpart => exact (ih hpart).cons b
      | cons_cons _ hpart =>
        rw [ha b (List.mem_cons_self ..)] at hba
        cases hba
    · exact hpart.cons_cons a

/-- What stands in a list in ascending order stands so in the sorted list. -/
theorem sublist_sort {part l : List α} (hpart : part.Sublist l)
    (h : part.Pairwise fun a b => before b a = false) : part.Sublist (sort before l) := by
  induction hpart with
  | slnil => exact .slnil
  | cons a _ ih => exact (ih h).trans (sublist_insert a _)
  | cons_cons a _ ih =>
    obtain ⟨ha, hpart⟩ := List.pairwise_cons.1 h
    exact cons_sublist_insert (ih hpart) ha

/-- What is made of elements is sorted as the elements are. -/
theorem sort_map (f : β → α) (l : List β) :
    sort before (l.map f) = (sort (fun a b => before (f a) (f b)) l).map f := by
  have hinsert (a : β) (l : List β) : insert before (f a) (l.map f) =
      (insert (fun a b => before (f a) (f b)) a l).map f := by
    induction l with
    | nil => rfl
    | cons b l ih =>
      rw [List.map_cons, insert, insert]
      split
      · rw [List.map_cons, ih]
      · rfl
  induction l with
  | nil => rfl
  | cons a l ih => rw [List.map_cons, sort, sort, ih, hinsert]

end ViewFinder.Sorting
