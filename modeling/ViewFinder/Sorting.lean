/-!
# Stable sorting

`Sorting.sort` orders a list by a strict order on its elements, by insertion: elements that do not
come before each other keep the order they had. It loses nothing and adds nothing (`sort_perm`), and the
result is in ascending order (`pairwise_sort`).
-/

namespace ViewFinder.Sorting

variable {α : Type} (before : α → α → Bool)

/-- Puts an element into a list, in front of the first one that does not come before it. -/
def insert (a : α) : List α → List α
  | [] => [a]
  | b :: rest => if before b a then b :: insert a rest else a :: b :: rest

/-- The elements in ascending order, stable. -/
def sort : List α → List α
  | [] => []
  | a :: rest => insert before a (sort rest)

theorem insert_perm (a : α) (l : List α) : (insert before a l).Perm (a :: l) := by
  induction l with
  | nil => exact .refl _
  | cons b rest ih =>
    rw [insert]
    split
    · exact (ih.cons b).trans (.swap a b rest)
    · exact .refl _

theorem sort_perm (l : List α) : (sort before l).Perm l := by
  induction l with
  | nil => exact .refl _
  | cons a rest ih => exact (insert_perm before a _).trans (ih.cons a)

theorem mem_sort {a : α} {l : List α} : a ∈ sort before l ↔ a ∈ l := (sort_perm before l).mem_iff

section
variable {before} {R : α → α → Prop} (htrans : ∀ a b c, R a b → R b c → R a c) {l : List α}
include htrans

/-- Inserting into an ascending list keeps it ascending, in any transitive sense in which the new
element can be told from those of the list. -/
theorem pairwise_insert {a : α} (hbefore : ∀ b ∈ l, before b a = true → R b a)
    (hnot : ∀ b ∈ l, before b a = false → R a b) (h : l.Pairwise R) :
    (insert before a l).Pairwise R := by
  induction l with
  | nil => exact List.pairwise_singleton ..
  | cons b rest ih =>
    obtain ⟨hb, hrest⟩ := List.pairwise_cons.1 h
    rw [insert]
    split
    · next hba =>
      refine List.pairwise_cons.2 ⟨fun c hc => ?_, ?_⟩
      · rcases List.mem_cons.1 ((insert_perm before a rest).mem_iff.1 hc) with rfl | hc
        · exact hbefore b (List.mem_cons_self ..) hba
        · exact hb c hc
      · exact ih (fun c hc => hbefore c (List.mem_cons_of_mem b hc))
          (fun c hc => hnot c (List.mem_cons_of_mem b hc)) hrest
    · next hba =>
      have hab : R a b := hnot b (List.mem_cons_self ..) (Bool.eq_false_iff.2 hba)
      refine List.pairwise_cons.2 ⟨fun c hc => ?_, h⟩
      rcases List.mem_cons.1 hc with rfl | hc
      · exact hab
      · exact htrans a b c hab (hb c hc)

/-- Sorting puts a list in ascending order. -/
theorem pairwise_sort (hbefore : ∀ a ∈ l, ∀ b ∈ l, before a b = true → R a b)
    (hnot : ∀ a ∈ l, ∀ b ∈ l, before a b = false → R b a) : (sort before l).Pairwise R := by
  induction l with
  | nil => exact .nil
  | cons a rest ih =>
    have hmem {b : α} (hb : b ∈ sort before rest) : b ∈ a :: rest :=
      List.mem_cons_of_mem a ((mem_sort before).1 hb)
    refine pairwise_insert htrans (fun b hb => hbefore b (hmem hb) a (List.mem_cons_self ..))
      (fun b hb => hnot b (hmem hb) a (List.mem_cons_self ..)) (ih ?_ ?_)
    · exact fun b hb c hc => hbefore b (List.mem_cons_of_mem a hb) c (List.mem_cons_of_mem a hc)
    · exact fun b hb c hc => hnot b (List.mem_cons_of_mem a hb) c (List.mem_cons_of_mem a hc)

end

end ViewFinder.Sorting
