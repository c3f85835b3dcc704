import Mathlib.Data.List.Forall2
import ViewFinder.Fault

/-!
# Operations that do not fail

Two operations in a row succeed if both do (`Fault.bind_eq_ok_iff`), and an operation on the items of
a list does if it does on each of them (`Fault.mapM_eq_ok_iff`); so do two such operations in a row
(`Fault.mapM_mapM_eq_ok_iff`).
-/

namespace ViewFinder.Fault

variable {ε α β : Type} {f : α → Except ε β}

/-- Two operations in a row succeed if and only if both do. -/
theorem bind_eq_ok_iff {x : Except ε α} {b : β} :
    x >>= f = .ok b ↔ ∃ a, x = .ok a ∧ f a = .ok b := by
  cases x <;> simp [bind, Except.bind]

/-- Going through a list succeeds if each item does. -/
theorem mapM_eq_ok {g : α → β} {l : List α} (h : ∀ a ∈ l, f a = .ok (g a)) :
    l.mapM f = .ok (l.map g) := by
  induction l with
  | nil => rfl
  | cons a l ih =>
    obtain ⟨ha, hl⟩ := List.forall_mem_cons.1 h
    rw [List.mapM_cons, ha, ih hl]
    rfl

/-- Going through a list is the same for operations that do the same to its items. -/
theorem mapM_congr {g : α → Except ε β} {l : List α} (h : ∀ a ∈ l, f a = g a) :
    l.mapM f = l.mapM g := by
  induction l with
  | nil => rfl
  | cons a l ih =>
    obtain ⟨ha, hl⟩ := List.forall_mem_cons.1 h
    rw [List.mapM_cons, List.mapM_cons, ha, ih hl]

/-- Going through a list comes to what each item comes to. -/
theorem mapM_eq_ok_iff {l : List α} {bs : List β} :
    l.mapM f = .ok bs ↔ List.Forall₂ (fun a b => f a = .ok b) l bs := by
  induction l generalizing bs with
  | nil =>
    rw [List.mapM_nil, List.forall₂_nil_left_iff]
    exact ⟨fun h => (Except.ok.inj h).symm, fun h => congrArg Except.ok h.symm⟩
  | cons a l ih =>
    rw [List.mapM_cons, bind_eq_ok_iff, List.forall₂_cons_left_iff]
    simp only [bind_eq_ok_iff, ih]
    constructor
    · rintro ⟨b, hb, bs', hbs', h⟩
      exact ⟨b, bs', hb, hbs', (Except.ok.inj h).symm⟩
    · rintro ⟨b, bs', hb, hbs', rfl⟩
      exact ⟨b, hb, bs', hbs', rfl⟩

/-- Going through a list twice is going through it once with both operations. -/
theorem mapM_mapM_eq_ok_iff {γ : Type} {g : β → Except ε γ} {l : List α} {cs : List γ} :
    (∃ bs, l.mapM f = .ok bs ∧ bs.mapM g = .ok cs) ↔
      List.Forall₂ (fun a c => f a >>= g = .ok c) l cs := by
  simp only [mapM_eq_ok_iff, bind_eq_ok_iff]
  constructor
  · rintro ⟨bs, hbs, hcs⟩
    induction hbs generalizing cs with
    | nil => rwa [List.forall₂_nil_left_iff] at hcs ⊢
    | @cons a b l bs hb _ ih =>
      obtain ⟨c, cs, hc, hrest, rfl⟩ := List.forall₂_cons_left_iff.1 hcs
      exact .cons ⟨b, hb, hc⟩ (ih hrest)
  · intro h
    induction h with
    | nil => exact ⟨[], .nil, .nil⟩
    | cons hac _ ih =>
      obtain ⟨b, hb, hc⟩ := hac
      obtain ⟨bs, hbs, hcs⟩ := ih
      exact ⟨b :: bs, .cons hb hbs, .cons hc hcs⟩

/-- Each thing that going through a list comes to is what some item comes to. -/
theorem exists_of_mem_mapM {l : List α} {bs : List β} (h : l.mapM f = .ok bs) {b : β}
    (hb : b ∈ bs) : ∃ a ∈ l, f a = .ok b := by
  rw [mapM_eq_ok_iff] at h
  induction h with
  | nil => cases hb
  | @cons a _ l _ ha _ ih =>
    rcases List.mem_cons.1 hb with rfl | hb
    · exact ⟨a, List.mem_cons_self .., ha⟩
    · obtain ⟨a', hmem, ha'⟩ := ih hb
      exact ⟨a', List.mem_cons_of_mem _ hmem, ha'⟩

end ViewFinder.Fault
