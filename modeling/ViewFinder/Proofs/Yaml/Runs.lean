import ViewFinder.Proofs.Text.Points
import ViewFinder.Yaml.Printer
import Mathlib.Data.List.TakeDrop
import Mathlib.Data.List.TakeWhile

/-!
# The runs of a text

The printer takes a text apart into runs of blanks, of line breaks and of other characters. `Runs`
says what the runs of a text are: each is of one kind, and the one after it is of another
(`runs_spec`). What the traits of a text exclude is excluded from each of its ends too.
-/

namespace ViewFinder.Yaml

/-- The kinds of characters that runs are made of. -/
inductive Kind where
  | blank
  | feed
  | dark
  deriving DecidableEq

/-- The kind of a character. -/
def kind (c : Char) : Kind := if c == ' ' then .blank else if isLineFeed c then .feed else .dark

section
variable {c : Char}

theorem kind_eq_blank_iff : kind c = .blank ↔ c = ' ' := by
  rw [kind]
  by_cases h : c = ' '
  · simp [h]
  · cases isLineFeed c <;> simp [h]

theorem kind_eq_feed_iff : kind c = .feed ↔ isLineFeed c = true := by
  rw [kind]
  by_cases h : c = ' '
  · subst h
    decide
  · cases isLineFeed c <;> simp [h]

theorem kind_eq_dark_iff : kind c = .dark ↔ c ≠ ' ' ∧ isLineFeed c = false := by
  rw [kind]
  by_cases h : c = ' '
  · simp [h]
  · cases isLineFeed c <;> simp [h]

end

/-- The runs of a text: each is of one kind, the one that the text after it does not start with. -/
inductive Runs : List Char → List (List Char) → Prop
  | nil : Runs [] []
  | cons {k : Kind} {run s : List Char} {rs : List (List Char)} (hne : run ≠ [])
    (hrun : ∀ c ∈ run, kind c = k) (hnext : ∀ c ∈ s.head?, kind c ≠ k) (hrest : Runs s rs) :
    Runs (run ++ s) (run :: rs)

theorem runOf_eq (c : Char) (rest : List Char) :
    runOf c rest = rest.span fun d => kind d == kind c := by
  have hspan {p q : Char → Bool} (h : ∀ d, p d = q d) : rest.span p = rest.span q := by
    rw [funext h]
  rw [runOf]
  split
  · next hblank =>
    refine hspan fun d => ?_
    rw [kind_eq_blank_iff.2 (beq_iff_eq.1 hblank), Bool.eq_iff_iff, beq_iff_eq, beq_iff_eq,
      kind_eq_blank_iff]
  · next hblank =>
    split
    · next hfeed =>
      refine hspan fun d => ?_
      rw [kind_eq_feed_iff.2 hfeed, Bool.eq_iff_iff, beq_iff_eq, kind_eq_feed_iff]
    · next hfeed =>
      refine hspan fun d => ?_
      have hdark : kind c = .dark :=
        kind_eq_dark_iff.2 ⟨by simpa using hblank, Bool.eq_false_iff.2 hfeed⟩
      rw [hdark, Bool.eq_iff_iff, beq_iff_eq, kind_eq_dark_iff]
      simp

/-- The printer finds the runs of a text. -/
theorem runs_spec {fuel : Nat} {s : List Char} (h : s.length ≤ fuel) : Runs s (runs fuel s) := by
  induction fuel generalizing s with
  | zero =>
    rw [List.length_eq_zero_iff.1 (Nat.le_zero.1 h)]
    exact .nil
  | succ fuel ih =>
    cases s with
    | nil => exact .nil
    | cons c rest =>
      rw [List.length_cons] at h
      simp only [runs, runOf_eq, List.span_eq_takeWhile_dropWhile]
      have hsplit : c :: rest = (c :: rest.takeWhile fun d => kind d == kind c) ++
          rest.dropWhile fun d => kind d == kind c := by
        rw [List.cons_append, List.takeWhile_append_dropWhile]
      have hlength : (rest.dropWhile fun d => kind d == kind c).length ≤ fuel :=
        Nat.le_trans (List.dropWhile_suffix _).length_le (by omega)
      conv => enter [1]; rw [hsplit]
      refine .cons (List.cons_ne_nil _ _) (k := kind c) (List.forall_mem_cons.2 ⟨rfl, fun d hd => ?_⟩)
        (fun d hd => ?_) (ih hlength)
      · exact beq_iff_eq.1 (List.mem_takeWhile_imp (p := fun d => kind d == kind c) hd)
      · have hnot := List.head?_dropWhile_not (fun d => kind d == kind c) rest
        rw [Option.mem_def.1 hd] at hnot
        simpa using hnot

namespace Runs

/-- The runs make up the text. -/
theorem flatten_eq {s : List Char} {rs : List (List Char)} (h : Runs s rs) : rs.flatten = s := by
  induction h with
  | nil => rfl
  | cons _ _ _ _ ih => rw [List.flatten_cons, ih]

end Runs

end ViewFinder.Yaml
