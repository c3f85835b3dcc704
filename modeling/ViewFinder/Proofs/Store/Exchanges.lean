import ViewFinder.Store.Dialogue

/-!
# The requests of a dialogue

`Dialogue.exchanges` lists the requests that a dialogue makes when it is carried out, each with the
answer it got. Most operations give up at the first fault (`Dialogue.PassesOn`): no request follows
it, and it is what the operation comes to (`Dialogue.PassesOn.ends_at`).
-/

namespace ViewFinder

open Store

namespace Dialogue

variable {α β σ : Type}

/-- The requests that a dialogue makes, each with its answer. -/
def exchanges (answer : σ → Request → Answer × σ) (s : σ) : Dialogue α → List (Request × Answer)
  | .done _ => []
  | .ask r next => (r, (answer s r).1) :: exchanges answer (answer s r).2 (next (answer s r).1)
  | .learn _ next => exchanges answer s next

theorem run_ask (answer : σ → Request → Answer × σ) (views : List Value) (s : σ) (r : Request)
    (next : Answer → Dialogue α) : (ask r next).run answer views s =
      (next (answer s r).1).run answer views (answer s r).2 :=
  rfl

/-- The requests of a dialogue that goes on are those of its parts, one after the other. -/
theorem exchanges_bind (answer : σ → Request → Answer × σ) (f : α → Dialogue β) (d : Dialogue α) :
    ∀ views s, (d >>= f).exchanges answer s = d.exchanges answer s ++
      match d.run answer views s with
      | (.ok a, _, s) => (f a).exchanges answer s
      | (.error _, _, _) => [] := by
  induction d with
  | done result => intro _ _; cases result <;> rfl
  | ask r next ih => intro views s; exact congrArg (_ :: ·) (ih _ views _)
  | learn seen next ih => intro _ s; exact ih seen s

/-! ## Giving up at a fault -/

/-- Does a dialogue end with every fault that it is answered, those that it tolerates apart? -/
def PassesOn (tolerated : Request → Fault → Prop) : Dialogue α → Prop
  | .done _ => True
  | .ask r next => (∀ e, ¬ tolerated r e → next (.error e) = .done (.error e)) ∧
      ∀ a, PassesOn tolerated (next a)
  | .learn _ next => PassesOn tolerated next

section
variable {tolerated : Request → Fault → Prop}

theorem passesOn_request (r : Request) : (request r).PassesOn tolerated :=
  ⟨fun _ _ => rfl, fun _ => trivial⟩

/-- What goes on passes on the faults of its parts. -/
theorem PassesOn.bind {f : α → Dialogue β} (hf : ∀ a, (f a).PassesOn tolerated) {d : Dialogue α}
    (h : d.PassesOn tolerated) : (d >>= f).PassesOn tolerated := by
  induction d with
  | done result =>
    cases result with
    | ok a => exact hf a
    | error e => trivial
  | ask r next ih =>
    exact ⟨fun e he => congrArg (Dialogue.bind f) (h.1 e he), fun a => ih a (h.2 a)⟩
  | learn seen next ih => exact ih h

/-- A fault that is not tolerated is the last answer, and what the dialogue comes to. -/
theorem PassesOn.ends_at (answer : σ → Request → Answer × σ) {r : Request} {e : Fault}
    (he : ¬ tolerated r e) {after : List (Request × Answer)} {d : Dialogue α}
    (h : d.PassesOn tolerated) : ∀ {views s before},
      d.exchanges answer s = before ++ (r, .error e) :: after →
        after = [] ∧ (d.run answer views s).1 = .error e := by
  induction d with
  | done result =>
    intro views s before hlog
    simp [exchanges] at hlog
  | ask asked next ih =>
    intro views s before hlog
    cases before with
    | nil =>
      simp only [exchanges, List.nil_append, List.cons.injEq, Prod.mk.injEq] at hlog
      obtain ⟨⟨rfl, hanswer⟩, hafter⟩ := hlog
      have hnext := h.1 e he
      rw [hanswer, hnext] at hafter
      refine ⟨hafter.symm, ?_⟩
      rw [run_ask, hanswer, hnext]
      rfl
    | cons first before =>
      rw [exchanges, List.cons_append, List.cons.injEq] at hlog
      exact ih _ (h.2 _) hlog.2
  | learn seen next ih =>
    intro views s before hlog
    exact ih h hlog

end

end Dialogue

end ViewFinder
