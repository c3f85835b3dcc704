import ViewFinder.Proofs.Registry
import ViewFinder.Query.Execution

/-!
# Views that are registered on a miss

A query is sent to its view as if that were there. Only when the store does not find it is the view
registered, and the query sent once more: whatever the store answers, no further request is made, and
no other fault is taken for a miss (`CompiledQuery.executeIndexed_exchanges`).
-/

namespace ViewFinder

open Store

/-- Does an answer say that something was not found? -/
def Store.missed : Answer → Bool
  | .error e => e.isNotFound
  | .ok _ => false

namespace CompiledQuery

section
variable (q : CompiledQuery) (s : Setting)

/-- The request of a query for its view. -/
def viewRequest : Request := .view (q.viewPath s.profile) q.params

/-- How a query goes on when its view has been asked for. -/
def settling : Answer → Dialogue Value
  | .error (.notFound _) => do
    let _ ← Registry.ensure s.designName q.view
    Dialogue.request (q.viewRequest s)
  | answer => .done answer

theorem executeIndexed_eq : q.executeIndexed s = .ask (q.viewRequest s) (q.settling s) := by
  refine congrArg (Dialogue.ask _) (funext fun answer => ?_)
  rcases answer with e | response
  · cases e <;> rfl
  · rfl

variable {q s}

theorem settling_of_not_missed {a : Answer} (h : missed a = false) : q.settling s a = .done a := by
  rcases a with e | response
  · cases e <;> first | rfl | cases h
  · rfl

theorem settling_of_missed {a : Answer} (h : missed a = true) : q.settling s a = (do
    let _ ← Registry.ensure s.designName q.view
    Dialogue.request (q.viewRequest s)) := by
  rcases a with e | response
  · cases e <;> first | rfl | cases h
  · cases h

/-- From its first answer on, a query comes to every fault but that there is no design document. -/
theorem passesOn_settling (a : Answer) : (q.settling s a).PassesOn fun r e =>
    r = .get (.str (Registry.designId s.designName)) ∧ e.isNotFound = true := by
  cases h : missed a with
  | true =>
    rw [settling_of_missed h]
    exact (Registry.passesOn_ensure s.designName q.view).bind fun _ => Dialogue.passesOn_request _
  | false =>
    rw [settling_of_not_missed h]
    trivial

end

section
variable {σ : Type} (answer : σ → Request → Answer × σ) (views : List Value) (st : σ)
  (q : CompiledQuery) (s : Setting)

section
variable {first : Answer} {after : σ} (hfirst : answer st (q.viewRequest s) = (first, after))
include hfirst

theorem exchanges_executeIndexed : (q.executeIndexed s).exchanges answer st =
    (q.viewRequest s, first) :: (q.settling s first).exchanges answer after := by
  rw [executeIndexed_eq, Dialogue.exchanges, hfirst]

theorem run_executeIndexed : (q.executeIndexed s).run answer views st =
    (q.settling s first).run answer views after := by
  rw [executeIndexed_eq, Dialogue.run_ask, hfirst]

end

/-- A fault that says neither that there is no view, in answer to the first request, nor that there is
no design document is the last answer, and what the query comes to. -/
theorem last_of_fault {before rest : List (Request × Answer)} {r : Request} {e : Fault}
    (hsplit : (q.executeIndexed s).exchanges answer st = before ++ (r, .error e) :: rest)
    (hother : ¬ (e.isNotFound = true ∧
      (before = [] ∨ r = .get (.str (Registry.designId s.designName))))) :
    rest = [] ∧ ((q.executeIndexed s).run answer views st).1 = .error e := by
  rcases hanswer : answer st (q.viewRequest s) with ⟨first, after⟩
  rw [exchanges_executeIndexed answer st q s hanswer] at hsplit
  rw [run_executeIndexed answer views st q s hanswer]
  cases before with
  | nil =>
    -- the first answer is a fault, and no miss
    simp only [List.nil_append, List.cons.injEq, Prod.mk.injEq] at hsplit
    obtain ⟨⟨-, rfl⟩, rfl⟩ := hsplit
    have hnot : missed (.error e) = false := Bool.eq_false_iff.2 fun h => hother ⟨h, .inl rfl⟩
    rw [settling_of_not_missed hnot]
    exact ⟨rfl, rfl⟩
  | cons asked before =>
    rw [List.cons_append, List.cons.injEq] at hsplit
    exact (passesOn_settling first).ends_at answer
      (fun htolerated => hother ⟨htolerated.2, .inr htolerated.1⟩) hsplit.2

/-- The second request of a query for its view, if the view could be registered. -/
def retry : List (Request × Answer) :=
  match (Registry.ensure s.designName q.view).run answer views st with
  | (.ok _, _, after) => [(q.viewRequest s, (answer after (q.viewRequest s)).1)]
  | (.error _, _, _) => []

variable {a : Answer} (h : missed a = true)
include h

/-- A query that misses its view registers it and is sent once more. -/
theorem exchanges_of_missed : (q.settling s a).exchanges answer st =
    (Registry.ensure s.designName q.view).exchanges answer st ++
      retry answer views st q s := by
  rw [settling_of_missed h, Dialogue.exchanges_bind answer _ _ views, retry]
  rcases (Registry.ensure s.designName q.view).run answer views st with ⟨_ | _, _, _⟩ <;> rfl

/-- It comes to the second answer for its view, or to the fault that kept the view from being
registered. -/
theorem run_of_missed : ((q.settling s a).run answer views st).1 =
    match (Registry.ensure s.designName q.view).run answer views st with
    | (.ok _, _, after) => (answer after (q.viewRequest s)).1
    | (.error e, _, _) => .error e := by
  rw [settling_of_missed h, Dialogue.run_bind]
  rcases (Registry.ensure s.designName q.view).run answer views st with ⟨_ | _, _, _⟩ <;> rfl

/-- It comes to a response just when that is the answer to its last request, one for its view. -/
theorem run_of_missed_eq_ok_iff (v : Value) : ((q.settling s a).run answer views st).1 = .ok v ↔
    ((q.settling s a).exchanges answer st).getLast? = some (q.viewRequest s, .ok v) := by
  rw [run_of_missed answer views st q s h, exchanges_of_missed answer views st q s h, retry]
  rcases (Registry.ensure s.designName q.view).run answer views st with ⟨e | written, seen, after⟩
  · obtain ⟨got, hlog | ⟨document, stored, hlog⟩⟩ :=
      Registry.exchanges_ensure s.designName q.view answer st <;>
      simp [hlog, viewRequest]
  · simp

end

/-- Whatever the store answers, a query makes one request for its view, or two with the same path
and the same parameters. Just when the first is answered that the view is not found, the view is
registered in between, with one request for the design document and one to save it at most. What the
query comes to, if not to a fault, is the answer to its last request for the view. Every fault but
the two that say that there is no view, or no design document, is the last answer, and what the query
comes to. -/
theorem executeIndexed_exchanges {σ : Type} (answer : σ → Request → Answer × σ) (views : List Value)
    (st : σ) (q : CompiledQuery) (s : Setting) :
    ∃ first after registering again, answer st (q.viewRequest s) = (first, after) ∧
      (q.executeIndexed s).exchanges answer st =
        (q.viewRequest s, first) :: (registering ++ again) ∧
      (missed first = false → registering = [] ∧ again = []) ∧
      (missed first = true →
        registering = (Registry.ensure s.designName q.view).exchanges answer after ∧
        (∃ got, registering = [(.get (.str (Registry.designId s.designName)), got)] ∨
          ∃ document stored, registering =
            [(.get (.str (Registry.designId s.designName)), got), (.save document, stored)]) ∧
        again = retry answer views after q s ∧
        ∀ e seen last, (Registry.ensure s.designName q.view).run answer views after =
            (.error e, seen, last) → ((q.executeIndexed s).run answer views st).1 = .error e) ∧
      (∀ v, ((q.executeIndexed s).run answer views st).1 = .ok v ↔
        ((q.executeIndexed s).exchanges answer st).getLast? = some (q.viewRequest s, .ok v)) ∧
      ∀ before r e rest,
        (q.executeIndexed s).exchanges answer st = before ++ (r, .error e) :: rest →
        ¬ (e.isNotFound = true ∧
          (before = [] ∨ r = .get (.str (Registry.designId s.designName)))) →
        rest = [] ∧ ((q.executeIndexed s).run answer views st).1 = .error e := by
  rcases hfirst : answer st (q.viewRequest s) with ⟨first, after⟩
  have hlog := exchanges_executeIndexed answer st q s hfirst
  have hrun := run_executeIndexed answer views st q s hfirst
  cases hmissed : missed first with
  | true =>
    refine ⟨first, after, (Registry.ensure s.designName q.view).exchanges answer after,
      retry answer views after q s, rfl, ?_, fun h => absurd (hmissed.symm.trans h) (by decide),
      fun _ => ⟨rfl, Registry.exchanges_ensure s.designName q.view answer after, rfl,
        fun e seen last he => ?_⟩, fun v => ?_,
      fun _ _ _ _ => last_of_fault answer views st q s⟩
    · rw [hlog, exchanges_of_missed answer views after q s hmissed]
    · rw [hrun, run_of_missed answer views after q s hmissed, he]
    · rw [hlog, hrun, run_of_missed_eq_ok_iff answer views after q s hmissed]
      obtain ⟨got, hensure | ⟨document, stored, hensure⟩⟩ :=
        Registry.exchanges_ensure s.designName q.view answer after <;>
        simp [exchanges_of_missed answer views after q s hmissed, hensure]
  | false =>
    refine ⟨first, after, [], [], rfl, ?_, fun _ => ⟨rfl, rfl⟩,
      fun h => absurd (hmissed.symm.trans h) (by decide), fun v => ?_,
      fun _ _ _ _ => last_of_fault answer views st q s⟩
    · rw [hlog, settling_of_not_missed hmissed]
      rfl
    · rw [hlog, hrun, settling_of_not_missed hmissed]
      simp [Dialogue.exchanges, Dialogue.run]

end CompiledQuery

end ViewFinder
