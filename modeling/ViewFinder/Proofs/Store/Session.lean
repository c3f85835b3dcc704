import Mathlib.Logic.Relation
import ViewFinder.Proofs.Store.Registration

/-!
# Calls one after the other

Calls are carried out against a store in memory one after the other (`Store.Session`), request by
request, and other documents than the one that is watched may change at any time
(`Session.Step`). What holds of this document at the beginning holds in every state, if each call keeps
it (`Session.keeps_run`): whatever else the store holds, no request of the call ends it
(`Dialogue.Keeps`).
-/

namespace ViewFinder

open Store

namespace Dialogue

variable {α β : Type} {id : String} {I : Option Value → Prop}

/-- From a state in which the document of an id is as given, what holds of it is kept: every request keeps
it, in whatever store it is made, if nothing but the dialogue has changed the document till then. -/
def KeepsFrom (id : String) (I : Option Value → Prop) : Dialogue α → Option Value → Prop
  | .done _, _ => True
  | .ask r next, document => ∀ m : Memory, m.documents.get? id = document →
      I ((m.answer r).2.documents.get? id) ∧
        (next (m.answer r).1).KeepsFrom id I ((m.answer r).2.documents.get? id)
  | .learn _ next, document => next.KeepsFrom id I document

/-- What holds of the document of an id is kept. -/
def Keeps (id : String) (I : Option Value → Prop) (d : Dialogue α) : Prop :=
  ∀ document, I document → d.KeepsFrom id I document

theorem keeps_done (result : Except Fault α) : (done result).Keeps id I := fun _ _ => trivial

/-- A request that leaves the store as it is. -/
theorem keeps_ask {r : Request} (hr : ∀ m : Memory, (m.answer r).2 = m) {next : Answer → Dialogue α}
    (h : ∀ answer, (next answer).Keeps id I) : (ask r next).Keeps id I := fun document hI m hm => by
  rw [hr m, hm]
  exact ⟨hI, h _ document hI⟩

theorem keeps_request {r : Request} (hr : ∀ m : Memory, (m.answer r).2 = m) :
    (request r).Keeps id I :=
  keeps_ask hr fun _ => keeps_done _

/-- Going on keeps what both parts keep. -/
theorem Keeps.bind {d : Dialogue α} {f : α → Dialogue β} (hd : d.Keeps id I)
    (hf : ∀ a, (f a).Keeps id I) : (d >>= f).Keeps id I := by
  have hfrom (d : Dialogue α) : ∀ document, I document → d.KeepsFrom id I document →
      (d >>= f).KeepsFrom id I document := by
    induction d with
    | done result =>
      intro document hI _
      cases result with
      | ok a => exact hf a document hI
      | error e => trivial
    | ask r next ih => exact fun document _ h m hm => ⟨(h m hm).1, ih _ _ (h m hm).1 (h m hm).2⟩
    | learn seen next ih => exact ih
  exact fun document hI => hfrom d document hI (hd document hI)

/-- So does going on from a fault. -/
theorem Keeps.recover {d : Dialogue α} {f : Fault → Dialogue α} (hd : d.Keeps id I)
    (hf : ∀ e, (f e).Keeps id I) : (d.recover f).Keeps id I := by
  have hfrom (d : Dialogue α) : ∀ document, I document → d.KeepsFrom id I document →
      (d.recover f).KeepsFrom id I document := by
    induction d with
    | done result =>
      intro document hI _
      cases result with
      | ok a => trivial
      | error e => exact hf e document hI
    | ask r next ih => exact fun document _ h m hm => ⟨(h m hm).1, ih _ _ (h m hm).1 (h m hm).2⟩
    | learn seen next ih => exact ih
  exact fun document hI => hfrom d document hI (hd document hI)

/-- A step that makes no request keeps what its result keeps. -/
theorem keeps_lift {x : Except Fault α} {f : α → Dialogue β}
    (h : ∀ a, x = .ok a → (f a).Keeps id I) : ((monadLift x : Dialogue α) >>= f).Keeps id I := by
  cases x with
  | ok a => exact h a rfl
  | error e => exact keeps_done _

theorem keeps_ite {c : Prop} [Decidable c] {d d' : Dialogue α}
    (hd : d.Keeps id I) (hd' : d'.Keeps id I) : (if c then d else d').Keeps id I := by
  split
  · exact hd
  · exact hd'

end Dialogue

namespace Store

/-- A store in memory on which calls are carried out one after the other. -/
structure Session where
  memory : Memory
  /-- The names of the views seen last. -/
  known : List Value := []
  /-- What is left of the call that is under way. -/
  rest : Dialogue Unit := .done (.ok ())

namespace Session

/-- One step of a session: when a call is over another one begins, a call makes its next request or
notes which views there are; or other documents change than the one of an id. -/
inductive Step (id : String) (call : Dialogue Unit → Prop) (s : Session) : Session → Prop
  | begin (result : Except Fault Unit) (hidle : s.rest = .done result) (d : Dialogue Unit)
    (hcall : call d) : Step id call s { s with rest := d }
  | ask (request : Request) (next : Answer → Dialogue Unit) (hrest : s.rest = .ask request next) :
    Step id call s { s with
      memory := (s.memory.answer request).2
      rest := next (s.memory.answer request).1 }
  | learn (names : List Value) (next : Dialogue Unit) (hrest : s.rest = .learn names next) :
    Step id call s { s with known := names, rest := next }
  | elsewhere (m : Memory) (h : m.documents.get? id = s.memory.documents.get? id) :
    Step id call s { s with memory := m }

variable {id : String} {call : Dialogue Unit → Prop}

/-- A call that is carried out with no changes elsewhere. -/
theorem reaches_run (d : Dialogue Unit) : ∀ {m after : Memory} {known seen : List Value}
    {result : Except Fault Unit}, d.run Memory.answer known m = (result, seen, after) →
      Relation.ReflTransGen (Step id call) ⟨m, known, d⟩ ⟨after, seen, .done result⟩ := by
  induction d with
  | done result =>
    intro m after known seen result' h
    cases h
    exact .refl
  | ask r next ih => exact fun h => .head (.ask r next rfl) (ih _ h)
  | learn names next ih => exact fun h => .head (.learn names next rfl) (ih h)

/-- What holds of the document of an id, and is kept by what is left of a call. -/
def Holds (id : String) (I : Option Value → Prop) (s : Session) : Prop :=
  I (s.memory.documents.get? id) ∧ s.rest.KeepsFrom id I (s.memory.documents.get? id)

section
variable {I : Option Value → Prop} (hcall : ∀ d, call d → d.Keeps id I) {s t : Session}
include hcall

/-- A step keeps what each call keeps. -/
theorem Holds.step (h : s.Holds id I) (hstep : Step id call s t) : t.Holds id I := by
  obtain ⟨hI, hrest⟩ := h
  cases hstep with
  | begin result hidle d hd => exact ⟨hI, hcall d hd _ hI⟩
  | ask request next hask =>
    rw [hask] at hrest
    exact hrest s.memory rfl
  | learn names next hlearn =>
    rw [hlearn] at hrest
    exact ⟨hI, hrest⟩
  | elsewhere m hm =>
    rw [Holds, hm]
    exact ⟨hI, hrest⟩

/-- What holds at the beginning, when no call is under way, holds in every state. -/
theorem keeps_run {result : Except Fault Unit} (hidle : s.rest = .done result)
    (hI : I (s.memory.documents.get? id)) (hrun : Relation.ReflTransGen (Step id call) s t) :
    I (t.memory.documents.get? id) := by
  have hstart : s.Holds id I := ⟨hI, by rw [hidle]; trivial⟩
  have hholds : t.Holds id I := by
    induction hrun with
    | refl => exact hstart
    | tail _ hstep ih => exact ih.step hcall hstep
  exact hholds.1

end

end Session

end Store

end ViewFinder
