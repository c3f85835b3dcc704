import ViewFinder.Command.Action
import ViewFinder.Command.Workplace
import ViewFinder.Proofs.Registry.Import

/-!
# Programs in a workplace

A program is carried out one part after the other (`Program.run_bind`). Where the workplace has a store
in memory, a dialogue comes to what it leads to against that store, and the link records its requests
(`Workplace.Serving.run_talk`); so does what is done with an open database
(`Workplace.Serving.run_withDatabase`).
-/

namespace ViewFinder.Command

open Store

namespace Program

variable {α β σ : Type} (meet : {γ : Type} → σ → Demand γ → γ × σ)

theorem run_bind (f : α → Program β) (p : Program α) : ∀ s, (p >>= f).run meet s =
    match p.run meet s with
    | (.ok a, s) => (f a).run meet s
    | (.error e, s) => (.error e, s) := by
  induction p with
  | done result => intro s; cases result <;> rfl
  | ask d next ih => intro s; exact ih _ _

theorem run_attempt (p : Program α) : ∀ s, p.attempt.run meet s =
    (.ok (p.run meet s).1, (p.run meet s).2) := by
  induction p with
  | done result => exact fun _ => rfl
  | ask d next ih => exact fun s => ih _ _

end Program

namespace Workplace

/-- The number of saves that have been asked of the store. -/
def saves (w : Workplace) : Nat := w.link.events.countP fun
  | .requested r => r.kind == .save
  | _ => false

/-- The workplace has a store in memory, which is not reached through a server. -/
structure Serving (w : Workplace) (m : Memory) : Prop where
  backend : w.link.backend = .memory { memory := m }
  direct : w.replies = none

/-- The workplace after requests were made of its store. -/
def asked (w : Workplace) (log : List (Request × Answer)) (m : Memory) : Workplace :=
  { w with link := ⟨.memory { memory := m }, (log.map fun x => .requested x.1).reverse ++ w.link.events⟩ }

variable {α β : Type} {w : Workplace} {m : Memory}

theorem run_bind (f : α → Program β) (p : Program α) : w.run (p >>= f) =
    match w.run p with
    | (.ok a, w) => w.run (f a)
    | (.error e, w) => (.error e, w) := by
  unfold run
  rw [Program.run_bind]
  rcases p.run (fun w d => meet w d) w with ⟨_ | _, _⟩ <;> rfl

theorem run_attempt (p : Program α) : w.run p.attempt = (.ok (w.run p).1, (w.run p).2) :=
  Program.run_attempt (fun w d => meet w d) p w

theorem version_answer (m : Memory) (r : Request) : (m.answer r).2.version = m.version := by
  cases r with
  | save document =>
    rw [Memory.answer]
    cases hsave : m.save document with
    | error e => rfl
    | ok saved =>
      simp only [Memory.save, Fault.bind_eq_ok_iff] at hsave
      obtain ⟨_, -, _, -, _, -, _, -, hsave⟩ := hsave
      cases hsave
      rfl
  | _ => rfl

/-- A dialogue with a store in memory comes to what it leads to. The store keeps its version, and the link
records the requests. -/
theorem Serving.run_talk {d : Dialogue α} {post : Dialogue.Post α} (h : w.Serving m) (hd : d.Leads m post) :
    ∃ log result after, w.run (Program.talk d) = (result, w.asked log after) ∧
      after.version = m.version ∧ post log result after := by
  induction d generalizing w m post with
  | done result =>
    refine ⟨[], result, m, ?_, rfl, hd⟩
    have hbackend := h.backend
    obtain ⟨disk, environment, ⟨backend, events⟩, replies, shown⟩ := w
    cases hbackend
    rfl
  | ask r next ih =>
    have hnext : (w.asked [(r, (m.answer r).1)] (m.answer r).2).Serving (m.answer r).2 := ⟨rfl, h.direct⟩
    obtain ⟨log, result, after, hrun, hversion, hpost⟩ := ih _ hnext hd
    refine ⟨(r, (m.answer r).1) :: log, result, after, ?_, hversion.trans (version_answer m r), hpost⟩
    have hmeet : w.meet (.request r) = ((m.answer r).1, w.asked [(r, (m.answer r).1)] (m.answer r).2) := by
      simp only [meet, Link.answer, h.backend, Scripted.answer, Script.next]
      rfl
    have hasked : w.asked ((r, (m.answer r).1) :: log) after =
        (w.asked [(r, (m.answer r).1)] (m.answer r).2).asked log after := by
      simp [asked]
    rw [hasked, ← hrun]
    show (Program.talk (next (w.meet (.request r)).1)).run _ (w.meet (.request r)).2 = _
    rw [hmeet]
    rfl
  | learn views next ih => exact ih h hd

/-- The surroundings but for the store are as they were, and the store was asked for a number of saves. -/
structure Served (w after : Workplace) (m : Memory) (saved : Nat) : Prop where
  serving : after.Serving m
  saves : after.saves = w.saves + saved
  disk : after.disk = w.disk
  shown : after.shown = w.shown

theorem Serving.served_asked (h : w.Serving m) (log : List (Request × Answer)) (after : Memory) :
    w.Served (w.asked log after) after (Registry.saves log) := by
  refine ⟨⟨rfl, h.direct⟩, ?_, rfl, rfl⟩
  rw [Workplace.saves, asked, Workplace.saves, List.countP_append, List.countP_reverse, List.countP_map,
    Nat.add_comm]
  rfl

theorem Serving.served_close (h : w.Serving m) : w.Served { w with link := w.link.close } m 0 :=
  ⟨⟨h.backend, h.direct⟩, rfl, rfl, rfl⟩

theorem Served.trans {between after : Workplace} {m' : Memory} {k l : Nat} (h : w.Served between m k)
    (h' : between.Served after m' l) : w.Served after m' (k + l) where
  serving := h'.serving
  saves := by rw [h'.saves, h.saves, Nat.add_assoc]
  disk := h'.disk.trans h.disk
  shown := h'.shown.trans h.shown

/-- The version of the store that the settings go by: their own, or else that of the store. -/
def versionFor (c : Config) (m : Memory) : Value :=
  if c.connection.version.isNull then m.version else c.connection.version

/-- A database is opened without a save. -/
theorem open_leads {c : Config} {p : Profile} (h : Profile.ofValue (versionFor c m) = .ok p)
    (allowAdHoc : Bool) : (Database.open c.connection.version allowAdHoc).Leads m
      fun log result after => Registry.saves log = 0 ∧ after = m ∧
        result = .ok { profile := p, allowAdHoc } := by
  rw [Database.open]
  cases hnull : c.connection.version.isNull with
  | true =>
    rw [versionFor, if_pos hnull] at h
    refine Dialogue.Leads.bind (Dialogue.leads_request ?_)
    refine Dialogue.leads_lift (fun q hq => ?_) fun e he => ?_
    · cases h.symm.trans hq
      exact ⟨rfl, rfl, rfl⟩
    · cases h.symm.trans he
  | false =>
    rw [versionFor, hnull, if_neg (by decide)] at h
    refine Dialogue.Leads.bind (Dialogue.leads_done ?_)
    refine Dialogue.leads_lift (fun q hq => ?_) fun e he => ?_
    · cases h.symm.trans hq
      exact ⟨rfl, rfl, rfl⟩
    · cases h.symm.trans he

/-- What is done with an open database comes to what it leads to. -/
theorem Serving.run_withDatabase (h : w.Serving m) {c : Config} {p : Profile}
    (hopen : Profile.ofValue (versionFor c m) = .ok p) {body : Database → Dialogue α}
    {post : Dialogue.Post α}
    (hbody : (body { profile := p, allowAdHoc := c.query.allowAdHoc.truthy }).Leads m post) :
    ∃ log result after w', w.run (withDatabase c body) = (result, w') ∧
      w.Served w' after (Registry.saves log) ∧ after.version = m.version ∧ post log result after := by
  have hconnect : w.run (Program.demandOk (.connect c.connection)) = (.ok (), w) := by
    have hdirect : w.connect c.connection = (.ok (), w) := by rw [connect, h.direct]
    show ((w.connect c.connection).1, (w.connect c.connection).2) = _
    rw [hdirect]
  obtain ⟨log, result, m', hrun, hversion, hsaves, rfl, rfl⟩ :=
    h.run_talk (open_leads hopen c.query.allowAdHoc.truthy)
  have hopened := h.served_asked log m'
  obtain ⟨log', result, after, hrun', hversion', hpost⟩ := hopened.serving.run_talk hbody
  have hdone := hopened.serving.served_asked log' after
  have hserved := (hopened.trans hdone).trans hdone.serving.served_close
  rw [hsaves, Nat.zero_add, Nat.add_zero] at hserved
  refine ⟨log', result, after, _, ?_, hserved, hversion', hpost⟩
  rw [withDatabase, run_bind, hconnect]
  simp only
  rw [run_bind, hrun]
  simp only
  rw [run_bind, run_attempt, hrun']
  rfl

end Workplace

end ViewFinder.Command
