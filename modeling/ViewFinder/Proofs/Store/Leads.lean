import ViewFinder.Proofs.Store.Exchanges
import ViewFinder.Proofs.Store.Registration

/-!
# What a dialogue leads to

Carried out against a store in memory a dialogue makes requests, comes to a result and leaves a store.
`Dialogue.Leads` says what holds of the three. It is proved one part of the dialogue after the other
(`Dialogue.Leads.bind`), and holds of what is carried out (`Dialogue.Leads.run`). Where the requests do
not matter a part keeps a property of the store and comes to a result of a kind (`Dialogue.Safe`).
-/

namespace ViewFinder

open Store

namespace Dialogue

variable {α β : Type}

/-- What may hold of the requests with their answers, of the result, and of the store afterwards. -/
abbrev Post (α : Type) := List (Request × Answer) → Except Fault α → Memory → Prop

/-- It holds whatever is made of the result, as long as a fault stays one. -/
def Post.made (post : Post β) : Post α := fun log result after =>
  ∀ made : Except Fault β, (∀ b, made = .ok b → ∃ a, result = .ok a) → post log made after

/-- Carried out against a store in memory a dialogue leads to what is described. -/
def Leads : Dialogue α → Memory → Post α → Prop
  | .done result, m, post => post [] result m
  | .ask r next, m, post => Leads (next (m.answer r).1) (m.answer r).2
      fun log => post ((r, (m.answer r).1) :: log)
  | .learn _ next, m, post => Leads next m post

/-- Something can be made of what is made. -/
theorem Post.made.again {γ : Type} {post : Post γ} {log : List (Request × Answer)}
    {result : Except Fault α} {after : Memory} (h : post.made log result after) :
    (post.made : Post β).made log result after := fun first hfirst second hsecond =>
  h second fun c hc => by
    obtain ⟨b, hb⟩ := hsecond c hc
    exact hfirst b hb

/-- Nothing but a fault is made of a fault. -/
theorem Post.made_error {post : Post β} {log : List (Request × Answer)} {after : Memory}
    (h : ∀ e, post log (.error e) after) (e : Fault) :
    (post.made : Post α) log (.error e) after := by
  intro made hmade
  cases made with
  | ok b =>
    obtain ⟨a, ha⟩ := hmade b rfl
    cases ha
  | error e => exact h e

section
variable {m : Memory} {post : Post α}

theorem leads_done {result : Except Fault α} (h : post [] result m) :
    (done result).Leads m post := h

theorem leads_request {r : Request} {post : Post Value}
    (h : post [(r, (m.answer r).1)] (m.answer r).1 (m.answer r).2) : (request r).Leads m post := h

/-- What a dialogue leads to holds of what is carried out. -/
theorem Leads.run {d : Dialogue α} (h : d.Leads m post) (views : List Value) :
    post (d.exchanges Memory.answer m) (d.run Memory.answer views m).1
      (d.run Memory.answer views m).2.2 := by
  induction d generalizing m post views with
  | done result => exact h
  | ask r next ih => exact ih _ h views
  | learn seen next ih => exact ih h seen

/-- It is how the dialogue ends, whatever views were seen before. -/
theorem Leads.exists_ends {d : Dialogue α} (h : d.Leads m post) : ∃ log result after,
    d.exchanges Memory.answer m = log ∧ d.Ends m result after ∧ post log result after := by
  induction d generalizing m post with
  | done result => exact ⟨[], result, m, rfl, ends_done result, h⟩
  | ask r next ih =>
    obtain ⟨log, result, after, hlog, hends, hpost⟩ := ih _ h
    exact ⟨_, result, after, congrArg (_ :: ·) hlog, hends, hpost⟩
  | learn seen next ih =>
    obtain ⟨log, result, after, hlog, hends, hpost⟩ := ih h
    exact ⟨log, result, after, hlog, fun _ => hends seen, hpost⟩

theorem Leads.mono {d : Dialogue α} {post' : Post α} (h : d.Leads m post)
    (hpost : ∀ log result after, post log result after → post' log result after) :
    d.Leads m post' := by
  induction d generalizing m post post' with
  | done result => exact hpost _ _ _ h
  | ask r next ih => exact ih _ h fun log => hpost _
  | learn seen next ih => exact ih h hpost

/-- Two parts lead to what the second leads to after the first. -/
theorem Leads.bind {d : Dialogue α} {f : α → Dialogue β} {post : Post β}
    (h : d.Leads m fun log result after => match result with
      | .ok a => (f a).Leads after fun log' => post (log ++ log')
      | .error e => post log (.error e) after) : (d >>= f).Leads m post := by
  induction d generalizing m post with
  | done result =>
    cases result with
    | ok a => exact h
    | error e => exact h
  | ask r next ih => exact ih _ h
  | learn seen next ih => exact ih h

/-- What is made of the result without a request does not matter. -/
theorem Leads.make {d : Dialogue α} {f : α → Dialogue β} {post : Post β} (h : d.Leads m post.made)
    (hf : ∀ a, ∃ made, f a = done made) : (d >>= f).Leads m post := by
  refine Leads.bind (h.mono fun log result after hmade => ?_)
  cases result with
  | error e => exact hmade _ nofun
  | ok a =>
    obtain ⟨made, hmade'⟩ := hf a
    show (f a).Leads after _
    rw [hmade']
    refine leads_done ?_
    rw [List.append_nil]
    exact hmade _ fun _ _ => ⟨a, rfl⟩

/-- A fault is gone on with like a result. -/
theorem Leads.recover {d : Dialogue α} {f : Fault → Dialogue α} {post : Post α}
    (h : d.Leads m fun log result after => match result with
      | .ok a => post log (.ok a) after
      | .error e => (f e).Leads after fun log' => post (log ++ log')) :
    (d.recover f).Leads m post := by
  induction d generalizing m post with
  | done result =>
    cases result with
    | ok a => exact h
    | error e => exact h
  | ask r next ih => exact ih _ h
  | learn seen next ih => exact ih h

theorem leads_ite {c : Prop} [Decidable c] {d d' : Dialogue α} (h : d.Leads m post)
    (h' : d'.Leads m post) : (if c then d else d').Leads m post := by
  split
  · exact h
  · exact h'

/-- A step that makes no request. -/
theorem leads_lift {x : Except Fault α} {f : α → Dialogue β} {post : Post β}
    (hok : ∀ a, x = .ok a → (f a).Leads m post)
    (herror : ∀ e, x = .error e → post [] (.error e) m) :
    ((monadLift x : Dialogue α) >>= f).Leads m post := by
  cases x with
  | ok a => exact hok a rfl
  | error e => exact herror e rfl

end

/-! ## Whatever is asked for -/

/-- A property of the store is kept, and the result is of a kind, if there is one. -/
def Safe (I : Memory → Prop) (p : α → Prop) : Post α := fun _ result after =>
  I after ∧ ∀ a, result = .ok a → p a

section
variable {I : Memory → Prop} {p : α → Prop} {p' : β → Prop} {m : Memory}

theorem safe_done {result : Except Fault α} (hI : I m) (h : ∀ a, result = .ok a → p a) :
    (done result).Leads m (Safe I p) := ⟨hI, h⟩

theorem safe_request {r : Request} {p : Value → Prop} (hI : I (m.answer r).2)
    (h : ∀ v, (m.answer r).1 = .ok v → p v) : (request r).Leads m (Safe I p) := ⟨hI, h⟩

/-- The second part goes on from what the first part keeps. -/
theorem Leads.safe_bind {d : Dialogue α} {f : α → Dialogue β} (h : d.Leads m (Safe I p))
    (hf : ∀ a after, I after → p a → (f a).Leads after (Safe I p')) :
    (d >>= f).Leads m (Safe I p') := by
  refine Leads.bind (h.mono fun log result after ⟨hI, hp⟩ => ?_)
  cases result with
  | ok a => exact hf a after hI (hp a rfl)
  | error e => exact ⟨hI, nofun⟩

theorem safe_lift {x : Except Fault α} {f : α → Dialogue β} (hI : I m)
    (h : ∀ a, x = .ok a → (f a).Leads m (Safe I p')) :
    ((monadLift x : Dialogue α) >>= f).Leads m (Safe I p') :=
  leads_lift h fun _ _ => ⟨hI, nofun⟩

end

end Dialogue

end ViewFinder
