import Mathlib.Logic.Function.Basic
import Mathlib.Logic.Relation
import ViewFinder.Proofs.Registry.StoredViews

/-!
# Registering views at the same time

Any number of registries, each in a process of its own, make sure of views in one design document
(`Registry.Race`). They take turns request by request, in any order (`Registry.Step`), and no step of
theirs looks at what the others are doing. No view is lost all the same (`Registry.no_lost_view`): a
save of what is not the stored revision any more is refused, and leaves the store and the registry as
they were.
-/

namespace ViewFinder.Registry

open Store

/-! ## Parties and their steps -/

/-- A call of `ensure` that is under way. -/
structure Task where
  view : ViewDefinition
  /-- What is left of the call. -/
  rest : Dialogue Bool
  /-- The views that the registry knew of when the call began. -/
  known : List Value
  /-- The store before and after each request that the call has made. -/
  stores : List (Memory × Memory) := []

/-- A registry: the names of the views that it knows of, and the call that it is carrying out. -/
structure Party where
  known : List Value
  task : Option Task := none

/-- A call that has ended, with the names of the views that its registry knew of then. -/
structure Ended where
  task : Task
  result : Except Fault Bool
  known : List Value

/-- Several registries on one store, the requests that they have made, and the calls that have
ended. -/
structure Race (ι : Type) where
  memory : Memory
  parties : ι → Party
  requests : List (Request × Answer) := []
  ended : List Ended := []

/-- Was a document saved? -/
def isSave : Request × Answer → Bool
  | (.save _, .ok _) => true
  | _ => false

namespace Race

variable {ι : Type} (r : Race ι)

/-- The stored design document. -/
def document (designName : String) : Option Value := r.memory.documents.get? (designId designName)

/-- How many documents have been saved. -/
def saves : Nat := r.requests.countP isSave

variable [DecidableEq ι] (i : ι) (task : Task)

/-- A party goes on with its call, if it has one, and with the views that it knows of. -/
def put (known : List Value) (task : Option Task) : Race ι :=
  { r with parties := Function.update r.parties i ⟨known, task⟩ }

/-- A party begins to make sure of a view. -/
def begun (designName : String) (view : ViewDefinition) : Race ι :=
  let known := (r.parties i).known
  r.put i known (some { view, rest := ensure designName view, known })

/-- A party makes a request for its call. -/
def asked (request : Request) (next : Answer → Dialogue Bool) : Race ι :=
  let (answer, memory) := r.memory.answer request
  let after : Task := { task with rest := next answer, stores := task.stores ++ [(r.memory, memory)] }
  ({ r with memory, requests := r.requests ++ [(request, answer)] } : Race ι).put i
    (r.parties i).known (some after)

/-- The call of a party is over. -/
def finished (result : Except Fault Bool) : Race ι :=
  let known := (r.parties i).known
  ({ r with ended := r.ended ++ [⟨task, result, known⟩] } : Race ι).put i known none

end Race

variable {ι : Type} [DecidableEq ι]

/-- One step of a race: a party begins to make sure of a view, makes its next request, notes which
views there are, or is done; or other documents of the store change. -/
inductive Step (designName : String) (r : Race ι) : Race ι → Prop
  | begin (i : ι) (view : ViewDefinition) (hidle : (r.parties i).task = none)
    (hview : Proper view) : Step designName r (r.begun i designName view)
  | ask (i : ι) (task : Task) (request : Request) (next : Answer → Dialogue Bool)
    (htask : (r.parties i).task = some task) (hrest : task.rest = .ask request next) :
    Step designName r (r.asked i task request next)
  | learn (i : ι) (task : Task) (names : List Value) (next : Dialogue Bool)
    (htask : (r.parties i).task = some task) (hrest : task.rest = .learn names next) :
    Step designName r (r.put i names (some { task with rest := next }))
  | finish (i : ι) (task : Task) (result : Except Fault Bool)
    (htask : (r.parties i).task = some task) (hrest : task.rest = .done result) :
    Step designName r (r.finished i task result)
  | elsewhere (m : Memory)
    (h : m.documents.get? (designId designName) = r.document designName) :
    Step designName r { r with memory := m }

/-- A race that has not begun: no calls, and a design document that is absent or sound. -/
structure Start (designName : String) (r : Race ι) : Prop where
  idle : ∀ i, (r.parties i).task = none
  requests : r.requests = []
  ended : r.ended = []
  settled : Settled designName (r.document designName)

/-! ## What a call has come to -/

/-- A call has changed neither the store nor what its registry knows of. -/
structure Untouched (task : Task) (known : List Value) : Prop where
  stores : ∀ p ∈ task.stores, p.2 = p.1
  known : known = task.known

/-- A view is stored under the name asked for; it is the one asked for if it was written. -/
def Kept (document : Option Value) (view : ViewDefinition) (written : Bool) : Prop :=
  ∃ name stored, view.name = .str name ∧ viewIn document name = some stored ∧
    (written = true → stored = view)

/-- How far a call has come. -/
inductive Phase (designName : String) (document : Option Value) (known : List Value) (task : Task) :
    Prop
  | reading (hrest : task.rest = .ask (.get (.str (designId designName)))
      fun answer => settling designName task.view (found answer)) (h : Untouched task known)
  | saving (design : DesignDocument)
    (hrest : task.rest = .ask (.save (design.addView task.view).toValue)
      (saved (design.addView task.view).views))
    (hsnapshot : Snapshot designName document design)
    (hlacks : design.hasView task.view.name = false) (h : Untouched task known)
  | learning (names : List Value) (written : Bool)
    (hrest : task.rest = .learn names (.done (.ok written)))
    (hkept : Kept document task.view written)
  | succeeded (written : Bool) (hrest : task.rest = .done (.ok written))
    (hkept : Kept document task.view written)
  | failed (e : Fault) (hrest : task.rest = .done (.error e)) (h : Untouched task known)

/-- What has become of a call that has ended. -/
inductive Outcome (document : Option Value) (e : Ended) : Prop
  | succeeded (written : Bool) (hresult : e.result = .ok written)
    (hkept : Kept document e.task.view written)
  | failed (fault : Fault) (hresult : e.result = .error fault) (h : Untouched e.task e.known)

/-! ## One step -/

section
variable {designName : String} {document after : Option Value} {view : ViewDefinition}
  (hadded : Added designName document view after)
include hadded

/-- Adding a view keeps every view that is stored. -/
theorem Added.viewIn_of_some {name : String} {v : ViewDefinition}
    (h : viewIn document name = some v) : viewIn after name = some v := by
  by_cases hname : view.name = .str name
  · rw [hadded.lacking name hname] at h
    cases h
  · rw [hadded.others name hname, h]

theorem Kept.of_added {asked : ViewDefinition} {written : Bool}
    (h : Kept document asked written) : Kept after asked written := by
  obtain ⟨name, stored, hname, hstored, hwritten⟩ := h
  exact ⟨name, stored, hname, hadded.viewIn_of_some hstored, hwritten⟩

/-- A call is as far as it was when another one has added a view. -/
theorem Phase.of_added {known : List Value} {task : Task}
    (h : Phase designName document known task) : Phase designName after known task := by
  cases h with
  | reading hrest h => exact .reading hrest h
  | saving design hrest hsnapshot hlacks h =>
    exact .saving design hrest (hadded.snapshots design hsnapshot) hlacks h
  | learning names written hrest hkept => exact .learning names written hrest (hkept.of_added hadded)
  | succeeded written hrest hkept => exact .succeeded written hrest (hkept.of_added hadded)
  | failed e hrest h => exact .failed e hrest h

theorem Outcome.of_added {e : Ended} (h : Outcome document e) : Outcome after e := by
  cases h with
  | succeeded written hresult hkept => exact .succeeded written hresult (hkept.of_added hadded)
  | failed fault hresult h => exact .failed fault hresult h

end

section
variable {designName : String} {m : Memory} {known : List Value} {task : Task}

/-- What a request of a call does to the design document, and how far the call is then. -/
structure Asked (designName : String) (m : Memory) (known : List Value) (task : Task)
    (request : Request) (next : Answer → Dialogue Bool) : Prop where
  document : Added designName (m.documents.get? (designId designName)) task.view
        ((m.answer request).2.documents.get? (designId designName)) ∧
      isSave (request, (m.answer request).1) = true ∨
    (m.answer request).2 = m ∧ isSave (request, (m.answer request).1) = false
  phase : Phase designName ((m.answer request).2.documents.get? (designId designName)) known
    { task with
      rest := next (m.answer request).1
      stores := task.stores ++ [(m, (m.answer request).2)] }

/-- A request that leaves the store as it is leaves a call untouched. -/
theorem Untouched.append (h : Untouched task known) (rest : Dialogue Bool) :
    Untouched { task with rest, stores := task.stores ++ [(m, m)] } known := by
  refine ⟨fun p hp => ?_, h.known⟩
  rcases List.mem_append.1 hp with hp | hp
  · exact h.stores p hp
  · rw [List.mem_singleton.1 hp]

/-- Reading the design document. -/
theorem asked_reading (hsettled : Settled designName (m.documents.get? (designId designName)))
    (hview : Proper task.view) (h : Untouched task known) :
    Asked designName m known task (.get (.str (designId designName)))
      fun answer => settling designName task.view (found answer) := by
  obtain ⟨name, hname⟩ := hview.name
  have hget := answer_get (m := m) (designId designName)
  have hsame : (m.answer (.get (.str (designId designName)))).2 = m := by rw [hget]
  refine ⟨.inr ⟨hsame, rfl⟩, ?_⟩
  rw [hsame]
  generalize hdocument : m.documents.get? (designId designName) = document at hsettled hget
  rw [hget]
  cases hsettled with
  | absent =>
    exact .saving { docId := .str (designId designName) } (writing_eq hview _) (.absent rfl rfl) rfl
      (h.append _)
  | stored es bodies rev hsound =>
    have hhash : task.view.name.hashable = true := by rw [hname]; rfl
    simp only [hsound.found_eq, settling, hhash, Bool.true_and]
    cases hheld : (designOf designName bodies (.str rev)).hasView task.view.name with
    | true =>
      rw [hname, hasView_designOf] at hheld
      obtain ⟨body, hbody⟩ := Option.isSome_iff_exists.1 hheld
      refine .learning _ false rfl ⟨name, (Views.ofBody (.str name, body)).2, hname, ?_,
        fun h => absurd h Bool.false_ne_true⟩
      rw [viewIn, hsound.bodiesIn_eq, hbody]
      rfl
    | false =>
      exact .saving _ (writing_eq hview _) (.current es bodies rev rfl hsound rfl) hheld (h.append _)

/-- Saving the design document. -/
theorem asked_saving {design : DesignDocument}
    (hsnapshot : Snapshot designName (m.documents.get? (designId designName)) design)
    (hview : Proper task.view) (hlacks : design.hasView task.view.name = false)
    (h : Untouched task known) :
    Asked designName m known task (.save (design.addView task.view).toValue)
      (saved (design.addView task.view).views) := by
  obtain ⟨name, hname⟩ := hview.name
  obtain ⟨response, after, hanswer, hadded⟩ | ⟨e, hanswer⟩ := save_cases hsnapshot hview hlacks
  · refine ⟨.inl ⟨by rwa [hanswer], by rw [hanswer]; rfl⟩, ?_⟩
    rw [hanswer]
    exact .learning _ true rfl ⟨name, _, hname, hadded.held name hname, fun _ => rfl⟩
  · refine ⟨.inr ⟨by rw [hanswer], by rw [hanswer]; rfl⟩, ?_⟩
    rw [hanswer]
    exact .failed e rfl (h.append _)

/-- Whatever a call asks for next is to read the design document, or to save it. -/
theorem Phase.asked {request : Request} {next : Answer → Dialogue Bool}
    (hphase : Phase designName (m.documents.get? (designId designName)) known task)
    (hsettled : Settled designName (m.documents.get? (designId designName)))
    (hview : Proper task.view) (hrest : task.rest = .ask request next) :
    Asked designName m known task request next := by
  cases hphase with
  | reading hreading h =>
    cases hreading.symm.trans hrest
    exact asked_reading hsettled hview h
  | saving design hsaving hsnapshot hlacks h =>
    cases hsaving.symm.trans hrest
    exact asked_saving hsnapshot hview hlacks h
  | learning _ _ hother | succeeded _ hother | failed _ hother => cases hother.symm.trans hrest

/-- What a call learns of are views among which is its own. -/
theorem Phase.learned {document : Option Value} {names : List Value} {next : Dialogue Bool}
    (hphase : Phase designName document known task) (hrest : task.rest = .learn names next) :
    Phase designName document names { task with rest := next } := by
  cases hphase with
  | learning names written hlearning hkept =>
    cases hlearning.symm.trans hrest
    exact .succeeded written rfl hkept
  | reading hother | saving _ hother | succeeded _ hother | failed _ hother =>
    cases hother.symm.trans hrest

/-- What a call comes to. -/
theorem Phase.finished {document : Option Value} {result : Except Fault Bool}
    (hphase : Phase designName document known task) (hrest : task.rest = .done result) :
    Outcome document ⟨task, result, known⟩ := by
  cases hphase with
  | succeeded written hdone hkept =>
    cases hdone.symm.trans hrest
    exact .succeeded written rfl hkept
  | failed e hdone huntouched =>
    cases hdone.symm.trans hrest
    exact .failed e rfl huntouched
  | reading hother | saving _ hother | learning _ _ hother => cases hother.symm.trans hrest

end

/-! ## Runs -/

/-- What holds of a race at all times. -/
structure Inv (designName : String) (start : Option Value) (r : Race ι) : Prop where
  settled : Settled designName (r.document designName)
  phases : ∀ i task, (r.parties i).task = some task → Proper task.view ∧
    Phase designName (r.document designName) (r.parties i).known task
  outcomes : ∀ e ∈ r.ended, Outcome (r.document designName) e
  names : ∃ added, namesIn (r.document designName) = namesIn start ++ added ∧
    added.length = r.saves

omit [DecidableEq ι] in
theorem Start.inv {designName : String} {r : Race ι} (h : Start designName r) :
    Inv designName (r.document designName) r where
  settled := h.settled
  phases := fun i task htask => by rw [h.idle i] at htask; cases htask
  outcomes := fun e he => by rw [h.ended] at he; cases he
  names := ⟨[], by simp, by rw [Race.saves, h.requests]; rfl⟩

section
variable {designName : String} {start : Option Value} {r : Race ι} (h : Inv designName start r)
include h

/-- A party may go on, as far as it has come. -/
theorem Inv.put {i : ι} {known : List Value} {task : Option Task}
    (hphase : ∀ t, task = some t → Proper t.view ∧
      Phase designName (r.document designName) known t) :
    Inv designName start (r.put i known task) := by
  refine ⟨h.settled, fun j t ht => ?_, h.outcomes, h.names⟩
  by_cases hji : j = i
  · subst hji
    simp only [Race.put, Function.update_self] at ht ⊢
    exact hphase t ht
  · simp only [Race.put, Function.update_of_ne hji] at ht ⊢
    exact h.phases j t ht

omit [DecidableEq ι] in
/-- A save may add a view. -/
theorem Inv.of_added {m : Memory} {request : Request} {answer : Answer} {view : ViewDefinition}
    (hadded : Added designName (r.document designName) view
      (m.documents.get? (designId designName))) (hsave : isSave (request, answer) = true) :
    Inv designName start
      { r with memory := m, requests := r.requests ++ [(request, answer)] } := by
  obtain ⟨added, hnames, hlength⟩ := h.names
  refine ⟨hadded.settled, fun i task htask => ?_, fun e he => ?_, added ++ [view.name], ?_, ?_⟩
  · exact (h.phases i task htask).imp_right (·.of_added hadded)
  · exact (h.outcomes e he).of_added hadded
  · rw [← List.append_assoc, ← hnames]
    exact hadded.names
  · simp [Race.saves, hsave, hlength]

omit [DecidableEq ι] in
/-- Any other request leaves the design document as it is. -/
theorem Inv.of_same {m : Memory} (hsame : m.documents.get? (designId designName) =
      r.document designName) {requests : List (Request × Answer)}
    (hnone : requests.countP isSave = 0) :
    Inv designName start { r with memory := m, requests := r.requests ++ requests } := by
  obtain ⟨added, hnames, hlength⟩ := h.names
  have hdocument : Race.document { r with memory := m, requests := r.requests ++ requests }
      designName = r.document designName := hsame
  refine ⟨?_, ?_, ?_, added, ?_, ?_⟩
  · rw [hdocument]
    exact h.settled
  · rw [hdocument]
    exact h.phases
  · rw [hdocument]
    exact h.outcomes
  · rw [hdocument, hnames]
  · simp [Race.saves, hnone, hlength]

/-- A step keeps what holds at all times, and every view that is stored. -/
theorem Inv.step {t : Race ι} (hstep : Step designName r t) : Inv designName start t ∧
    ∀ name view, viewIn (r.document designName) name = some view →
      viewIn (t.document designName) name = some view := by
  cases hstep with
  | begin i view hidle hview =>
    refine ⟨h.put fun task htask => ?_, fun _ _ hstored => hstored⟩
    cases htask
    exact ⟨hview, .reading (ensure_eq designName view) ⟨nofun, rfl⟩⟩
  | ask i task request next htask hrest =>
    obtain ⟨hview, hphase⟩ := h.phases i task htask
    have hasked := hphase.asked h.settled hview hrest
    rcases hasked.document with ⟨hadded, hsave⟩ | ⟨hsame, hsave⟩
    · refine ⟨(h.of_added hadded hsave).put fun t ht => ?_,
        fun _ _ hstored => hadded.viewIn_of_some hstored⟩
      cases ht
      exact ⟨hview, hasked.phase⟩
    · have hdocument : (r.memory.answer request).2.documents.get? (designId designName) =
          r.document designName := by rw [hsame]; rfl
      have hnone : [(request, (r.memory.answer request).1)].countP isSave = 0 := by
        rw [List.countP_singleton, hsave]
        rfl
      refine ⟨(h.of_same hdocument hnone).put fun t ht => ?_, fun name view hstored => ?_⟩
      · cases ht
        exact ⟨hview, hasked.phase⟩
      · show viewIn ((r.memory.answer request).2.documents.get? (designId designName)) name = _
        rw [hdocument, hstored]
  | learn i task names next htask hrest =>
    obtain ⟨hview, hphase⟩ := h.phases i task htask
    refine ⟨h.put fun t ht => ?_, fun _ _ hstored => hstored⟩
    cases ht
    exact ⟨hview, hphase.learned hrest⟩
  | finish i task result htask hrest =>
    have hended := (h.phases i task htask).2.finished hrest
    have hinv : Inv designName start
        { r with ended := r.ended ++ [⟨task, result, (r.parties i).known⟩] } := by
      refine ⟨h.settled, h.phases, fun e he => ?_, h.names⟩
      rcases List.mem_append.1 he with he | he
      · exact h.outcomes e he
      · rw [List.mem_singleton.1 he]
        exact hended
    exact ⟨hinv.put nofun, fun _ _ hstored => hstored⟩
  | elsewhere m hm =>
    have hinv := h.of_same hm (show List.countP isSave [] = 0 from rfl)
    rw [List.append_nil] at hinv
    refine ⟨hinv, fun name view hstored => ?_⟩
    show viewIn (m.documents.get? (designId designName)) name = _
    rw [hm, hstored]

/-- So does a run. -/
theorem Inv.run {t : Race ι} (hrun : Relation.ReflTransGen (Step designName) r t) :
    Inv designName start t ∧ ∀ name view, viewIn (r.document designName) name = some view →
      viewIn (t.document designName) name = some view := by
  induction hrun with
  | refl => exact ⟨h, fun _ _ hstored => hstored⟩
  | tail _ hstep ih =>
    obtain ⟨hinv, hkept⟩ := ih.1.step hstep
    exact ⟨hinv, fun name view hstored => hkept name view (ih.2 name view hstored)⟩

end

/-- No view is lost, however the steps of the registries are interleaved. A view that is stored once
stays, with its map and its reduce function. Where a call has come to true or false there is a view of
the name that it asked for, its own if it was written. A call that has failed, be it for a conflict,
has changed neither the store nor what its registry knows of. As many views have been added as design
documents were saved. -/
theorem no_lost_view {designName : String} {start s t : Race ι} (hstart : Start designName start)
    (hs : Relation.ReflTransGen (Step designName) start s)
    (ht : Relation.ReflTransGen (Step designName) s t) :
    (∀ name view, viewIn (s.document designName) name = some view →
      viewIn (t.document designName) name = some view) ∧
    (∀ e ∈ s.ended, ∀ written, e.result = .ok written → ∃ name stored,
      e.task.view.name = .str name ∧ viewIn (t.document designName) name = some stored ∧
        (written = true → stored = e.task.view)) ∧
    (∀ e ∈ s.ended, ∀ fault, e.result = .error fault →
      (∀ p ∈ e.task.stores, p.2 = p.1) ∧ e.known = e.task.known) ∧
    ∃ added, namesIn (t.document designName) = namesIn (start.document designName) ++ added ∧
      (namesIn (t.document designName)).Nodup ∧ added.length = t.saves := by
  obtain ⟨hinv, -⟩ := hstart.inv.run hs
  obtain ⟨hinv', hkept⟩ := hinv.run ht
  refine ⟨hkept, fun e he written hresult => ?_, fun e he fault hresult => ?_, ?_⟩
  · cases hinv.outcomes e he with
    | succeeded written' hresult' hstored =>
      cases hresult'.symm.trans hresult
      obtain ⟨name, stored, hname, hview, hwritten⟩ := hstored
      exact ⟨name, stored, hname, hkept name stored hview, hwritten⟩
    | failed fault hresult' => cases hresult'.symm.trans hresult
  · cases hinv.outcomes e he with
    | succeeded written hresult' => cases hresult'.symm.trans hresult
    | failed fault' _ huntouched => exact ⟨huntouched.stores, huntouched.known⟩
  · obtain ⟨added, hnames, hlength⟩ := hinv'.names
    exact ⟨added, hnames, hinv'.settled.nodup, hlength⟩

/-! ## Two registries -/

/-- A request whose answer is known. -/
theorem Step.ask_of_answer {designName : String} {r : Race ι} {i : ι} {task : Task}
    {request : Request} {next : Answer → Dialogue Bool} (htask : (r.parties i).task = some task)
    (hrest : task.rest = .ask request next) {answer : Answer} {memory : Memory}
    (hanswer : r.memory.answer request = (answer, memory)) :
    Step designName r (({ r with memory, requests := r.requests ++ [(request, answer)] } :
      Race ι).put i (r.parties i).known (some { task with
        rest := next answer, stores := task.stores ++ [(r.memory, memory)] })) := by
  have hstep : Step designName r _ := Step.ask i task request next htask hrest
  rwa [Race.asked, hanswer] at hstep

/-- A race of two registries that has not begun, on an empty store. -/
def twoRegistries : Race Bool := { memory := {}, parties := fun _ => { known := [] } }

/-- A view by age. -/
def byAgeView : ViewDefinition := { name := .str "by_age", map := .str "emit(doc.age)" }

/-- Both registries find no design document. The first one saves its view, and the save of the other
is refused: one view is stored, and it is that of the first. -/
theorem no_lost_view_two : ∃ t : Race Bool,
    Relation.ReflTransGen (Step "person") twoRegistries t ∧
    t.ended.map Ended.result = [.ok true, .error (.conflict (.document "_design/person"))] ∧
    viewIn (t.document "person") "by_name" = some byName ∧
    (namesIn (t.document "person")).length = t.saves ∧ t.saves = 1 := by
  have hget : ({} : Memory).answer (.get (.str (designId "person"))) =
      (.error (.notFound (.document (designId "person"))), {}) := answer_get _
  have habsent : ({} : Memory).documents.get? (designId "person") = none := rfl
  have hsave := save_absent habsent (Views.insert [] (.str "by_name") byName)
  have hid : (DesignDocument.addView { docId := .str (designId "person") } byAgeView).docId =
      .str (designId "person") := rfl
  have hstored := get?_afterSave {} "person"
    (Views.toBodies (Views.insert [] (.str "by_name") byName)) "1-mem"
  have hrefusal := save_of_precedes hstored (get?_rev_entriesOf ..) hid (.inl rfl)
  have hbegun : Relation.ReflTransGen (Step "person") twoRegistries _ :=
    .tail .refl (Step.begin false byName rfl ⟨⟨_, rfl⟩, rfl, .inl rfl⟩)
  have hboth := hbegun.tail (Step.begin true byAgeView rfl ⟨⟨_, rfl⟩, rfl, .inl rfl⟩)
  have hread := (hboth.tail (Step.ask_of_answer (i := false) rfl rfl hget)).tail
    (Step.ask_of_answer (i := true) rfl rfl hget)
  have hsaved := (hread.tail (Step.ask_of_answer (i := false) rfl rfl hsave)).tail
    (Step.learn false _ _ _ rfl rfl)
  have hrefused := hsaved.tail (Step.ask_of_answer (i := true) rfl rfl hrefusal)
  have hdone := (hrefused.tail (Step.finish false _ _ rfl rfl)).tail
    (Step.finish true _ _ rfl rfl)
  obtain ⟨-, hkept, -, added, hnames, -, hlength⟩ :=
    no_lost_view ⟨fun _ => rfl, rfl, rfl, .absent⟩ hdone .refl
  obtain ⟨name, stored, hname, hview, hwritten⟩ := hkept _ (List.mem_cons_self ..) true rfl
  refine ⟨_, hdone, rfl, ?_, ?_, rfl⟩
  · cases hname
    rw [hview, hwritten rfl]
  · rw [hnames, ← hlength]
    rfl

end ViewFinder.Registry
