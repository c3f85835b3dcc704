import ViewFinder.Proofs.Store.Exchanges
import ViewFinder.Registry

/-!
# The requests of a registration

Making sure of a view takes the design document from the store and, unless the view is there, gives
it back with the view: `Registry.ensure_eq` lays the two requests open. Whatever goes wrong, but that
there is no design document yet, is what it comes to (`Registry.passesOn_ensure`).
-/

namespace ViewFinder.Registry

open Store

/-- The design document in the answer to a request for it; that there is none is no fault. -/
def found : Answer → Except Fault (Option DesignDocument)
  | .ok document => (DesignDocument.ofValue document).map some
  | .error (.notFound _) => .ok none
  | .error e => .error e

/-- How making sure of a view ends when its design document was saved. -/
def saved (views : Views) : Answer → Dialogue Bool
  | .ok _ => .learn (views.map (·.1)) (.done (.ok true))
  | .error e => .done (.error e)

/-- Saving a design document with a view added, and what that comes to. -/
def writing (design : DesignDocument) (view : ViewDefinition) : Dialogue Bool :=
  if view.name.hashable then
    .ask (.save (design.addView view).toValue) (saved (design.addView view).views)
  else .done (.error .wrongKind)

/-- How making sure of a view goes on from the design document that was found. -/
def settling (designName : String) (view : ViewDefinition) :
    Except Fault (Option DesignDocument) → Dialogue Bool
  | .error e => .done (.error e)
  | .ok none => writing { docId := .str (designId designName) } view
  | .ok (some design) =>
    if view.name.hashable && design.hasView view.name then
      .learn (design.views.map (·.1)) (.done (.ok false))
    else writing design view

variable (designName : String) (view : ViewDefinition)

theorem load_eq : load designName =
    .ask (.get (.str (designId designName))) fun answer => .done (found answer) := by
  refine congrArg (Dialogue.ask _) (funext fun answer => ?_)
  rcases answer with e | document
  · cases e <;> rfl
  · rw [found]
    show Dialogue.bind (fun design => .done (.ok (some design)))
      (.done (DesignDocument.ofValue document)) = _
    cases DesignDocument.ofValue document <;> rfl

theorem add_bind_eq (design : DesignDocument) :
    (do add design view; return true) = writing design view := by
  rw [add, writing]
  cases view.name.hashable with
  | true =>
    refine congrArg (Dialogue.ask _) (funext fun answer => ?_)
    cases answer <;> rfl
  | false => rfl

/-- Making sure of a view begins with asking for the design document. -/
theorem ensure_eq : ensure designName view = .ask (.get (.str (designId designName)))
    fun answer => settling designName view (found answer) := by
  have hsettling : ensure designName view =
      load designName >>= fun design => settling designName view (.ok design) := by
    refine congrArg (load designName >>= ·) (funext fun design => ?_)
    cases design with
    | none => exact add_bind_eq view _
    | some design =>
      show (if (!view.name.hashable) = true then throw Fault.wrongKind
        else if design.hasView view.name = true then
          Dialogue.note (design.views.map (·.1)) >>= fun _ => pure false
        else do add design view; return true) = _
      rw [add_bind_eq, settling, writing]
      cases view.name.hashable <;> cases design.hasView view.name <;> rfl
  rw [hsettling, load_eq]
  refine congrArg (Dialogue.ask _) (funext fun answer => ?_)
  show Dialogue.bind _ (.done (found answer)) = _
  cases found answer <;> rfl

/-- From the design document on, making sure of a view ends without a request, or saves a design
document once. -/
theorem settling_cases (design : Except Fault (Option DesignDocument)) :
    (∃ result, settling designName view design = .done result) ∨
    (∃ names, settling designName view design = .learn names (.done (.ok false))) ∨
    ∃ document views, settling designName view design = .ask (.save document) (saved views) := by
  have hwriting (design : DesignDocument) : (∃ result, writing design view = .done result) ∨
      ∃ document views, writing design view = .ask (.save document) (saved views) := by
    rw [writing]
    split
    · exact .inr ⟨_, _, rfl⟩
    · exact .inl ⟨_, rfl⟩
  rcases design with e | (_ | design)
  · exact .inl ⟨_, rfl⟩
  · exact (hwriting _).imp_right .inr
  · rw [settling]
    split
    · exact .inr (.inl ⟨_, rfl⟩)
    · exact (hwriting design).imp_right .inr

/-- Whatever else goes wrong than that there is no design document, it is what making sure of a view
comes to. -/
theorem passesOn_ensure : (ensure designName view).PassesOn fun r e =>
    r = .get (.str (designId designName)) ∧ e.isNotFound = true := by
  rw [ensure_eq]
  refine ⟨fun e he => ?_, fun answer => ?_⟩
  · cases e <;> first | rfl | exact absurd ⟨rfl, rfl⟩ he
  · obtain ⟨result, heq⟩ | ⟨names, heq⟩ | ⟨document, views, heq⟩ :=
      settling_cases designName view (found answer)
    · simp only [heq, Dialogue.PassesOn]
    · simp only [heq, Dialogue.PassesOn]
    · simp only [heq]
      exact ⟨fun _ _ => rfl, fun answer => by cases answer <;> trivial⟩

/-- The requests are one for the design document, and one to save it at most. -/
theorem exchanges_ensure {σ : Type} (answer : σ → Request → Answer × σ) (s : σ) :
    ∃ got, (ensure designName view).exchanges answer s =
          [(.get (.str (designId designName)), got)] ∨
      ∃ document stored, (ensure designName view).exchanges answer s =
          [(.get (.str (designId designName)), got), (.save document, stored)] := by
  rw [ensure_eq, Dialogue.exchanges]
  refine ⟨(answer s (.get (.str (designId designName)))).1, ?_⟩
  obtain ⟨result, heq⟩ | ⟨names, heq⟩ | ⟨document, views, heq⟩ := settling_cases designName view
    (found (answer s (.get (.str (designId designName)))).1)
  · exact .inl (by rw [heq]; rfl)
  · exact .inl (by rw [heq]; rfl)
  · refine .inr ⟨document,
      (answer (answer s (.get (.str (designId designName)))).2 (.save document)).1, ?_⟩
    rw [heq, Dialogue.exchanges]
    cases (answer (answer s (.get (.str (designId designName)))).2 (.save document)).1 <;> rfl

end ViewFinder.Registry
