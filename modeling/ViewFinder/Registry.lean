import ViewFinder.Store.Dialogue
import ViewFinder.Store.Index
import ViewFinder.Design

/-!
# Registering views

Views come into being when they are first needed: a query is sent as if its view were there, and only
when the store does not find it is the view added to the design document of the type
(`Registry.ensure`). The design document is read anew each time, for it may be gone since.
-/

namespace ViewFinder.Registry

open Store

/-- The id of a design document. -/
def designId (designName : String) : String := Index.designPrefix ++ designName

/-- The stored design document, if there is one. -/
def load (designName : String) : Dialogue (Option DesignDocument) := do
  match ← Dialogue.attempt (.get (.str (designId designName))) with
  | .ok document => return some (← DesignDocument.ofValue document)
  | .error (.notFound _) => return none
  | .error e => throw e

/-- Adds a view to a design document and stores that. -/
def add (design : DesignDocument) (view : ViewDefinition) : Dialogue Unit := do
  unless view.name.hashable do throw .wrongKind
  let design := design.addView view
  let _ ← Dialogue.request (.save design.toValue)
  Dialogue.note (design.views.map (·.1))

/-- Makes sure that the design document has a view of a name; was it written for that? -/
def ensure (designName : String) (view : ViewDefinition) : Dialogue Bool := do
  match ← load designName with
  | none =>
    add { docId := .str (designId designName) } view
    return true
  | some design =>
    if !view.name.hashable then throw .wrongKind
    else if design.hasView view.name then
      Dialogue.note (design.views.map (·.1))
      return false
    else
      add design view
      return true

/-- Makes sure that the design document has views of several names; how many were written for that? -/
def ensureAll (designName : String) : List ViewDefinition → Dialogue Nat
  | [] => return 0
  | view :: rest => do
    let written ← ensure designName view
    let others ← ensureAll designName rest
    return if written then others + 1 else others

end ViewFinder.Registry
