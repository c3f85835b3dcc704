import ViewFinder.Fault

/-!
# Dialogues with a store

A store takes five requests (`Request`). An operation of the library is a `Dialogue`: it makes
requests, goes on with the answers, may record which views it has seen in the design document, and
ends with a result or a fault. A dialogue says nothing about the store: `Dialogue.run` carries it
out against any state that answers requests, and a dialogue in two parts is carried out one part after
the other (`Dialogue.run_bind`).
-/

namespace ViewFinder

namespace Store

/-- A request to the store. -/
inductive Request where
  /-- The version of the store. -/
  | serverVersion
  /-- The document of an id. -/
  | get (id : Value)
  /-- Creates or updates a document. -/
  | save (document : Value)
  /-- The rows of a stored view. -/
  | view (path : String) (params : Entries)
  /-- The rows of a map function, with a reduce function unless that is null, over all documents. -/
  | adHoc (path : String) (map reduce : Value) (params : Entries)
  deriving Inhabited

/-- What a store answers to a request. -/
abbrev Answer := Except Fault Value

end Store

open Store

/-- An operation that talks to a store. -/
inductive Dialogue (α : Type) where
  /-- The end. -/
  | done (result : Except Fault α)
  /-- Makes a request and goes on with the answer. -/
  | ask (request : Request) (next : Answer → Dialogue α)
  /-- Records the names of the views in the design document. -/
  | learn (views : List Value) (next : Dialogue α)

namespace Dialogue

variable {α β γ σ : Type}

/-- Goes on with the result, unless that is a fault. -/
def bind (f : α → Dialogue β) : Dialogue α → Dialogue β
  | .done (.ok a) => f a
  | .done (.error e) => .done (.error e)
  | .ask r next => .ask r fun answer => bind f (next answer)
  | .learn views next => .learn views (bind f next)

/-- Goes on with the fault, if the result is one. -/
def recover (f : Fault → Dialogue α) : Dialogue α → Dialogue α
  | .done (.ok a) => .done (.ok a)
  | .done (.error e) => f e
  | .ask r next => .ask r fun answer => recover f (next answer)
  | .learn views next => .learn views (recover f next)

instance : Monad Dialogue where
  pure a := .done (.ok a)
  bind d f := bind f d

instance : MonadExceptOf Fault Dialogue where
  throw e := .done (.error e)
  tryCatch d f := recover f d

instance : MonadLift (Except Fault) Dialogue where
  monadLift := .done

/-- The answer to a request. -/
def request (r : Request) : Dialogue Value := .ask r .done

/-- The answer to a request; a fault is an answer too. -/
def attempt (r : Request) : Dialogue Answer := .ask r fun answer => .done (.ok answer)

/-- Records the names of the views in the design document. -/
def note (views : List Value) : Dialogue Unit := .learn views (pure ())

/-- Carries out a dialogue against a state that answers requests. The names of the views seen last
are handed on. -/
def run (answer : σ → Request → Answer × σ) (views : List Value) (s : σ) :
    Dialogue α → Except Fault α × List Value × σ
  | .done result => (result, views, s)
  | .ask r next =>
    let (a, s) := answer s r
    run answer views s (next a)
  | .learn seen next => run answer seen s next

/-- Going on with the result itself changes nothing. -/
theorem bind_done : ∀ d : Dialogue α, bind (fun a => .done (.ok a)) d = d
  | .done (.ok _) | .done (.error _) => rfl
  | .ask r next => congrArg (ask r) (funext fun answer => bind_done (next answer))
  | .learn views next => congrArg (learn views) (bind_done next)

/-- It does not matter how three parts are grouped. -/
theorem bind_bind (f : α → Dialogue β) (g : β → Dialogue γ) :
    ∀ d : Dialogue α, bind g (bind f d) = bind (fun a => bind g (f a)) d
  | .done (.ok _) | .done (.error _) => rfl
  | .ask r next => congrArg (ask r) (funext fun answer => bind_bind f g (next answer))
  | .learn views next => congrArg (learn views) (bind_bind f g next)

instance : LawfulMonad Dialogue :=
  LawfulMonad.mk' Dialogue bind_done (fun _ _ => rfl) fun d f g => bind_bind f g d

/-- A dialogue that goes on is carried out one part after the other. -/
theorem run_bind (answer : σ → Request → Answer × σ) (f : α → Dialogue β) (d : Dialogue α) :
    ∀ views s, (d >>= f).run answer views s =
      match d.run answer views s with
      | (.ok a, views, s) => (f a).run answer views s
      | (.error e, views, s) => (.error e, views, s) := by
  induction d with
  | done result => intro _ _; cases result <;> rfl
  | ask r next ih => intro views s; exact ih _ views _
  | learn seen next ih => intro _ s; exact ih seen s

end Dialogue

end ViewFinder
