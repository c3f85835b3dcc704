import ViewFinder.Config
import ViewFinder.Files.Path
import ViewFinder.Store.Dialogue

/-!
# Programs

A command reads variables and files, talks to a store and shows what it finds. A `Program` is what it
does, as a tree: it makes a `Demand` of its surroundings and goes on with the answer, until it ends
with a result or a fault. It says nothing about the surroundings: `Program.run` carries it out
against any state that meets demands.
-/

namespace ViewFinder.Command

/-- What is shown to the user. -/
inductive Output where
  /-- A value on a line of its own; texts may hold markup. -/
  | line (v : Value)
  /-- A value as JSON. -/
  | json (v : Value)
  | table (title : Value) (columns : List String) (rows : List (List String))
  deriving Inhabited

/-- What a program may ask of its surroundings, by the type of the answer. -/
inductive Demand : Type → Type where
  /-- The variable of a name in the environment, if it is set. -/
  | environment (name : String) : Demand (Option String)
  /-- Is there anything where a path leads? -/
  | «exists» (path : Path) : Demand Bool
  /-- The text of a file. -/
  | read (path : Path) : Demand (Except Fault String)
  /-- Writes a text to a file. -/
  | write (path : Path) (text : String) : Demand (Except Fault Unit)
  /-- Makes a directory and those on the way to it. -/
  | makeDirectory (path : Path) : Demand (Except Fault Unit)
  /-- Connects to a store. -/
  | connect (connection : ConnectionConfig) : Demand (Except Fault Unit)
  /-- Makes a request of the store. -/
  | request (r : Store.Request) : Demand Store.Answer
  /-- Ends the connection to the store. -/
  | disconnect : Demand Unit
  /-- Shows something to the user. -/
  | «show» (output : Output) : Demand Unit

/-- What a command does. -/
inductive Program (α : Type) : Type 1 where
  /-- The end. -/
  | done (result : Except Fault α)
  /-- Makes a demand and goes on with the answer. -/
  | ask {β : Type} (demand : Demand β) (next : β → Program α)

namespace Program

variable {α β σ : Type}

/-- Goes on with the result, unless that is a fault. -/
def bind (f : α → Program β) : Program α → Program β
  | .done (.ok a) => f a
  | .done (.error e) => .done (.error e)
  | .ask d next => .ask d fun answer => bind f (next answer)

/-- Goes on with the result, or with the fault. -/
def attempt : Program α → Program (Except Fault α)
  | .done result => .done (.ok result)
  | .ask d next => .ask d fun answer => attempt (next answer)

instance : Monad Program where
  pure a := .done (.ok a)
  bind p f := bind f p

instance : MonadExceptOf Fault Program where
  throw e := .done (.error e)
  tryCatch p f := bind (fun | .ok a => .done (.ok a) | .error e => f e) (attempt p)

instance : MonadLift (Except Fault) Program where
  monadLift := .done

/-- The answer to a demand. -/
def demand (d : Demand β) : Program β := .ask d fun answer => .done (.ok answer)

/-- The answer to a demand that may fail; a fault ends the program. -/
def demandOk (d : Demand (Except Fault β)) : Program β := .ask d .done

/-- Shows something to the user. -/
def «show» (output : Output) : Program Unit := demand (.show output)

/-- Shows a text with markup on a line of its own. -/
def say (text : String) : Program Unit := «show» (.line (.str text))

/-- Carries out a dialogue with the store that is connected. -/
def talk : Dialogue α → Program α
  | .done result => .done result
  | .ask r next => .ask (.request r) fun answer => talk (next answer)
  | .learn _ next => talk next

/-- Carries out a program against a state that meets demands. -/
def run (meet : {β : Type} → σ → Demand β → β × σ) (s : σ) : Program α → Except Fault α × σ
  | .done result => (result, s)
  | .ask d next =>
    let (answer, s) := meet s d
    run meet s (next answer)

end Program

end ViewFinder.Command
