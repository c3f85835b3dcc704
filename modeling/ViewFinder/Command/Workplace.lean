import ViewFinder.Command.Program
import ViewFinder.Files.Disk
import ViewFinder.Store.Link
import ViewFinder.Database

/-!
# Workplaces

A `Workplace` holds all that a program can ask for: files, variables, a store, and what has been
shown. It meets each demand without leaving memory.
-/

namespace ViewFinder.Command

/-- The surroundings of a program. -/
structure Workplace where
  disk : Disk := {}
  environment : List (String × String) := []
  /-- The link to the store. -/
  link : Store.Link
  /-- The replies that a server gives to each connection anew; none if the store is not reached
  through a server. -/
  replies : Option (List Store.Reply) := none
  /-- What has been shown, the latest first. -/
  shown : List Output := []

namespace Workplace

variable (w : Workplace)

/-- The workplace without what has been shown, and that in order. -/
def takeShown : List Output × Workplace := (w.shown.reverse, { w with shown := [] })

/-- Connects to the server, if the store is reached through one. -/
def connect (c : ConnectionConfig) : Except Fault Unit × Workplace :=
  match w.replies with
  | none => (.ok (), w)
  | some replies =>
    match c.target with
    | .error e => (.error e, w)
    | .ok (client, database) =>
      let link : Store.Link := { w.link with backend := .web { database, replies } }
      (.ok (), { w with link := link.record (.connected client) })

/-- The workplace with its disk as it is after a change, if that succeeded. -/
def changeDisk (change : Except Fault Disk) : Except Fault Unit × Workplace :=
  match change with
  | .ok disk => (.ok (), { w with disk })
  | .error e => (.error e, w)

/-- Meets a demand. -/
def meet {β : Type} (w : Workplace) : Demand β → β × Workplace
  | .environment name => (w.environment.lookup name, w)
  | .exists path => (w.disk.exists path, w)
  | .read path => (w.disk.read path, w)
  | .write path text => w.changeDisk (w.disk.write path text)
  | .makeDirectory path => w.changeDisk (w.disk.makeDirectory path)
  | .connect connection => w.connect connection
  | .request r =>
    let (answer, link) := w.link.answer r
    (answer, { w with link })
  | .disconnect => ((), { w with link := w.link.close })
  | .show output => ((), { w with shown := output :: w.shown })

/-- Carries out a program. -/
def run {α : Type} (p : Program α) : Except Fault α × Workplace := p.run (fun w d => w.meet d) w

end Workplace

end ViewFinder.Command
