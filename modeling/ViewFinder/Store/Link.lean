import ViewFinder.Store.Scripted
import ViewFinder.Store.Web

/-!
# Links to a store

A `Link` is an open connection to a store, in memory or on the web, together with a record of all
that was sent over it.
-/

namespace ViewFinder.Store

/-- What happens on a link. -/
inductive Event where
  /-- A connection to a server was made. -/
  | connected (client : Client)
  /-- A request was made of a store in memory. -/
  | requested (r : Request)
  /-- A message was sent to a server. -/
  | sent (m : Message)
  | closed

/-- A store that answers requests. -/
inductive Backend where
  | memory (s : Scripted)
  | web (w : Web)

/-- A connection to a store. -/
structure Link where
  backend : Backend
  /-- What has happened, the latest first. -/
  events : List Event := []

namespace Link

variable (l : Link)

/-- Records what happened. -/
def record (e : Event) : Link := { l with events := e :: l.events }

/-- The link without its record, and the record in order. -/
def takeEvents : List Event × Link := (l.events.reverse, { l with events := [] })

/-- The answer to a request. -/
def answer (r : Request) : Answer × Link :=
  match l.backend with
  | .memory s =>
    let (a, s) := s.answer r
    (a, { backend := .memory s, events := .requested r :: l.events })
  | .web w =>
    let (a, message, w) := w.answer r
    (a, { backend := .web w, events := (message.map .sent).toList ++ l.events })

/-- Stores a document. -/
def save (document : Value) : Except Fault Saved × Link :=
  match l.backend with
  | .memory s =>
    let (saved, s) := s.save document
    (saved, { backend := .memory s, events := .requested (.save document) :: l.events })
  | .web _ =>
    let (a, l) := l.answer (.save document)
    (a.bind (Web.saved document), l)

/-- Closes the connection. -/
def close : Link := l.record .closed

/-- Carries out a dialogue over the link. -/
def run {α : Type} (views : List Value) (d : Dialogue α) : Except Fault α × List Value × Link :=
  d.run answer views l

end Link

end ViewFinder.Store
