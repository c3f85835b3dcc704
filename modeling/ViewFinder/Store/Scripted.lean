import ViewFinder.Store.Memory

/-!
# A store that follows a script

For trying out what happens when a store misbehaves: a script gives, for each kind of request, cues
for the requests of that kind to come. A request uses up the next cue of its kind; without a cue, or
with an empty one, the store in memory answers.
-/

namespace ViewFinder.Store

/-- The kinds of request. -/
inductive Request.Kind where
  | serverVersion
  | get
  | save
  | view
  | adHoc
  deriving DecidableEq, Inhabited

/-- The kind of a request. -/
def Request.kind : Request → Request.Kind
  | .serverVersion => .serverVersion
  | .get _ => .get
  | .save _ => .save
  | .view .. => .view
  | .adHoc .. => .adHoc

/-- The cues to come, each with the kind of request that it is for; an empty one has no answer. -/
abbrev Script := List (Request.Kind × Option Answer)

namespace Script

/-- The next cue for a kind of request, and the script without it. -/
def next (kind : Request.Kind) : Script → Option Answer × Script
  | [] => (none, [])
  | (k, cue) :: rest =>
    if k = kind then (cue, rest)
    else
      let (found, rest) := next kind rest
      (found, (k, cue) :: rest)

end Script

/-- A store in memory with a script. -/
structure Scripted where
  script : Script := []
  memory : Memory := {}
  deriving Inhabited

namespace Scripted

variable (s : Scripted)

/-- The answer to a request, and the store afterwards. -/
def answer (r : Request) : Answer × Scripted :=
  match s.script.next r.kind with
  | (some cue, script) => (cue, { s with script })
  | (none, script) =>
    let (a, memory) := s.memory.answer r
    (a, { script, memory })

/-- Stores a document; what a cue answers stores nothing. -/
def save (document : Value) : Except Fault Saved × Scripted :=
  match s.script.next .save with
  | (some cue, script) => (cue.map (⟨·, document⟩), { s with script })
  | (none, script) =>
    match s.memory.save document with
    | .ok (saved, memory) => (.ok saved, { script, memory })
    | .error e => (.error e, { s with script })

end Scripted

end ViewFinder.Store
