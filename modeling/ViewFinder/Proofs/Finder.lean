import ViewFinder.Database
import ViewFinder.Proofs.Query.Failure
import ViewFinder.Proofs.Record

/-!
# Finders over a store in memory

What an operation of a finder comes to when a database carries it out against a store in memory
(`Store.Memory.outcome`), and what finding, counting and asking whether there is a document come to
once the response of the store is known.
-/

namespace ViewFinder

open Store

/-- The options that say nothing but conditions. -/
theorem Options.ofValue_conditions (conditions : Entries) :
    Options.ofValue (.dict [(.str "conditions", .dict conditions)]) =
      .ok { conditions := .dict conditions } := by
  have hkey : currentKey (.str "conditions") = .str "conditions" := by
    simp [currentKey, currentName]
  have hother {n : String} (hn : "conditions" ≠ n) :
      (Value.str "conditions").equal (.str n) = false := by
    simpa [Value.equal, Value.agree] using hn
  have hparameter : isViewParameter (.str "conditions") = false := by
    simp [isViewParameter, viewParameters]
  have htake : takeEntry ({}, []) (.str "conditions") (.dict conditions) =
      .ok ({ conditions := .dict conditions }, []) := by
    simp [takeEntry, hkey, hother, hparameter, set?, Value.text]
  simp [ofValue, Value.truthy, Value.entries, takeEntries, htake, checkExtra, unknownParameters,
    Value.toEntries, bind, Except.bind, pure, Except.pure]

/-- They have no window. -/
theorem Window.cut_conditions {α : Type} (conditions : Entries) (l : List α) :
    cut ({ conditions := .dict conditions } : Options).skip
      ({ conditions := .dict conditions } : Options).limit? l = l :=
  cut_zero_none l

namespace Finder

variable {m after : Memory} {f : Finder} {q : CompiledQuery} {response : Value}

section
variable {o : Options}

/-- Finding comes to what the response to the compiled query becomes. -/
theorem findWith_ends (hq : Query.find f.entityType f.profile o = .ok q)
    (h : (q.execute f.setting).Ends m (.ok response) after) :
    (f.findWith o).Ends m (f.entityType.materialize response o.raw o.readonly o.order) after := by
  rw [findWith]
  exact Dialogue.ends_lift hq (h.bind (Dialogue.ends_done _))

/-- If there is no response, finding comes to the fault. -/
theorem findWith_ends_error (hq : Query.find f.entityType f.profile o = .ok q) {fault : Fault}
    (h : (q.execute f.setting).Ends m (.error fault) after) :
    (f.findWith o).Ends m (.error fault) after := by
  rw [findWith]
  exact Dialogue.ends_lift hq h.bind_error

/-- Counting comes to the number that the response to the compiled query holds, if it holds one, seen
through the window. -/
theorem countWith_ends_bind
    (hq : Query.count f.entityType f.profile { o with limit := .null, offset := .null } = .ok q)
    (h : (q.execute f.setting).Ends m (.ok response) after) :
    (f.countWith o).Ends m ((if q.reduced.truthy then Count.reduced response
      else Count.rows response).bind fun n => Count.capped (.int n) o.limit o.offset) after := by
  have hcapped (n : Except Fault Int) : Dialogue.Ends
      (do Count.capped (.int (← (n : Dialogue Int))) o.limit o.offset) after
        (n.bind fun n => Count.capped (.int n) o.limit o.offset) after := by
    cases n <;> exact Dialogue.ends_done _
  rw [countWith]
  refine Dialogue.ends_lift hq (h.bind ?_)
  cases q.reduced.truthy
  · exact hcapped (Count.rows response)
  · exact hcapped (Count.reduced response)

/-- So it comes to a number where the response holds one. -/
theorem countWith_ends
    (hq : Query.count f.entityType f.profile { o with limit := .null, offset := .null } = .ok q)
    (h : (q.execute f.setting).Ends m (.ok response) after) {n : Nat}
    (hn : (if q.reduced.truthy then Count.reduced response else Count.rows response) = .ok n) :
    (f.countWith o).Ends m (Count.capped (.int n) o.limit o.offset) after := by
  have hends := countWith_ends_bind hq h
  rwa [hn] at hends

end

section
variable {conditions : Entries}

/-- Finding by nothing but conditions. -/
theorem find_conditions_ends
    (hq : Query.find f.entityType f.profile { conditions := .dict conditions } = .ok q)
    (h : (q.execute f.setting).Ends m (.ok response) after) :
    (f.find (.dict [(.str "conditions", .dict conditions)])).Ends m
      (f.entityType.materialize response (.bool false) (.bool false) .null) after :=
  Dialogue.ends_lift (Options.ofValue_conditions conditions) (findWith_ends hq h)

/-- Counting by nothing but conditions comes to the number in the response, if there is one. -/
theorem count_conditions_ends_map
    (hq : Query.count f.entityType f.profile { conditions := .dict conditions } = .ok q)
    (h : (q.execute f.setting).Ends m (.ok response) after) :
    (f.count (.dict [(.str "conditions", .dict conditions)])).Ends m
      ((if q.reduced.truthy then Count.reduced response else Count.rows response).map .int) after :=
  Dialogue.ends_lift (Options.ofValue_conditions conditions)
    (countWith_ends_bind (o := { conditions := .dict conditions }) hq h)

/-- Counting by nothing but conditions. -/
theorem count_conditions_ends
    (hq : Query.count f.entityType f.profile { conditions := .dict conditions } = .ok q)
    (h : (q.execute f.setting).Ends m (.ok response) after) {n : Nat}
    (hn : (if q.reduced.truthy then Count.reduced response else Count.rows response) = .ok n) :
    (f.count (.dict [(.str "conditions", .dict conditions)])).Ends m (.ok (.int n)) after :=
  Dialogue.ends_lift (Options.ofValue_conditions conditions)
    (countWith_ends (o := { conditions := .dict conditions }) hq h hn)

/-- There is a document if the first record of those found, one at most, is not null. -/
theorem exists_conditions_ends
    (hq : Query.find f.entityType f.profile { conditions := .dict conditions, limit := .int 1 } =
      .ok q) (h : (q.execute f.setting).Ends m (.ok response) after) {rs : List Record}
    (hrs : f.entityType.materialize response (.bool false) (.bool false) .null =
      .ok (.records rs)) :
    (f.exists (.dict conditions)).Ends m
      (.ok ((rs.head?.map fun r => !r.isNull).getD false)) after := by
  have hfind := findWith_ends (o := { conditions := .dict conditions, limit := .int 1 }) hq h
  rw [hrs] at hfind
  have hfirst : (f.first (.dict [(.str "conditions", .dict conditions)])).Ends m
      (.ok rs.head?) after :=
    Dialogue.ends_lift (Options.ofValue_conditions conditions) (hfind.bind (Dialogue.ends_done _))
  refine hfirst.bind ?_
  cases rs.head? <;> exact Dialogue.ends_pure _

end

end Finder

namespace Database

/-- The finder that a database makes for a type. -/
def finderOf (e : EntityType) (designName : String) (p : Profile) (allowAdHoc : Bool) : Finder :=
  { entityType := e, designName, profile := p, allowAdHoc }

/-- A database that has not been used makes a new finder. -/
theorem finder_eq {e : EntityType} {designName : String} (he : e.designName = .ok designName)
    (p : Profile) (allowAdHoc : Bool) :
    ({ profile := p, allowAdHoc } : Database).finder e =
      .ok (finderOf e designName p allowAdHoc) := by
  have hhashable : e.name.hashable = true := by
    rw [EntityType.designName] at he
    split at he
    · next hname => rw [hname]; rfl
    · cases he
  simp [finder, hhashable, Finder.ofType, he, finderOf, bind, Except.bind, pure, Except.pure]

end Database

/-- What an operation on the documents of a type comes to on a store in memory, by a database that
knows the store to be of the release that a profile describes. -/
def Store.Memory.outcome {α : Type} (m : Memory) (p : Profile) (allowAdHoc : Bool) (e : EntityType)
    (operation : Finder → Dialogue α) : Except Fault α :=
  (({ profile := p, allowAdHoc } : Database).run Memory.answer m e operation).1

/-- The outcome is the end of the operation of a new finder. -/
theorem Dialogue.Ends.outcome_eq {α : Type} {e : EntityType} {designName : String}
    (he : e.designName = .ok designName) {p : Profile} {allowAdHoc : Bool} {m after : Memory}
    {operation : Finder → Dialogue α} {result : Except Fault α}
    (h : (operation (Database.finderOf e designName p allowAdHoc)).Ends m result after) :
    m.outcome p allowAdHoc e operation = result := by
  obtain ⟨seen, hrun⟩ := h []
  rw [Memory.outcome, Database.run, Database.finder_eq he]
  simp only [Database.finderOf] at hrun ⊢
  rw [hrun]

/-- An operation that fails has no result. -/
theorem Dialogue.Fails.toOption_outcome {α : Type} {e : EntityType} {designName : String}
    (he : e.designName = .ok designName) {p : Profile} {allowAdHoc : Bool} {m : Memory}
    {operation : Finder → Dialogue α}
    (h : (operation (Database.finderOf e designName p allowAdHoc)).Fails m) :
    (m.outcome p allowAdHoc e operation).toOption = none := by
  obtain ⟨fault, after, hends⟩ := h
  rw [hends.outcome_eq he]
  rfl

/-! ## A store of people -/

/-- The type of people. -/
def person : EntityType := { name := .str "Person" }

theorem hasIdentifiers_person : person.HasIdentifiers := ⟨by decide, by decide, by decide⟩

/-- A store of three people and of one pet. -/
def people : Memory :=
  { documents := [
      (.str "p1", .dict [(.str "_id", .str "p1"), (.str "doc_type", .str "Person"),
        (.str "grade", .int 9)]),
      (.str "p2", .dict [(.str "_id", .str "p2"), (.str "doc_type", .str "Person"),
        (.str "grade", .int 11)]),
      (.str "p3", .dict [(.str "_id", .str "p3"), (.str "doc_type", .str "Person")]),
      (.str "pet1", .dict [(.str "_id", .str "pet1"), (.str "doc_type", .str "Pet")])] }

theorem holdsJson_people : people.HoldsJson :=
  Memory.holdsJson_of_isJson
    (by simp [people, Value.isJson, Value.membersJson, Value.isFreshName]) (by decide)

theorem absent_people (designName : String) :
    people.documents.get? (Registry.designId designName) = none := by
  simp [people, Registry.designId, Index.designPrefix, String.ext_iff]

end ViewFinder
