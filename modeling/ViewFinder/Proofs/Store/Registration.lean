import ViewFinder.Proofs.Store.Rows
import ViewFinder.Query.Execution

/-!
# Views that are registered when they are first needed

Against a store in memory a query comes to the answer that the store would give for the query's own
map function, whether its view is there already or is registered on the way
(`CompiledQuery.executeIndexed_ends`): the design document may be absent, or readable without the
view (`Registry.Admits`). Afterwards the store holds the view, and every index is what it was.
-/

namespace ViewFinder

open Store

/-! ## Dialogues with a store in memory -/

namespace Dialogue

variable {α β : Type}

/-- Carried out against a store in memory a dialogue comes to a result and leaves the store in a
state, whatever views were seen before. -/
def Ends (d : Dialogue α) (m : Memory) (result : Except Fault α) (after : Memory) : Prop :=
  ∀ views, ∃ seen, d.run Memory.answer views m = (result, seen, after)

section
variable {m after last : Memory}

theorem ends_done (result : Except Fault α) : (done result).Ends m result m :=
  fun views => ⟨views, rfl⟩

theorem ends_pure (a : α) : (pure a : Dialogue α).Ends m (.ok a) m := ends_done _

theorem ends_throw (e : Fault) : (throw e : Dialogue α).Ends m (.error e) m := ends_done _

/-- The parts of a dialogue are carried out one after the other. -/
theorem Ends.bind {d : Dialogue α} {f : α → Dialogue β} {a : α} {result : Except Fault β}
    (hd : d.Ends m (.ok a) after) (hf : (f a).Ends after result last) :
    (d >>= f).Ends m result last := fun views => by
  obtain ⟨seen, hrun⟩ := hd views
  rw [run_bind, hrun]
  exact hf seen

/-- After a fault nothing more is carried out. -/
theorem Ends.bind_error {d : Dialogue α} {f : α → Dialogue β} {e : Fault}
    (hd : d.Ends m (.error e) after) : (d >>= f).Ends m (.error e) after := fun views => by
  obtain ⟨seen, hrun⟩ := hd views
  exact ⟨seen, by rw [run_bind, hrun]⟩

/-- Something is made of the result. -/
theorem Ends.map {d : Dialogue α} {result : Except Fault α} (hd : d.Ends m result after)
    (f : α → β) : (do return f (← d)).Ends m (result.map f) after := by
  cases result with
  | ok a => exact hd.bind (ends_done _)
  | error e => exact hd.bind_error

/-- A step that makes no request. -/
theorem ends_lift {x : Except Fault α} {f : α → Dialogue β} {a : α} {result : Except Fault β}
    (hx : x = .ok a) (hf : (f a).Ends m result after) :
    ((monadLift x : Dialogue α) >>= f).Ends m result after := by
  subst hx
  exact Ends.bind (ends_done _) hf

/-- A request is made, and its answer gone on with. -/
theorem Ends.ask {r : Request} {next : Answer → Dialogue α} {result : Except Fault α}
    (h : (next (m.answer r).1).Ends (m.answer r).2 result after) :
    (ask r next).Ends m result after := h

theorem ends_request (r : Request) : (request r).Ends m (m.answer r).1 (m.answer r).2 :=
  fun views => ⟨views, rfl⟩

theorem ends_attempt (r : Request) : (attempt r).Ends m (.ok (m.answer r).1) (m.answer r).2 :=
  fun views => ⟨views, rfl⟩

theorem ends_note (views : List Value) : (note views).Ends m (.ok ()) m :=
  fun _ => ⟨views, rfl⟩

end

end Dialogue

/-! ## Design documents in a store -/

namespace Registry

/-- A design document as a store in memory holds it: under its id, with bodies that have a map
function, and with a revision that counts. -/
structure Stored (m : Memory) (designName : String) (es bodies : Entries) : Prop where
  document : m.documents.get? (designId designName) = some (.dict es)
  id : es.get? "_id" = some (.str (designId designName))
  views : es.get? "views" = some (.dict bodies)
  bodies : ∀ b ∈ bodies, ∃ body : Entries, b.2 = .dict body ∧ (body.getD "map").truthy = true
  rev : ∃ rev n, es.get? "_rev" = some (.str rev) ∧ Memory.generation (.str rev) = .ok n

/-- The store has a view of the name that runs the same functions. -/
def Holds (m : Memory) (designName : String) (view : ViewDefinition) : Prop :=
  ∃ (name : String) (es bodies body : Entries), view.name = .str name ∧
    m.documents.get? (designId designName) = some (.dict es) ∧
      es.get? "views" = some (.dict bodies) ∧ bodies.get? name = some (.dict body) ∧
        body.get? "map" = some view.map ∧ (body.getD "reduce").truthy = view.reduce.truthy

/-- A query can be answered through the view: there is no design document, or one without a view of
the name, or the view is there. -/
inductive Admits (m : Memory) (designName : String) (view : ViewDefinition) : Prop
  | absent (name : String) (hname : view.name = .str name)
    (h : m.documents.get? (designId designName) = none)
  | lacking (name : String) (hname : view.name = .str name) (es bodies : Entries)
    (h : Stored m designName es bodies) (hlacks : bodies.get? name = none)
  | held (h : Holds m designName view)

/-- The indexes of one store are those of another. -/
def SameIndexes (m after : Memory) : Prop :=
  ∀ source, Index.ofDocuments source after.documents = Index.ofDocuments source m.documents

theorem SameIndexes.trans {m between after : Memory} (h : SameIndexes m between)
    (h' : SameIndexes between after) : SameIndexes m after := fun source =>
  (h' source).trans (h source)

/-- Equal indexes give equal answers. -/
theorem SameIndexes.answer_eq {m after : Memory} (h : SameIndexes m after) (map reduce : Value)
    (params : Entries) : Index.answer after.documents map reduce params =
      Index.answer m.documents map reduce params := by
  simp only [Index.answer, h map]

end Registry

/-- The body of a view has its map function, and a reduce function if the view has one. -/
theorem ViewDefinition.exists_body (v : ViewDefinition) : ∃ body : Entries, v.body = .dict body ∧
    body.get? "map" = some v.map ∧ (body.getD "reduce").truthy = v.reduce.truthy := by
  refine ⟨_, rfl, by simp, ?_⟩
  cases hreduce : v.reduce.truthy
  · simp [Entries.getD, Value.truthy]
  · simp [Entries.getD, hreduce]

namespace Views

/-- The views that bodies describe, one by one. -/
def ofBody (entry : Value × Value) : Value × ViewDefinition :=
  match entry.2 with
  | .dict body => (entry.1, ⟨entry.1, Entries.getD body "map", Entries.getD body "reduce"⟩)
  | _ => (entry.1, ⟨entry.1, .null, .null⟩)

/-- Bodies that have a map function describe views. -/
theorem ofBodies_eq {bodies : Entries}
    (h : ∀ b ∈ bodies, ∃ body : Entries, b.2 = .dict body ∧ (body.getD "map").truthy = true) :
    ofBodies bodies = .ok (bodies.map ofBody) := by
  induction bodies with
  | nil => rfl
  | cons b bodies ih =>
    obtain ⟨⟨body, hbody, hmap⟩, hrest⟩ := List.forall_mem_cons.1 h
    obtain ⟨name, v⟩ := b
    simp only at hbody
    subst hbody
    simp [ofBodies, ih hrest, ViewDefinition.ofBody, Value.member, Value.entries, Except.map, hmap,
      ofBody, bind, Except.bind, pure, Except.pure]

/-- There is a view of a name if and only if there is a body of the name. -/
theorem isSome_find?_ofBody {bodies : Entries} {name : String} :
    (find? (bodies.map ofBody) (.str name)).isSome = (bodies.get? name).isSome := by
  have hname (b : Value × Value) : (ofBody b).1 = b.1 := by
    rw [ofBody]
    split <;> rfl
  rw [find?, List.find?_map, Entries.get?, Entries.find?]
  simp only [Option.isSome_map, Function.comp_def, hname]

/-- The bodies after a view was put under its name. -/
theorem toBodies_insert (views : Views) (name : Value) (view : ViewDefinition) :
    toBodies (views.insert name view) = views.toBodies.insert name view.body := by
  induction views with
  | nil => rfl
  | cons v views ih =>
    obtain ⟨n, v⟩ := v
    rw [Views.insert]
    simp only [toBodies, List.map_cons, Entries.insert] at ih ⊢
    split
    · rfl
    · rw [List.map_cons, ih]

end Views

namespace Registry

variable {m : Memory} {designName : String} {view : ViewDefinition}

theorem startsWith_designId (designName : String) :
    (designId designName).startsWith Index.designPrefix = true := by
  rw [String.startsWith_string_iff, designId, String.toList_append]
  exact List.prefix_append ..

/-- A store of one document that is no design document has no design document. -/
theorem absent_ofDocument {d : String × Entries} (hid : d.1.startsWith Index.designPrefix = false)
    (designName : String) : (Memory.ofDocument d).documents.get? (designId designName) = none := by
  refine Entries.get?_eq_none_iff.2 (List.forall_mem_singleton.2 fun heq => ?_)
  rw [Value.str.inj heq, startsWith_designId] at hid
  cases hid

/-- Storing a design document changes no index. -/
theorem sameIndexes_set (document : Value) : SameIndexes m
    { m with documents := m.documents.set (designId designName) document } :=
  fun source => Index.ofDocuments_insert_design source _ (startsWith_designId designName) document

/-- The design document that the library reads off some bodies. -/
def designOf (designName : String) (bodies : Entries) (rev : Value) : DesignDocument :=
  { docId := .str (designId designName), views := bodies.map Views.ofBody, rev }

/-- Reading a design document gives the views that its bodies describe. -/
theorem ofValue_dict {es bodies : Entries} (hid : es.get? "_id" = some (.str (designId designName)))
    (hviews : (es.getD "views").orElse (.dict []) = .dict bodies)
    (hbodies : ∀ b ∈ bodies, ∃ body : Entries, b.2 = .dict body ∧
      (body.getD "map").truthy = true) :
    DesignDocument.ofValue (.dict es) = .ok (designOf designName bodies (es.getD "_rev")) := by
  simp only [DesignDocument.ofValue, Value.member, Value.required, Value.entries, Except.map, hid,
    hviews, Views.ofBodies_eq hbodies, bind, Except.bind, pure, Except.pure]
  rfl

/-- It has a view of a name if and only if there is a body of the name. -/
theorem hasView_designOf (designName : String) (bodies : Entries) (rev : Value) (name : String) :
    (designOf designName bodies rev).hasView (.str name) = (bodies.get? name).isSome := by
  rw [DesignDocument.hasView, designOf, Views.isSome_find?_ofBody]

/-- The entries of a design document as it is saved. -/
def entriesOf (designName : String) (bodies : Entries) (rev : String) : Entries :=
  [(.str "_id", .str (designId designName)), (.str "views", .dict bodies), (.str "_rev", .str rev)]

@[simp] theorem get?_views_entriesOf (designName : String) (bodies : Entries) (rev : String) :
    (entriesOf designName bodies rev).get? "views" = some (.dict bodies) := by
  simp [entriesOf]

@[simp] theorem get?_rev_entriesOf (designName : String) (bodies : Entries) (rev : String) :
    (entriesOf designName bodies rev).get? "_rev" = some (.str rev) := by
  simp [entriesOf]

/-- The store after a design document was saved. -/
def afterSave (m : Memory) (designName : String) (bodies : Entries) (rev : String) : Memory :=
  { m with documents :=
      m.documents.set (designId designName) (.dict (entriesOf designName bodies rev)) }

/-- What is stored after a save. -/
theorem get?_afterSave (m : Memory) (designName : String) (bodies : Entries) (rev : String) :
    (afterSave m designName bodies rev).documents.get? (designId designName) =
      some (.dict (entriesOf designName bodies rev)) := by
  rw [afterSave, Entries.get?_set, if_pos rfl]

/-- A design document is saved if it is given a revision. -/
theorem answer_save (design : DesignDocument) (hid : design.docId = .str (designId designName)) :
    m.answer (.save design.toValue) =
      match Memory.nextRevision (.str (designId designName))
        (m.documents.get? (designId designName)) design.toValue with
      | .ok rev => (.ok (.dict [(.str "ok", .bool true), (.str "id", .str (designId designName)),
          (.str "rev", .str rev)]), afterSave m designName design.views.toBodies rev)
      | .error e => (.error e, m) := by
  have hrequired : design.toValue.required "_id" = .ok (.str (designId designName)) := by
    simp [DesignDocument.toValue, Value.required, hid]
  have hfind : m.find? (.str (designId designName)) =
      .ok (m.documents.get? (designId designName)) := rfl
  have hstored (rev : String) : ∃ es, design.toValue.entries = .ok es ∧
      es.set "_rev" (.str rev) = entriesOf designName design.views.toBodies rev := by
    refine ⟨_, rfl, ?_⟩
    rw [hid]
    cases design.rev.truthy <;> simp [entriesOf, Entries.set, Entries.insert]
  rw [Memory.answer, Memory.save, hrequired]
  simp only [bind, Except.bind, hfind]
  cases Memory.nextRevision (.str (designId designName))
    (m.documents.get? (designId designName)) design.toValue with
  | error e => rfl
  | ok rev =>
    obtain ⟨es, hes, hset⟩ := hstored rev
    simp only [hes, hset]
    rfl

/-- A document that is there has a next revision if its own is named and counts. -/
theorem nextRevision_some {es : Entries} {rev : String} (hrev : es.get? "_rev" = some (.str rev))
    (id : Value) (design : DesignDocument) :
    Memory.nextRevision id (some (.dict es)) design.toValue =
      if (Value.str rev).equal (if design.rev.truthy then design.rev else .null) then
        (Memory.generation (.str rev)).map fun n => s!"{n + 1}-mem"
      else .error (.conflict (.document id.text)) := by
  have hexisting : (Value.dict es).member "_rev" = .ok (.str rev) := by
    simp [Value.member, Value.entries, Entries.getD, hrev, Except.map]
  have hrequired : (Value.dict es).required "_rev" = .ok (.str rev) := by
    simp [Value.required, hrev]
  have hnamed : design.toValue.member "_rev" =
      .ok (if design.rev.truthy then design.rev else .null) := by
    cases htruthy : design.rev.truthy <;>
      simp [DesignDocument.toValue, Value.member, Value.entries, Entries.getD, Except.map, htruthy]
  simp only [Memory.nextRevision, hexisting, hnamed, hrequired, bind, Except.bind]
  cases (Value.str rev).equal (if design.rev.truthy then design.rev else .null) with
  | false => rfl
  | true => cases Memory.generation (.str rev) <;> rfl

/-- A design document that was not there is saved as its first revision. -/
theorem save_absent (h : m.documents.get? (designId designName) = none) (views : Views) :
    m.answer (.save (DesignDocument.toValue { docId := .str (designId designName), views })) =
      (.ok (.dict [(.str "ok", .bool true), (.str "id", .str (designId designName)),
        (.str "rev", .str "1-mem")]), afterSave m designName views.toBodies "1-mem") := by
  rw [answer_save _ rfl, h]
  rfl

/-- A revision that counts is not empty. -/
theorem isEmpty_of_generation {rev : String} {n : Int}
    (h : Memory.generation (.str rev) = .ok n) : rev.isEmpty = false := by
  rw [Bool.eq_false_iff]
  intro hempty
  rw [String.isEmpty_iff] at hempty
  subst hempty
  cases h

/-- A design document that is there is replaced only by one of its own revision, if that counts;
otherwise the store stays as it is. -/
theorem save_present {es : Entries} {rev : String}
    (h : m.documents.get? (designId designName) = some (.dict es))
    (hrev : es.get? "_rev" = some (.str rev)) (design : DesignDocument)
    (hid : design.docId = .str (designId designName)) :
    m.answer (.save design.toValue) =
      if (Value.str rev).equal (if design.rev.truthy then design.rev else .null) then
        match Memory.generation (.str rev) with
        | .ok n => (.ok (.dict [(.str "ok", .bool true), (.str "id", .str (designId designName)),
            (.str "rev", .str s!"{n + 1}-mem")]),
          afterSave m designName design.views.toBodies s!"{n + 1}-mem")
        | .error e => (.error e, m)
      else (.error (.conflict (.document (designId designName))), m) := by
  rw [answer_save design hid, h, nextRevision_some hrev]
  cases (Value.str rev).equal (if design.rev.truthy then design.rev else .null) with
  | false => rfl
  | true => cases Memory.generation (.str rev) <;> rfl

/-- A design document that was there is saved as its next revision. -/
theorem save_stored {es bodies : Entries} (h : Stored m designName es bodies) (views : Views) :
    ∃ rev n, es.get? "_rev" = some (.str rev) ∧ Memory.generation (.str rev) = .ok n ∧
      m.answer (.save (DesignDocument.toValue
        { docId := .str (designId designName), views, rev := .str rev })) =
      (.ok (.dict [(.str "ok", .bool true), (.str "id", .str (designId designName)),
        (.str "rev", .str s!"{n + 1}-mem")]),
        afterSave m designName views.toBodies s!"{n + 1}-mem") := by
  obtain ⟨rev, n, hrev, hn⟩ := h.rev
  have htruthy : (Value.str rev).truthy = true := by simp [Value.truthy, isEmpty_of_generation hn]
  have hequal : (Value.str rev).equal (.str rev) = true := by simp [Value.equal, Value.agree]
  refine ⟨rev, n, hrev, hn, ?_⟩
  rw [save_present h.document hrev _ rfl, if_pos htruthy, if_pos hequal, hn]

/-! ## Making sure of a view -/

/-- Adding a view to a design document is saving it with the view. -/
theorem add_ends (design : DesignDocument) {name : String} (hname : view.name = .str name)
    {response : Value} {after : Memory}
    (h : m.answer (.save (design.addView view).toValue) = (.ok response, after)) :
    (add design view).Ends m (.ok ()) after := by
  have hrequest := Dialogue.ends_request (m := m) (.save (design.addView view).toValue)
  rw [h] at hrequest
  rw [add, if_pos (by rw [hname]; rfl)]
  exact hrequest.bind (Dialogue.ends_note _)

/-- What a store in memory answers when it is asked for a document. -/
theorem answer_get (id : String) : m.answer (.get (.str id)) =
    (match m.documents.get? id with
      | some document => .ok document
      | none => .error (.notFound (.document id)), m) := by
  rw [Memory.answer, Memory.get, Memory.find?]
  simp only [Value.hashable, if_true, Entries.get?]
  cases Entries.find? m.documents (.str id) <;> rfl

theorem load_ends_absent (h : m.documents.get? (designId designName) = none) :
    (load designName).Ends m (.ok none) m := by
  have hget := Dialogue.ends_attempt (m := m) (.get (.str (designId designName)))
  rw [answer_get, h] at hget
  exact hget.bind (Dialogue.ends_pure none)

/-- What is loaded are the views that the bodies describe. -/
theorem load_ends_stored {es bodies : Entries} (h : Stored m designName es bodies) :
    (load designName).Ends m (.ok (some (designOf designName bodies (es.getD "_rev")))) m := by
  have hget := Dialogue.ends_attempt (m := m) (.get (.str (designId designName)))
  rw [answer_get, h.document] at hget
  have hviews : (es.getD "views").orElse (.dict []) = .dict bodies := by
    rw [Entries.getD, h.views, Option.getD_some, Value.orElse_dict]
  have hread := ofValue_dict h.id hviews h.bodies
  refine hget.bind (Dialogue.ends_lift ?_ (Dialogue.ends_pure _))
  rw [hread]

/-- Where there is no design document one is written that holds just the view. -/
theorem ensure_ends_absent {name : String} (hname : view.name = .str name)
    (h : m.documents.get? (designId designName) = none) :
    (ensure designName view).Ends m (.ok true)
      (afterSave m designName [(.str name, view.body)] "1-mem") := by
  have hsave := save_absent h (Views.insert [] view.name view)
  have hadd := add_ends { docId := .str (designId designName) } hname hsave
  rw [hname] at hadd
  exact (load_ends_absent h).bind (hadd.bind (Dialogue.ends_pure true))

/-- The bodies that are stored after a view was added to others: those that the library knows of,
and the new one. -/
def bodiesWith (bodies : Entries) (name : String) (view : ViewDefinition) : Entries :=
  (Views.toBodies (bodies.map Views.ofBody)).set name view.body

/-- Where the design document lacks the view it is written anew, as its next revision. -/
theorem ensure_ends_lacking {es bodies : Entries} (h : Stored m designName es bodies)
    {name : String} (hname : view.name = .str name) (hlacks : bodies.get? name = none) :
    ∃ rev n, es.get? "_rev" = some (.str rev) ∧ Memory.generation (.str rev) = .ok n ∧
      (ensure designName view).Ends m (.ok true)
        (afterSave m designName (bodiesWith bodies name view) s!"{n + 1}-mem") := by
  obtain ⟨rev, n, hrev, hn, hsave⟩ := save_stored h
    (Views.insert (bodies.map Views.ofBody) view.name view)
  have hgetD : es.getD "_rev" = .str rev := by rw [Entries.getD, hrev]; rfl
  have hload := load_ends_stored h
  rw [hgetD] at hload
  have hlacks' : (designOf designName bodies (.str rev)).hasView view.name = false := by
    rw [hname, hasView_designOf, hlacks]
    rfl
  have hadd := add_ends (designOf designName bodies (.str rev)) hname hsave
  rw [Views.toBodies_insert, hname] at hadd
  refine ⟨rev, n, hrev, hn, hload.bind ?_⟩
  have hhash : view.name.hashable = true := by rw [hname]; rfl
  simp only [hhash, hlacks', Bool.not_true, Bool.false_eq_true, if_false]
  exact hadd.bind (Dialogue.ends_pure true)

/-- After a view was saved the store holds it. -/
theorem holds_afterSave (m : Memory) (designName : String) {name : String}
    (hname : view.name = .str name) (bodies : Entries) (rev : String) :
    Holds (afterSave m designName (bodies.set name view.body) rev) designName view := by
  obtain ⟨body, hbody, hmap, hreduce⟩ := view.exists_body
  refine ⟨name, entriesOf designName (bodies.set name view.body) rev, bodies.set name view.body,
    body, hname, ?_, ?_, ?_, hmap, hreduce⟩
  · exact get?_afterSave ..
  · exact get?_views_entriesOf ..
  · rw [Entries.get?_set, if_pos rfl, hbody]

/-! ## Requests for a view -/

/-- A view that the store holds is answered from its own functions. -/
theorem view_of_holds (h : Holds m designName view) {name path : String}
    (hname : view.name = .str name) (hpath : Memory.viewAt? path = some (designName, name))
    (params : Entries) :
    m.view path params = Index.answer m.documents view.map view.reduce params := by
  obtain ⟨held, es, bodies, body, hheld, hdocument, hviews, hbody, hmap, hreduce⟩ := h
  have heq : held = name := by simpa [hname] using hheld.symm
  subst heq
  have hdocument' : m.documents.get? (Index.designPrefix ++ designName) = some (.dict es) :=
    hdocument
  have hruns : Index.runsReduce (body.getD "reduce") params =
      Index.runsReduce view.reduce params := by
    rw [Index.runsReduce, Index.runsReduce, hreduce]
  simp [Memory.view, hpath, hdocument', Memory.bodyOf?, Value.member?, Value.member, Value.required,
    Value.entries, hviews, hbody, hmap, Index.answer, hruns, Except.map, bind, Except.bind, pure,
    Except.pure]

/-- A view that the design document lacks, or whose design document is absent, is not found. -/
theorem view_of_absent (h : m.documents.get? (designId designName) = none) {name path : String}
    (hpath : Memory.viewAt? path = some (designName, name)) (params : Entries) :
    m.view path params = .error (.notFound (.view path)) := by
  have h' : m.documents.get? (Index.designPrefix ++ designName) = none := h
  simp [Memory.view, hpath, h', throw, throwThe, MonadExceptOf.throw]

theorem view_of_lacking {es bodies : Entries}
    (hdocument : m.documents.get? (designId designName) = some (.dict es))
    (hviews : es.get? "views" = some (.dict bodies)) {name path : String}
    (hlacks : bodies.get? name = none) (hpath : Memory.viewAt? path = some (designName, name))
    (params : Entries) : m.view path params = .error (.notFound (.view path)) := by
  have h' : m.documents.get? (Index.designPrefix ++ designName) = some (.dict es) := hdocument
  simp [Memory.view, hpath, h', Memory.bodyOf?, Value.member?, Value.entries, hviews, hlacks,
    Except.map, bind, Except.bind, pure, Except.pure, throw, throwThe, MonadExceptOf.throw]

end Registry

namespace CompiledQuery

open Registry

variable {m : Memory} {q : CompiledQuery} {s : Setting} {name : String}

/-- A query that finds its view is answered at once. -/
theorem executeIndexed_ends_of_ok {response : Value}
    (h : m.view (q.viewPath s.profile) q.params = .ok response) :
    (q.executeIndexed s).Ends m (.ok response) m := by
  have hview := Dialogue.ends_attempt (m := m) (.view (q.viewPath s.profile) q.params)
  rw [Memory.answer, h] at hview
  exact hview.bind (Dialogue.ends_done _)

/-- A query that does not find its view has it registered and asks again. -/
theorem executeIndexed_ends_of_missing {what : Missing} {written : Bool} {after : Memory}
    (h : m.view (q.viewPath s.profile) q.params = .error (.notFound what))
    (hensure : (ensure s.designName q.view).Ends m (.ok written) after) :
    (q.executeIndexed s).Ends m (after.view (q.viewPath s.profile) q.params) after := by
  have hview := Dialogue.ends_attempt (m := m) (.view (q.viewPath s.profile) q.params)
  rw [Memory.answer, h] at hview
  exact hview.bind (hensure.bind (Dialogue.ends_request (.view (q.viewPath s.profile) q.params)))

/-- A query whose view is missing is answered, once that is saved, as the store would answer for its own
map function. -/
theorem executeIndexed_ends_of_saved (hname : q.viewName = .str name)
    (hpath : Memory.viewAt? (q.viewPath s.profile) = some (s.designName, name))
    (hmissing : m.view (q.viewPath s.profile) q.params =
      .error (.notFound (.view (q.viewPath s.profile)))) (bodies : Entries) {rev : String}
    (hensure : (ensure s.designName q.view).Ends m (.ok true)
      (afterSave m s.designName (bodies.set name q.view.body) rev)) :
    ∃ after, (q.executeIndexed s).Ends m
        (Index.answer m.documents q.mapSource q.reduceSource q.params) after ∧
      Holds after s.designName q.view ∧ SameIndexes m after := by
  have hholds : Holds (afterSave m s.designName (bodies.set name q.view.body) rev)
      s.designName q.view := holds_afterSave m s.designName hname bodies rev
  have hsame : SameIndexes m (afterSave m s.designName (bodies.set name q.view.body) rev) :=
    sameIndexes_set _
  have hends := executeIndexed_ends_of_missing hmissing hensure
  rw [view_of_holds hholds hname hpath, hsame.answer_eq] at hends
  exact ⟨_, hends, hholds, hsame⟩

/-- Whether its view is there or not, a query is answered as the store would answer for its own map
function. Afterwards the view is there. -/
theorem executeIndexed_ends (hname : q.viewName = .str name)
    (hpath : Memory.viewAt? (q.viewPath s.profile) = some (s.designName, name))
    (hadmits : Admits m s.designName q.view) {response : Value}
    (h : Index.answer m.documents q.mapSource q.reduceSource q.params = .ok response) :
    ∃ after, (q.executeIndexed s).Ends m (.ok response) after ∧ Holds after s.designName q.view ∧
      SameIndexes m after := by
  rw [← h]
  cases hadmits with
  | absent other hother habsent =>
    have heq : other = name := by simpa [CompiledQuery.view, hname] using hother.symm
    subst heq
    exact executeIndexed_ends_of_saved hname hpath (view_of_absent habsent hpath _) []
      (ensure_ends_absent hother habsent)
  | lacking other hother es bodies hstored hlacks =>
    have heq : other = name := by simpa [CompiledQuery.view, hname] using hother.symm
    subst heq
    obtain ⟨rev, n, -, -, hensure⟩ := ensure_ends_lacking hstored hother hlacks
    exact executeIndexed_ends_of_saved hname hpath
      (view_of_lacking hstored.document hstored.views hlacks hpath _) _ hensure
  | held hholds =>
    refine ⟨m, ?_, hholds, fun _ => rfl⟩
    rw [h]
    refine executeIndexed_ends_of_ok ?_
    rw [view_of_holds hholds hname hpath]
    exact h

end CompiledQuery

end ViewFinder
