import ViewFinder.Proofs.Query.CreateOnMiss
import ViewFinder.Proofs.Registry.StoredViews
import ViewFinder.Proofs.Store.Leads
import ViewFinder.Proofs.Store.Misses
import ViewFinder.Proofs.Store.Session

/-!
# Design documents that only the registry has written

The registry writes a design document view by view, so one that it alone has written holds as many
views as its revision counts, each as it was given (`Registry.Written`). What is known of each view
that is ever given then holds of every view that is there. Making sure of one more keeps it so
(`Registry.keeps_ensure`), and a query is answered from the view of its name: from the one that is
there, else from its own, which is there afterwards (`CompiledQuery.executeIndexed_leads`); unless
the view is missing and there are more than a revision can count.
-/

namespace ViewFinder

open Store

/-- The design document of a name. -/
def Store.Memory.design (m : Memory) (designName : String) : Option Value :=
  m.documents.get? (Registry.designId designName)

namespace Registry

theorem designId_injective : Function.Injective designId := by
  intro s t h
  rw [designId, designId, ← String.toList_inj, String.toList_append, String.toList_append,
    List.append_cancel_left_eq, String.toList_inj] at h
  exact h

/-! ## Bodies that were written -/

/-- The revision of a design document whose views were added one by one. -/
def revisionOf (bodies : Entries) : String := s!"{(bodies.length : Int)}-mem"

/-- The bodies are those of proper views of a kind, under their names. -/
structure WrittenBodies (kind : ViewDefinition → Prop) (bodies : Entries) : Prop where
  named : bodies.Named
  written : ∀ b ∈ bodies, ∃ view, Proper view ∧ kind view ∧ b = (view.name, view.body)

/-- A design document is absent, or it holds nothing but views of a kind, and as many as its revision
counts. -/
inductive Written (kind : ViewDefinition → Prop) (designName : String) : Option Value → Prop
  | absent : Written kind designName none
  | stored (bodies : Entries) (h : WrittenBodies kind bodies) :
    Written kind designName (some (.dict (entriesOf designName bodies (revisionOf bodies))))

/-- A body is written back as it is. -/
theorem Proper.writtenBody_eq {view : ViewDefinition} (h : Proper view) :
    writtenBody view.body = view.body := by
  have hreduce : ({ view with name := .null } : ViewDefinition).reduce = .null ∨
      ({ view with name := .null } : ViewDefinition).reduce.truthy = true := h.reduce
  have hread : (Views.ofBody (.null, view.body)).2 = { view with name := .null } :=
    ofBody_body hreduce
  rw [writtenBody, hread]
  rfl

section
variable {kind : ViewDefinition → Prop} {bodies : Entries} (h : WrittenBodies kind bodies)
include h

theorem WrittenBodies.sound (designName : String) : Sound designName
    (entriesOf designName bodies (revisionOf bodies)) bodies (revisionOf bodies) where
  id := by simp [entriesOf]
  views := by rw [Entries.getD, get?_views_entriesOf, Option.getD_some, Value.orElse_dict]
  named := h.named
  proper := fun b hb => by
    obtain ⟨view, hview, -, rfl⟩ := h.written b hb
    rw [ofBody_body hview.reduce]
    exact hview
  rev := get?_rev_entriesOf ..

/-- What is stored under a name is a view of the kind. -/
theorem WrittenBodies.exists_view {name : String} {body : Value} (hbody : bodies.get? name = some body) :
    ∃ view, Proper view ∧ kind view ∧ view.name = .str name ∧ body = view.body := by
  obtain ⟨view, hview, hkind, heq⟩ := h.written _ (Entries.mem_of_get? hbody)
  rw [Prod.mk.injEq] at heq
  exact ⟨view, hview, hkind, heq.1.symm, heq.2⟩

section
variable {view : ViewDefinition} {name : String} (hname : view.name = .str name)
  (hlacks : bodies.get? name = none)
include hname hlacks

/-- With a view added the bodies are what they were, and one more at the end. -/
theorem WrittenBodies.bodiesWith_eq :
    bodiesWith bodies name view = bodies ++ [(view.name, view.body)] := by
  have hkept : bodies.map (fun b => (b.1, writtenBody b.2)) = bodies := by
    conv_rhs => rw [← List.map_id bodies]
    refine List.map_congr_left fun b hb => ?_
    obtain ⟨other, hother, -, rfl⟩ := h.written b hb
    exact congrArg (other.name, ·) hother.writtenBody_eq
  rw [Registry.bodiesWith_eq hlacks, hkept, hname]

/-- The next revision counts the view that was added. -/
theorem WrittenBodies.revisionOf_bodiesWith :
    revisionOf (Registry.bodiesWith bodies name view) = s!"{(bodies.length : Int) + 1}-mem" := by
  rw [h.bodiesWith_eq hname hlacks, revisionOf, List.length_append, List.length_singleton,
    Int.natCast_succ]

theorem WrittenBodies.bodiesWith (hview : Proper view) (hkind : kind view) :
    WrittenBodies kind (bodiesWith bodies name view) := by
  refine ⟨(sound_bodiesWith h.named (h.sound "").proper hview hname hlacks "" "").named, ?_⟩
  rw [h.bodiesWith_eq hname hlacks]
  intro b hb
  rcases List.mem_append.1 hb with hb | hb
  · exact h.written b hb
  · exact ⟨view, hview, hkind, List.mem_singleton.1 hb⟩

end

end

/-! ## Design documents in a store -/

/-- A view is stored under a name if and only if that is one of the names. -/
theorem isSome_viewIn_iff {document : Option Value} {name : String} :
    (viewIn document name).isSome = true ↔ .str name ∈ namesIn document := by
  rw [viewIn, Option.isSome_map, ← not_iff_not, Bool.not_eq_true, Option.isSome_eq_false_iff,
    Option.isNone_iff_eq_none, Entries.get?_eq_none_iff, namesIn, List.mem_map]
  constructor
  · rintro h ⟨b, hb, heq⟩
    exact h b hb heq
  · intro h b hb heq
    exact h ⟨b, hb, heq⟩

section
variable {kind : ViewDefinition → Prop} {designName : String} {document : Option Value}

theorem Written.settled (h : Written kind designName document) : Settled designName document := by
  cases h with
  | absent => exact .absent
  | stored bodies h => exact .stored _ _ _ (h.sound designName)

/-- What is known of the kind is known of all views. -/
theorem Written.mono {other : ViewDefinition → Prop} (h : Written kind designName document)
    (himp : ∀ view, kind view → other view) : Written other designName document := by
  cases h with
  | absent => exact .absent
  | stored bodies h =>
    refine .stored bodies ⟨h.named, fun b hb => ?_⟩
    obtain ⟨view, hview, hkind, heq⟩ := h.written b hb
    exact ⟨view, hview, himp view hkind, heq⟩

/-- A view that is stored under a name is of the kind. -/
theorem Written.of_viewIn (h : Written kind designName document) {name : String}
    {view : ViewDefinition} (hview : viewIn document name = some view) :
    Proper view ∧ kind view ∧ view.name = .str name := by
  cases h with
  | absent => cases hview
  | stored bodies h =>
    rw [viewIn, (h.sound designName).bodiesIn_eq, Option.map_eq_some_iff] at hview
    obtain ⟨body, hbody, rfl⟩ := hview
    obtain ⟨view, hview, hkind, hname, rfl⟩ := h.exists_view hbody
    have hread : (Views.ofBody (.str name, view.body)).2 = view := by
      rw [← hname, ofBody_body hview.reduce]
    rw [hread]
    exact ⟨hview, hkind, hname⟩

end

section
variable {kind : ViewDefinition → Prop} {designName : String} {m : Memory}
  (hwritten : Written kind designName (m.documents.get? (designId designName)))
include hwritten

/-- A view that is stored under a name is there to be asked for. -/
theorem Written.holds {name : String} {view : ViewDefinition}
    (hview : viewIn (m.documents.get? (designId designName)) name = some view) :
    Holds m designName view := by
  obtain ⟨hproper, -, hname⟩ := hwritten.of_viewIn hview
  generalize hdocument : m.documents.get? (designId designName) = document at hwritten hview
  cases hwritten with
  | absent => cases hview
  | stored bodies h =>
    rw [viewIn, (h.sound designName).bodiesIn_eq, Option.map_eq_some_iff] at hview
    obtain ⟨body, hbody, heq⟩ := hview
    obtain ⟨other, hother, -, hothername, rfl⟩ := h.exists_view hbody
    rw [← hothername, ofBody_body hother.reduce] at heq
    subst heq
    obtain ⟨entries, hentries, hmap, hreduce⟩ := other.exists_body
    exact ⟨name, _, bodies, entries, hname, hdocument, get?_views_entriesOf ..,
      hbody.trans (congrArg some hentries), hmap, hreduce⟩

/-- The answer to a request for a view is made from the view that is stored under the name. -/
theorem Written.view_eq {path name : String}
    (hpath : Memory.viewAt? path = some (designName, name)) (params : Entries) :
    m.view path params = match viewIn (m.documents.get? (designId designName)) name with
      | some view => Index.answer m.documents view.map view.reduce params
      | none => .error (.notFound (.view path)) := by
  cases hview : viewIn (m.documents.get? (designId designName)) name with
  | some view =>
    exact view_of_holds (hwritten.holds hview) (hwritten.of_viewIn hview).2.2 hpath params
  | none =>
    generalize hdocument : m.documents.get? (designId designName) = document at hwritten hview
    cases hwritten with
    | absent => exact view_of_absent hdocument hpath params
    | stored bodies h =>
      rw [viewIn, (h.sound designName).bodiesIn_eq, Option.map_eq_none_iff] at hview
      exact view_of_lacking hdocument (get?_views_entriesOf ..) hview hpath params

end

/-! ## Adding a view -/

/-- A view was added to a design document that only the registry has written, and nothing else was
changed. -/
structure Extends (kind : ViewDefinition → Prop) (designName : String) (m : Memory)
    (view : ViewDefinition) (after : Memory) : Prop where
  written : Written kind designName (after.documents.get? (designId designName))
  added : Added designName (m.documents.get? (designId designName)) view
    (after.documents.get? (designId designName))
  elsewhere : ∀ id, id ≠ designId designName → after.documents.get? id = m.documents.get? id
  indexes : SameIndexes m after

section
variable {kind : ViewDefinition → Prop} {designName : String} {m : Memory} {view : ViewDefinition}
  (hview : Proper view) (hkind : kind view) {name : String} (hname : view.name = .str name)
include hview hkind hname

/-- A design document that is saved with the view added extends what was there. -/
theorem WrittenBodies.extends {bodies : Entries} (h : WrittenBodies kind bodies)
    (hbodies : bodiesIn (m.documents.get? (designId designName)) = bodies)
    (hlacks : bodies.get? name = none)
    (hsnapshots : ∀ design, Snapshot designName (m.documents.get? (designId designName)) design →
      design.docId = .str (designId designName) ∧
        Precedes design.rev (revisionOf (Registry.bodiesWith bodies name view))) :
    Extends kind designName m view (afterSave m designName (Registry.bodiesWith bodies name view)
      (revisionOf (Registry.bodiesWith bodies name view))) := by
  refine ⟨?_, ?_, fun id hid => ?_, sameIndexes_set _⟩
  · rw [get?_afterSave]
    exact .stored _ (h.bodiesWith hname hlacks hview hkind)
  · rw [get?_afterSave]
    exact added_bodiesWith h.named (h.sound designName).proper hview hname hlacks hbodies hsnapshots
  · rw [afterSave, Entries.get?_set, if_neg (Ne.symm hid)]

/-- Where there is no design document a save writes one of the view alone. -/
theorem save_extends_absent (hdocument : m.documents.get? (designId designName) = none) :
    ∃ response after, m.answer (.save (DesignDocument.addView
        { docId := .str (designId designName) } view).toValue) = (.ok response, after) ∧
      Extends kind designName m view after := by
  have hsave := save_absent hdocument (Views.insert [] view.name view)
  have hbodies : WrittenBodies kind [] := ⟨.nil, by simp⟩
  have hempty : bodiesIn (m.documents.get? (designId designName)) = [] := by
    rw [hdocument]
    rfl
  have hextends := hbodies.extends hview hkind hname hempty rfl fun design hread => by
      rw [hdocument] at hread
      cases hread with
      | absent _ hdesign =>
        subst hdesign
        exact ⟨rfl, .inl rfl⟩
      | current es bodies rev h => cases h
      | stale es rev h => cases h
  rw [hbodies.revisionOf_bodiesWith hname rfl] at hextends
  rw [Views.toBodies_insert, hname] at hsave
  have hadded : DesignDocument.addView { docId := .str (designId designName) } view =
      { docId := .str (designId designName), views := Views.insert [] (.str name) view } := by
    rw [DesignDocument.addView, hname]
  rw [hadded]
  exact ⟨_, _, hsave, hextends⟩

/-- Where the design document lacks the view a save adds it, or changes nothing because there are too
many to be counted. -/
theorem save_extends_stored {bodies : Entries} (h : WrittenBodies kind bodies)
    (hdocument : m.documents.get? (designId designName) =
      some (.dict (entriesOf designName bodies (revisionOf bodies))))
    (hlacks : bodies.get? name = none) :
    (∃ response after, m.answer (.save ((designOf designName bodies
        (.str (revisionOf bodies))).addView view).toValue) = (.ok response, after) ∧
      Extends kind designName m view after) ∨
    10 ^ Text.maxDigits ≤ bodies.length ∧ ∃ e, m.answer (.save ((designOf designName bodies
        (.str (revisionOf bodies))).addView view).toValue) = (.error e, m) := by
  rcases save_current hname bodies hdocument (get?_rev_entriesOf ..) with
    ⟨n, response, hn, hsave⟩ | ⟨fault, e, hfault, hsave⟩
  · have hlength : n = bodies.length := Memory.eq_of_generation_printed (Int.natCast_nonneg _) hn
    have hrev := h.revisionOf_bodiesWith hname hlacks
    refine .inl ⟨response, _, hsave, ?_⟩
    rw [hlength, ← hrev]
    refine h.extends hview hkind hname ?_ hlacks fun design hread => ?_
    · rw [hdocument]
      exact (h.sound designName).bodiesIn_eq
    · rw [hdocument] at hread
      rw [hrev, ← hlength]
      exact hread.precedes_next (h.sound designName) hn
  · refine .inr ⟨?_, e, hsave⟩
    by_contra hlt
    rw [revisionOf, Memory.generation_printed_of_lt (Nat.lt_of_not_le hlt)] at hfault
    cases hfault

end

/-! ## Making sure of a view -/

/-- After a save making sure of a view is over. -/
theorem leads_saved {views : Views} {m : Memory} {post : Dialogue.Post Bool} {answer : Answer}
    (h : post [] (answer.map fun _ => true) m) : (saved views answer).Leads m post := by
  cases answer <;> exact h

/-- A save and what follows it keep what holds of the design document, if the save does. -/
theorem keepsFrom_saving {id : String} {I : Option Value → Prop} {document : Option Value}
    {r : Request} (views : Views)
    (h : ∀ m : Memory, m.documents.get? id = document → I ((m.answer r).2.documents.get? id)) :
    (Dialogue.ask r (saved views)).KeepsFrom id I document := fun m hm =>
  ⟨h m hm, by cases (m.answer r).1 <;> trivial⟩

section
variable {kind : ViewDefinition → Prop} {designName : String} {view : ViewDefinition}
  (hview : Proper view) (hkind : kind view) {name : String} (hname : view.name = .str name)
include hview hkind hname

/-- The design document as it was read does not have a view of the name: it is saved with the view, or
there are too many to be counted. -/
theorem Written.ensure_leads {m : Memory}
    (hwritten : Written kind designName (m.documents.get? (designId designName)))
    (hlacks : viewIn (m.documents.get? (designId designName)) name = none) :
    (ensure designName view).Leads m fun log result after => ∃ got document,
      (∃ response, log = [(.get (.str (designId designName)), got), (.save document, .ok response)] ∧
        result = .ok true ∧ Extends kind designName m view after) ∨
      ∃ e, log = [(.get (.str (designId designName)), got), (.save document, .error e)] ∧
        result = .error e ∧ after = m ∧
          10 ^ Text.maxDigits ≤ (namesIn (m.documents.get? (designId designName))).length := by
  rw [ensure_eq, Dialogue.Leads, answer_get]
  generalize hdocument : m.documents.get? (designId designName) = document at hwritten hlacks
  cases hwritten with
  | absent =>
    obtain ⟨response, after, hsave, hextends⟩ :=
      save_extends_absent hview hkind hname (m := m) hdocument
    show (writing _ view).Leads _ _
    rw [writing_eq hview, Dialogue.Leads, hsave]
    refine leads_saved ?_
    exact ⟨_, _, .inl ⟨response, rfl, rfl, hextends⟩⟩
  | stored bodies h =>
    rw [viewIn, (h.sound designName).bodiesIn_eq, Option.map_eq_none_iff] at hlacks
    have hread : settling designName view (found (.ok (.dict
        (entriesOf designName bodies (revisionOf bodies))))) =
          writing (designOf designName bodies (.str (revisionOf bodies))) view := by
      rw [(h.sound designName).found_eq, settling, hname, hasView_designOf, hlacks]
      rfl
    simp only [hread]
    rw [writing_eq hview, Dialogue.Leads]
    rcases save_extends_stored hview hkind hname h hdocument hlacks with
      ⟨response, after, hsave, hextends⟩ | ⟨hmany, e, hsave⟩
    · rw [hsave]
      refine leads_saved ?_
      exact ⟨_, _, .inl ⟨response, rfl, rfl, hextends⟩⟩
    · rw [hsave]
      refine leads_saved ?_
      refine ⟨_, _, .inr ⟨e, rfl, rfl, rfl, ?_⟩⟩
      rwa [namesIn, (h.sound designName).bodiesIn_eq, List.length_map]

/-- Whether the view is there or not, it is added or nothing is changed. -/
theorem Written.ensure_cases {m : Memory}
    (hwritten : Written kind designName (m.documents.get? (designId designName))) :
    (ensure designName view).Leads m fun _ _ after =>
      after = m ∨ Extends kind designName m view after := by
  cases hview' : viewIn (m.documents.get? (designId designName)) name with
  | none =>
    refine (hwritten.ensure_leads hview hkind hname hview').mono ?_
    rintro log result after ⟨got, document, ⟨response, -, -, hextends⟩ | ⟨e, -, -, hsame, -⟩⟩
    · exact .inr hextends
    · exact .inl hsame
  | some other =>
    rw [ensure_eq, Dialogue.Leads, answer_get]
    generalize hdocument : m.documents.get? (designId designName) = document at hwritten hview'
    cases hwritten with
    | absent => cases hview'
    | stored bodies h =>
      rw [viewIn, (h.sound designName).bodiesIn_eq, Option.map_eq_some_iff] at hview'
      obtain ⟨body, hbody, -⟩ := hview'
      have hread : settling designName view (found (.ok (.dict
          (entriesOf designName bodies (revisionOf bodies))))) =
            .learn ((designOf designName bodies (.str (revisionOf bodies))).views.map (·.1))
              (.done (.ok false)) := by
        rw [(h.sound designName).found_eq, settling, hname, hasView_designOf, hbody]
        rfl
      simp only [hread]
      exact .inl rfl

/-- Making sure of a view of the kind leaves no others in the design document. -/
theorem keeps_ensure :
    (ensure designName view).Keeps (designId designName) (Written kind designName) := by
  intro document hwritten
  rw [ensure_eq]
  intro m hm
  rw [answer_get, hm]
  refine ⟨hwritten, ?_⟩
  cases hwritten with
  | absent =>
    show (writing _ view).KeepsFrom _ _ none
    rw [writing_eq hview]
    refine keepsFrom_saving _ fun m hm => ?_
    obtain ⟨response, after, hsave, hextends⟩ := save_extends_absent hview hkind hname (m := m) hm
    rw [hsave]
    exact hextends.written
  | stored bodies h =>
    have hhash : (Value.str name).hashable = true := rfl
    simp only [(h.sound designName).found_eq, settling, hname, hhash, hasView_designOf]
    cases hbody : bodies.get? name with
    | some body => trivial
    | none =>
      rw [writing_eq hview]
      refine keepsFrom_saving _ fun m hm => ?_
      rcases save_extends_stored hview hkind hname h hm hbody with
        ⟨response, after, hsave, hextends⟩ | ⟨-, e, hsave⟩
      · rw [hsave]
        exact hextends.written
      · rw [hsave, hm]
        exact .stored bodies h

end

end Registry

/-! ## Queries -/

namespace CompiledQuery

open Registry

/-- How a query is settled where only the registry has written the design document: it is answered from
the view of its name that is stored there, or its own view is registered first; unless that is
refused because there are more than a revision can count. -/
inductive Settled (kind : ViewDefinition → Prop) (q : CompiledQuery) (s : Setting) (name : String)
    (m : Memory) : Dialogue.Post Value
  | held (view : ViewDefinition)
    (hview : viewIn (m.documents.get? (designId s.designName)) name = some view) :
    Settled kind q s name m
      [(q.viewRequest s, Index.answer m.documents view.map view.reduce q.params)]
      (Index.answer m.documents view.map view.reduce q.params) m
  | registered (hlacks : viewIn (m.documents.get? (designId s.designName)) name = none)
    (got : Answer) (document response : Value) (after : Memory)
    (hextends : Extends kind s.designName m q.view after) :
    Settled kind q s name m
      [(q.viewRequest s, .error (.notFound (.view (q.viewPath s.profile)))),
        (.get (.str (designId s.designName)), got), (.save document, .ok response),
        (q.viewRequest s, Index.answer m.documents q.mapSource q.reduceSource q.params)]
      (Index.answer m.documents q.mapSource q.reduceSource q.params) after
  | refused (hlacks : viewIn (m.documents.get? (designId s.designName)) name = none)
    (hmany : 10 ^ Text.maxDigits ≤ (namesIn (m.documents.get? (designId s.designName))).length)
    (got : Answer) (document : Value) (e : Fault) :
    Settled kind q s name m
      [(q.viewRequest s, .error (.notFound (.view (q.viewPath s.profile)))),
        (.get (.str (designId s.designName)), got), (.save document, .error e)] (.error e) m

variable {kind : ViewDefinition → Prop} {q : CompiledQuery} {s : Setting} {name : String} {m : Memory}

/-- Where only the registry has written the design document a query is settled. -/
theorem executeIndexed_leads
    (hwritten : Written kind s.designName (m.documents.get? (designId s.designName)))
    (hview : Proper q.view) (hkind : kind q.view) (hname : q.viewName = .str name)
    (hpath : Memory.viewAt? (q.viewPath s.profile) = some (s.designName, name)) :
    (q.executeIndexed s).Leads m (Settled kind q s name m) := by
  have hfirst := hwritten.view_eq hpath q.params
  rw [executeIndexed_eq, Dialogue.Leads]
  show (q.settling s (m.view (q.viewPath s.profile) q.params)).Leads m
    fun log => Settled kind q s name m ((q.viewRequest s, m.view (q.viewPath s.profile) q.params) :: log)
  cases hstored : viewIn (m.documents.get? (designId s.designName)) name with
  | some view =>
    rw [hstored] at hfirst
    simp only at hfirst
    have hnot : missed (Index.answer m.documents view.map view.reduce q.params) = false := by
      cases hanswer : Index.answer m.documents view.map view.reduce q.params with
      | ok response => rfl
      | error e => exact Index.noMiss_answer _ _ _ _ e hanswer
    rw [hfirst, settling_of_not_missed hnot]
    exact Dialogue.leads_done (.held view hstored)
  | none =>
    rw [hstored] at hfirst
    simp only at hfirst
    rw [hfirst]
    refine Dialogue.Leads.bind ((hwritten.ensure_leads hview hkind hname hstored).mono ?_)
    rintro log result after ⟨got, document, ⟨response, rfl, rfl, hextends⟩ | ⟨e, rfl, rfl, rfl, hmany⟩⟩
    · have hheld := hextends.added.held name hname
      have hanswer := hextends.written.view_eq hpath q.params
      rw [hheld] at hanswer
      simp only [hextends.indexes.answer_eq] at hanswer
      refine Dialogue.leads_request ?_
      have hrequest : after.answer (q.viewRequest s) =
          (after.view (q.viewPath s.profile) q.params, after) := rfl
      rw [hrequest, hanswer]
      exact .registered hstored got document response after hextends
    · exact .refused hstored hmany got document e

end CompiledQuery

end ViewFinder
