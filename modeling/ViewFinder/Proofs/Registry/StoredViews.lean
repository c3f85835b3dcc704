import ViewFinder.Proofs.DesignFrame
import ViewFinder.Proofs.Registry
import ViewFinder.Proofs.Text.Printed

/-!
# What a save does to the stored views

A registry saves the design document that it read with one view added. Others may have saved theirs
in between: the revision that it read is then one of an earlier generation (`Registry.Snapshot`), and
it stays so. A save that succeeds therefore adds one view to those that are stored and changes none
(`Registry.Added`); every other save changes nothing (`Registry.save_cases`).
-/

namespace ViewFinder.Registry

open Store

/-! ## Stored views -/

/-- The bodies of the views in a design document, none if it is absent. -/
def bodiesIn : Option Value → Entries
  | some (.dict es) =>
    match (Entries.getD es "views").orElse (.dict []) with
    | .dict bodies => bodies
    | _ => []
  | _ => []

/-- The names of the views in a design document. -/
def namesIn (document : Option Value) : List Value := (bodiesIn document).map (·.1)

/-- The view of a name in a design document. -/
def viewIn (document : Option Value) (name : String) : Option ViewDefinition :=
  ((bodiesIn document).get? name).map fun body => (Views.ofBody (.str name, body)).2

/-- A view with a name, a map function, and no reduce function or one. -/
structure Proper (view : ViewDefinition) : Prop where
  name : ∃ name, view.name = .str name
  map : view.map.truthy = true
  reduce : view.reduce = .null ∨ view.reduce.truthy = true

/-- A proper view is written into a design document by saving that. -/
theorem writing_eq {view : ViewDefinition} (hview : Proper view) (design : DesignDocument) :
    writing design view = .ask (.save (design.addView view).toValue)
      (saved (design.addView view).views) := by
  obtain ⟨name, hname⟩ := hview.name
  rw [writing, if_pos (by rw [hname]; rfl)]

/-- A design document of proper views under distinct names. -/
structure Sound (designName : String) (es bodies : Entries) (rev : String) : Prop where
  id : es.get? "_id" = some (.str (designId designName))
  views : (es.getD "views").orElse (.dict []) = .dict bodies
  named : bodies.Named
  proper : ∀ b ∈ bodies, Proper (Views.ofBody b).2
  rev : es.get? "_rev" = some (.str rev)

/-- A design document that is absent or sound. -/
inductive Settled (designName : String) : Option Value → Prop
  | absent : Settled designName none
  | stored (es bodies : Entries) (rev : String) (h : Sound designName es bodies rev) :
    Settled designName (some (.dict es))

section
variable {designName : String} {es bodies : Entries} {rev : String}
  (h : Sound designName es bodies rev)
include h

theorem Sound.bodiesIn_eq : bodiesIn (some (.dict es)) = bodies := by rw [bodiesIn, h.views]

theorem Sound.exists_map : ∀ b ∈ bodies, ∃ body : Entries, b.2 = .dict body ∧
    (body.getD "map").truthy = true := by
  rintro ⟨name, body⟩ hb
  have hmap := (h.proper _ hb).map
  cases body with
  | dict body => exact ⟨body, rfl, hmap⟩
  | _ => cases hmap

/-- The design document that is read off a sound one. -/
theorem Sound.ofValue_eq :
    DesignDocument.ofValue (.dict es) = .ok (designOf designName bodies (.str rev)) := by
  have hrev : es.getD "_rev" = .str rev := by rw [Entries.getD, h.rev]; rfl
  rw [ofValue_dict h.id h.views h.exists_map, hrev]

theorem Sound.found_eq :
    found (.ok (.dict es)) = .ok (some (designOf designName bodies (.str rev))) := by
  rw [found, h.ofValue_eq]
  rfl

end

/-- The names of the views are distinct. -/
theorem Settled.nodup {designName : String} {document : Option Value}
    (h : Settled designName document) : (namesIn document).Nodup := by
  cases h with
  | absent => exact List.nodup_nil
  | stored es bodies rev h =>
    rw [namesIn, h.bodiesIn_eq]
    exact h.named.nodup

/-! ## Views that are written and read back -/

/-- A view is read back from its own body. -/
theorem ofBody_body {view : ViewDefinition} (h : view.reduce = .null ∨ view.reduce.truthy = true) :
    (Views.ofBody (view.name, view.body)).2 = view := by
  obtain ⟨name, map, reduce⟩ := view
  rcases h with rfl | htruthy
  · simp [ViewDefinition.body, Views.ofBody, Entries.getD, Value.truthy]
  · simp only at htruthy
    simp [ViewDefinition.body, Views.ofBody, Entries.getD, htruthy]

/-- What is written back of a body describes the same view. -/
theorem ofBody_writtenBody {name body : Value} (h : Proper (Views.ofBody (name, body)).2) :
    (Views.ofBody (name, writtenBody body)).2 = (Views.ofBody (name, body)).2 := by
  have hname : (Views.ofBody (name, body)).2.name = name := by cases body <;> rfl
  have hbody : (Views.ofBody (name, body)).2.body = writtenBody body := by cases body <;> rfl
  have hread := ofBody_body h.reduce
  rwa [hname, hbody] at hread

/-- The bodies with a view added are those that are written back, and the new one at the end. -/
theorem bodiesWith_eq {bodies : Entries} {name : String} (h : bodies.get? name = none)
    (view : ViewDefinition) : bodiesWith bodies name view =
      bodies.map (fun b => (b.1, writtenBody b.2)) ++ [(.str name, view.body)] := by
  have hnone : Entries.get? (Views.toBodies (bodies.map Views.ofBody)) name = none := by
    rw [get?_toBodies, h]
    rfl
  have hwritten : Views.toBodies (bodies.map Views.ofBody) =
      bodies.map fun b => (b.1, writtenBody b.2) := by
    rw [Views.toBodies, List.map_map]
    exact List.map_congr_left fun b _ => by obtain ⟨n, v⟩ := b; cases v <;> rfl
  rw [bodiesWith, Entries.set_of_get?_eq_none hnone, hwritten]

/-! ## Revisions -/

/-- A revision that was read is null, or one of an earlier generation than the current one. -/
def Precedes (old : Value) (rev : String) : Prop :=
  old = .null ∨ ∃ (r : String) (k : Int), old = .str r ∧ Memory.generation (.str r) = .ok k ∧
    ∀ n, Memory.generation (.str rev) = .ok n → k < n

section
variable {old : Value} {rev : String} {n : Int} (hn : Memory.generation (.str rev) = .ok n)
include hn

/-- The current revision is of an earlier generation than the next one. -/
theorem precedes_next : Precedes (.str rev) s!"{n + 1}-mem" := by
  refine .inr ⟨rev, n, rfl, hn, fun k hk => ?_⟩
  have hpos := Memory.nonneg_of_generation hn
  rw [Memory.eq_of_generation_printed (by omega) hk]
  omega

theorem Precedes.next (h : Precedes old rev) : Precedes old s!"{n + 1}-mem" := by
  rcases h with rfl | ⟨r, k, rfl, hk, hlt⟩
  · exact .inl rfl
  · refine .inr ⟨r, k, rfl, hk, fun l hl => ?_⟩
    have hpos := Memory.nonneg_of_generation hn
    have hkn := hlt n hn
    rw [Memory.eq_of_generation_printed (by omega) hl]
    omega

end

/-- A revision of an earlier generation is not the current one. -/
theorem Precedes.equal_eq_false {old : Value} {rev : String} (h : Precedes old rev) :
    (Value.str rev).equal (if old.truthy then old else .null) = false := by
  rcases h with rfl | ⟨r, k, rfl, hk, hlt⟩
  · simp [Value.equal, Value.agree]
  · have htruthy : (Value.str r).truthy = true := by simp [Value.truthy, isEmpty_of_generation hk]
    have hne : rev ≠ r := by
      rintro rfl
      exact absurd (hlt k hk) (by omega)
    rw [if_pos htruthy]
    simpa [Value.equal, Value.agree] using hne

/-- A design document of an earlier revision is refused. -/
theorem save_of_precedes {m : Memory} {designName : String} {es : Entries} {rev : String}
    (hdocument : m.documents.get? (designId designName) = some (.dict es))
    (hrev : es.get? "_rev" = some (.str rev)) {design : DesignDocument}
    (hid : design.docId = .str (designId designName)) (hold : Precedes design.rev rev) :
    m.answer (.save design.toValue) =
      (.error (.conflict (.document (designId designName))), m) := by
  rw [save_present hdocument hrev design hid, hold.equal_eq_false, if_neg (by decide)]

/-! ## Saves -/

/-- A design document that was read: it is the stored one, or its revision precedes that of the stored
one. -/
inductive Snapshot (designName : String) (document : Option Value) (design : DesignDocument) : Prop
  | absent (hdocument : document = none)
    (hdesign : design = { docId := .str (designId designName) })
  | current (es bodies : Entries) (rev : String) (hdocument : document = some (.dict es))
    (h : Sound designName es bodies rev) (hdesign : design = designOf designName bodies (.str rev))
  | stale (es : Entries) (rev : String) (hdocument : document = some (.dict es))
    (hrev : es.get? "_rev" = some (.str rev)) (hid : design.docId = .str (designId designName))
    (hold : Precedes design.rev rev)

/-- One view was added to a design document, and the others are as they were. What was read before is
of an earlier revision now. -/
structure Added (designName : String) (document : Option Value) (view : ViewDefinition)
    (after : Option Value) : Prop where
  settled : Settled designName after
  names : namesIn after = namesIn document ++ [view.name]
  lacking : ∀ name, view.name = .str name → viewIn document name = none
  held : ∀ name, view.name = .str name → viewIn after name = some view
  others : ∀ name, view.name ≠ .str name → viewIn after name = viewIn document name
  snapshots : ∀ design, Snapshot designName document design → Snapshot designName after design

section
variable {designName : String} {bodies : Entries} {view : ViewDefinition} {name : String}
  (hnamed : bodies.Named) (hproper : ∀ b ∈ bodies, Proper (Views.ofBody b).2)
  (hview : Proper view) (hname : view.name = .str name) (hlacks : bodies.get? name = none)
include hnamed hproper hview hname hlacks

/-- Proper views, written back with a proper one added, are a sound design document. -/
theorem sound_bodiesWith (designName rev : String) :
    Sound designName (entriesOf designName (bodiesWith bodies name view) rev)
      (bodiesWith bodies name view) rev := by
  refine ⟨by simp [entriesOf], ?_, ?_, fun b hb => ?_, get?_rev_entriesOf ..⟩
  · rw [Entries.getD, get?_views_entriesOf, Option.getD_some, Value.orElse_dict]
  · rw [bodiesWith]
    refine Entries.Named.set (hnamed.of_keys ?_) name view.body
    rw [Views.toBodies, List.map_map, List.map_map]
    exact List.map_congr_left fun b _ => by obtain ⟨n, v⟩ := b; cases v <;> rfl
  · rw [bodiesWith_eq hlacks, List.mem_append, List.mem_map, List.mem_singleton] at hb
    rcases hb with ⟨b, hb, rfl⟩ | rfl
    · rw [ofBody_writtenBody (hproper b hb)]
      exact hproper b hb
    · rw [← hname, ofBody_body hview.reduce]
      exact hview

/-- Writing the bodies back with a view adds the view, if what was read before is of an earlier
revision than is written. -/
theorem added_bodiesWith {document : Option Value} (hbodies : bodiesIn document = bodies)
    {rev : String} (hsnapshots : ∀ design, Snapshot designName document design →
      design.docId = .str (designId designName) ∧ Precedes design.rev rev) :
    Added designName document view
      (some (.dict (entriesOf designName (bodiesWith bodies name view) rev))) := by
  have hsound := sound_bodiesWith hnamed hproper hview hname hlacks designName rev
  have hget (other : String) : (bodiesWith bodies name view).get? other =
      if name = other then some view.body else (bodies.get? other).map writtenBody := by
    rw [bodiesWith, Entries.get?_set, get?_toBodies]
  have hafter := hsound.bodiesIn_eq
  have heq {other : String} (h : view.name = .str other) : name = other := by
    simpa [hname] using h
  refine ⟨.stored _ _ _ hsound, ?_, fun other h => ?_, fun other h => ?_, fun other h => ?_,
    fun design hdesign => ?_⟩
  · rw [namesIn, namesIn, hafter, hbodies, bodiesWith_eq hlacks, hname, List.map_append,
      List.map_map]
    rfl
  · rw [viewIn, hbodies, ← heq h, hlacks]
    rfl
  · rw [viewIn, hafter, hget, if_pos (heq h), Option.map_some, ← h, ofBody_body hview.reduce]
  · have hne : name ≠ other := fun hn => h (by rw [hname, hn])
    rw [viewIn, viewIn, hafter, hbodies, hget, if_neg hne, Option.map_map]
    cases hbody : bodies.get? other with
    | none => rfl
    | some body =>
      exact congrArg some (ofBody_writtenBody (hproper _ (Entries.mem_of_get? hbody)))
  · obtain ⟨hid, hold⟩ := hsnapshots design hdesign
    exact .stale _ rev rfl hsound.rev hid hold

end

/-- What was read of a sound design document precedes its next revision. -/
theorem Snapshot.precedes_next {designName : String} {es bodies : Entries} {rev : String} {n : Int}
    (h : Sound designName es bodies rev) (hn : Memory.generation (.str rev) = .ok n)
    {design : DesignDocument} (hread : Snapshot designName (some (.dict es)) design) :
    design.docId = .str (designId designName) ∧ Precedes design.rev s!"{n + 1}-mem" := by
  cases hread with
  | absent h => cases h
  | current es' bodies' rev' hdocument h' hdesign =>
    cases hdocument
    subst hdesign
    have hrev := h'.rev
    rw [h.rev] at hrev
    cases hrev
    exact ⟨rfl, Registry.precedes_next hn⟩
  | stale es' rev' hdocument hrev hid hold =>
    cases hdocument
    rw [h.rev] at hrev
    cases hrev
    exact ⟨hid, hold.next hn⟩

section
variable {m : Memory} {designName : String} {view : ViewDefinition} {name : String}
  (hview : Proper view) (hname : view.name = .str name)
include hview hname

/-- Where there is no design document a save adds its view. -/
theorem save_cases_absent (hdocument : m.documents.get? (designId designName) = none) :
    ∃ response after, m.answer (.save (DesignDocument.addView
        { docId := .str (designId designName) } view).toValue) = (.ok response, after) ∧
      Added designName none view (after.documents.get? (designId designName)) := by
  refine ⟨_, _, save_absent hdocument _, ?_⟩
  rw [Views.toBodies_insert, hname, get?_afterSave]
  refine added_bodiesWith .nil (by simp) hview hname rfl rfl fun design hread => ?_
  cases hread with
  | absent _ hdesign =>
    subst hdesign
    exact ⟨rfl, .inl rfl⟩
  | current es bodies rev h => cases h
  | stale es rev h => cases h

omit hview in
/-- Where the design document is as it was read, a save writes it with the view as the next revision, if
the revision counts. -/
theorem save_current {es : Entries} (bodies : Entries) {rev : String}
    (hdocument : m.documents.get? (designId designName) = some (.dict es))
    (hrev : es.get? "_rev" = some (.str rev)) :
    (∃ n response, Memory.generation (.str rev) = .ok n ∧ m.answer (.save
        ((designOf designName bodies (.str rev)).addView view).toValue) =
      (.ok response, afterSave m designName (bodiesWith bodies name view) s!"{n + 1}-mem")) ∨
    ∃ fault e, Memory.generation (.str rev) = .error fault ∧ m.answer (.save
        ((designOf designName bodies (.str rev)).addView view).toValue) = (.error e, m) := by
  rw [save_present hdocument hrev ((designOf designName bodies (.str rev)).addView view) rfl]
  cases hn : Memory.generation (.str rev) with
  | ok n =>
    have htruthy : (Value.str rev).truthy = true := by
      simp [Value.truthy, isEmpty_of_generation hn]
    have hequal : (Value.str rev).equal (.str rev) = true := by simp [Value.equal, Value.agree]
    have hwith : ((designOf designName bodies (.str rev)).addView view).views.toBodies =
        bodiesWith bodies name view := by
      rw [bodiesWith, Entries.set, ← hname]
      exact Views.toBodies_insert ..
    have hold : ((designOf designName bodies (.str rev)).addView view).rev = .str rev := rfl
    rw [hold, if_pos htruthy, if_pos hequal, hwith]
    exact .inl ⟨n, _, rfl, rfl⟩
  | error fault =>
    by_cases hequal : (Value.str rev).equal
        (if ((designOf designName bodies (.str rev)).addView view).rev.truthy then
          ((designOf designName bodies (.str rev)).addView view).rev else .null) = true
    · rw [if_pos hequal]
      exact .inr ⟨fault, fault, rfl, rfl⟩
    · rw [if_neg hequal]
      exact .inr ⟨fault, _, rfl, rfl⟩

/-- Where the design document is as it was read, a save adds its view, or changes nothing. -/
theorem save_cases_current {es bodies : Entries} {rev : String}
    (hdocument : m.documents.get? (designId designName) = some (.dict es))
    (h : Sound designName es bodies rev) (hlacks : bodies.get? name = none) :
    (∃ response after, m.answer (.save
        ((designOf designName bodies (.str rev)).addView view).toValue) = (.ok response, after) ∧
      Added designName (some (.dict es)) view (after.documents.get? (designId designName))) ∨
    ∃ e, m.answer (.save ((designOf designName bodies (.str rev)).addView view).toValue) =
      (.error e, m) := by
  rcases save_current hname bodies hdocument h.rev with ⟨n, response, hn, hsave⟩ | ⟨fault, e, -, hsave⟩
  · refine .inl ⟨response, _, hsave, ?_⟩
    rw [get?_afterSave]
    exact added_bodiesWith h.named h.proper hview hname hlacks h.bodiesIn_eq fun design hread =>
      hread.precedes_next h hn
  · exact .inr ⟨e, hsave⟩

end

/-- Saving what was read with a view added that it lacks adds the view to the stored ones, or changes
nothing. -/
theorem save_cases {m : Memory} {designName : String} {design : DesignDocument}
    {view : ViewDefinition}
    (hsnapshot : Snapshot designName (m.documents.get? (designId designName)) design)
    (hview : Proper view) (hlacks : design.hasView view.name = false) :
    (∃ response after, m.answer (.save (design.addView view).toValue) = (.ok response, after) ∧
      Added designName (m.documents.get? (designId designName)) view
        (after.documents.get? (designId designName))) ∨
    ∃ e, m.answer (.save (design.addView view).toValue) = (.error e, m) := by
  obtain ⟨name, hname⟩ := hview.name
  cases hsnapshot with
  | absent hdocument hdesign =>
    subst hdesign
    rw [hdocument]
    exact .inl (save_cases_absent hview hname hdocument)
  | current es bodies rev hdocument h hdesign =>
    subst hdesign
    rw [hname, hasView_designOf] at hlacks
    rw [hdocument]
    exact save_cases_current hview hname hdocument h (by simpa using hlacks)
  | stale es rev hdocument hrev hid hold =>
    have hid' : (design.addView view).docId = .str (designId designName) := hid
    exact .inr ⟨_, save_of_precedes hdocument hrev hid' hold⟩

end ViewFinder.Registry
