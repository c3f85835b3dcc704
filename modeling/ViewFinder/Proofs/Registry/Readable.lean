import ViewFinder.Proofs.Registry.WrittenViews

/-!
# One registration after the other

Each registration reads the design document anew, and every view that it reads must have a map
function; the view that it writes need not. So a view with an empty map source is written like any
other, and from then on the design document can neither be read nor written
(`Registration.ensure_ends`, one registration; `Registration.design_afterAll`, any number of them). It
stays readable if and only if every view that is registered has a map function, and revisions can count
them all (`Registration.staysReadable_iff`).
-/

namespace ViewFinder

open Store Registry

/-- What a registration asks for: a view of a name, with the source of its map function and perhaps that
of a reduce function. -/
structure Registration where
  name : String
  map : String
  reduce : Option String := none

namespace Registration

/-- The view that is asked for. -/
def view (r : Registration) : ViewDefinition :=
  ⟨.str r.name, .str r.map, (r.reduce.map .str).getD .null⟩

/-- The view as it is read back: an empty reduce source is none. -/
def kept (r : Registration) : ViewDefinition :=
  { r.view with reduce := if r.view.reduce.truthy then r.view.reduce else .null }

/-- The registrations that found their name unused, each name's first. -/
def firsts (rs : List Registration) : List Registration :=
  rs.foldl (fun known r => if r.name ∈ known.map (·.name) then known else known ++ [r]) []

/-- The first of some registrations that has no map function. -/
def unmapped? (known : List Registration) : Option Registration := known.find? fun r => r.map == ""

/-- What a registration comes to where the views of others are stored. -/
def answered (known : List Registration) (r : Registration) : Except Fault Bool :=
  match unmapped? known with
  | some bad => .error (.refused (.viewWithoutMap bad.name))
  | none =>
    if r.name ∈ known.map (·.name) then .ok false
    else if known.length < 10 ^ Text.maxDigits then .ok true
    else .error (.unreadable (.tooManyDigits (Nat.toDigits 10 known.length).length))

/-- The registrations whose views are stored after one more. -/
def join (known : List Registration) (r : Registration) : List Registration :=
  match answered known r with
  | .ok true => known ++ [r]
  | _ => known

/-- The bodies of the views. -/
def bodies (known : List Registration) : Entries := known.map fun r => (.str r.name, r.view.body)

/-- The design document that holds the views, none if there are no views. -/
def document (designName : String) : List Registration → Option Value
  | [] => none
  | r :: rest => some (.dict
      (entriesOf designName (bodies (r :: rest)) (revisionOf (bodies (r :: rest)))))

theorem document_append (designName : String) (known : List Registration) (r : Registration) :
    document designName (known ++ [r]) = some (.dict (entriesOf designName (bodies (known ++ [r]))
      (revisionOf (bodies (known ++ [r]))))) := by
  cases known <;> rfl

/-- What is read off the design document that holds the views. -/
def loaded (designName : String) : List Registration → Except Fault (Option DesignDocument)
  | [] => .ok none
  | r :: rest =>
    match unmapped? (r :: rest) with
    | some bad => .error (.refused (.viewWithoutMap bad.name))
    | none => .ok (some {
        docId := .str (designId designName)
        views := (r :: rest).map fun r => (.str r.name, r.kept)
        rev := .str (revisionOf (bodies (r :: rest))) })

section
variable {known : List Registration} {r : Registration}

theorem answered_of_unmapped {bad : Registration} (h : unmapped? known = some bad) :
    answered known r = .error (.refused (.viewWithoutMap bad.name)) := by rw [answered, h]

theorem answered_of_mem (hmapped : unmapped? known = none) (h : r.name ∈ known.map (·.name)) :
    answered known r = .ok false := by
  rw [answered, hmapped]
  exact if_pos h

theorem answered_of_not_mem (hmapped : unmapped? known = none) (h : r.name ∉ known.map (·.name)) :
    answered known r = if known.length < 10 ^ Text.maxDigits then .ok true
      else .error (.unreadable (.tooManyDigits (Nat.toDigits 10 known.length).length)) := by
  rw [answered, hmapped]
  exact if_neg h

theorem answered_nil (r : Registration) : answered [] r = .ok true :=
  (answered_of_not_mem rfl List.not_mem_nil).trans (if_pos (Nat.pow_pos (by decide)))

theorem join_of_ok (h : answered known r = .ok true) : join known r = known ++ [r] := by rw [join, h]

theorem join_of_ne (h : answered known r ≠ .ok true) : join known r = known := by
  rw [join]
  split
  · exact absurd ‹_› h
  · rfl

theorem join_of_false (h : answered known r = .ok false) : join known r = known := by rw [join, h]

theorem join_of_error {fault : Fault} (h : answered known r = .error fault) : join known r = known := by
  rw [join, h]

end

/-! ## Views that are written and read back -/

theorem body_kept (r : Registration) : r.kept.body = r.view.body := by
  rw [ViewDefinition.body, ViewDefinition.body, kept]
  cases h : r.view.reduce.truthy with
  | true => simp [h]
  | false => simp [Value.truthy]

theorem reduce_kept (r : Registration) : r.kept.reduce = .null ∨ r.kept.reduce.truthy = true := by
  rw [kept]
  cases h : r.view.reduce.truthy with
  | true => exact .inr h
  | false => exact .inl rfl

theorem ofBody_body (r : Registration) :
    Views.ofBody (.str r.name, r.view.body) = (.str r.name, r.kept) := by
  have hread := Registry.ofBody_body r.reduce_kept
  rw [body_kept] at hread
  exact Prod.ext rfl hread

/-- A body is read if it has a map function. -/
theorem viewDefinition_ofBody (r : Registration) : ViewDefinition.ofBody (.str r.name) r.view.body =
    if r.map = "" then .error (.refused (.viewWithoutMap r.name)) else .ok r.kept := by
  have hmap : r.view.body.member "map" = .ok (.str r.map) := by
    simp [ViewDefinition.body, view, Value.member, Value.entries, Entries.getD, Except.map]
  have hreduce : r.view.body.member "reduce" = .ok r.kept.reduce := by
    cases h : r.view.reduce.truthy <;>
      simp [ViewDefinition.body, kept, Value.member, Value.entries, Entries.getD, Except.map, h]
  rw [ViewDefinition.ofBody, hmap, hreduce]
  by_cases h : r.map = ""
  · rw [if_pos h, h]
    rfl
  · have htruthy : (Value.str r.map).truthy = true := by simpa [Value.truthy] using h
    rw [if_neg h]
    simp only [bind, Except.bind, htruthy, if_true]
    rfl

/-- The bodies are read if all of them have a map function. -/
theorem ofBodies_bodies (known : List Registration) : Views.ofBodies (bodies known) =
    match unmapped? known with
    | some bad => .error (.refused (.viewWithoutMap bad.name))
    | none => .ok (known.map fun r => (.str r.name, r.kept)) := by
  induction known with
  | nil => rfl
  | cons r known ih =>
    have hcons : unmapped? (r :: known) = if r.map = "" then some r else unmapped? known := by
      rw [unmapped?, List.find?_cons]
      by_cases h : r.map = ""
      · rw [if_pos h, beq_iff_eq.2 h]
      · rw [if_neg h, beq_eq_false_iff_ne.2 h, unmapped?]
    rw [hcons, bodies, List.map_cons, Views.ofBodies, viewDefinition_ofBody, ← bodies, ih]
    by_cases h : r.map = ""
    · rw [if_pos h, if_pos h]
      rfl
    · rw [if_neg h, if_neg h]
      cases unmapped? known <;> rfl

/-- So is the design document that they are in. -/
theorem ofValue_entriesOf (designName rev : String) (known : List Registration) :
    DesignDocument.ofValue (.dict (entriesOf designName (bodies known) rev)) =
      match unmapped? known with
      | some bad => .error (.refused (.viewWithoutMap bad.name))
      | none => .ok {
          docId := .str (designId designName)
          views := known.map fun r => (.str r.name, r.kept)
          rev := .str rev } := by
  have hid : (entriesOf designName (bodies known) rev).get? "_id" =
      some (.str (designId designName)) := by simp [entriesOf]
  simp only [DesignDocument.ofValue, Value.member, Value.required, Value.entries, Except.map, hid,
    Entries.getD, get?_views_entriesOf, get?_rev_entriesOf, Option.getD_some, Value.orElse_dict,
    ofBodies_bodies, bind, Except.bind]
  cases unmapped? known <;> rfl

/-- There is a body under a name if and only if that is one of the names. -/
theorem isSome_get?_bodies {known : List Registration} {name : String} :
    ((bodies known).get? name).isSome = true ↔ name ∈ known.map (·.name) := by
  rw [← not_iff_not, Bool.not_eq_true, Option.isSome_eq_false_iff, Option.isNone_iff_eq_none,
    Entries.get?_eq_none_iff, bodies, List.forall_mem_map, List.mem_map]
  constructor
  · rintro h ⟨r, hr, rfl⟩
    exact h r hr rfl
  · intro h r hr heq
    exact h ⟨r, hr, Value.str.inj heq⟩

section
variable {known : List Registration} (hdistinct : (known.map (·.name)).Nodup)
include hdistinct

theorem named_bodies : (bodies known).Named := by
  refine ⟨List.forall_mem_map.2 fun r _ => ⟨r.name, rfl⟩, ?_⟩
  rw [bodies, List.map_map]
  have hinjective : Function.Injective Value.str := fun _ _ => Value.str.inj
  simpa [Function.comp_def] using hdistinct.map hinjective

/-- If all of them have a map function the bodies are of the kind that a registry writes. -/
theorem writtenBodies_bodies (hmapped : unmapped? known = none) :
    WrittenBodies (fun _ => True) (bodies known) := by
  refine ⟨named_bodies hdistinct, List.forall_mem_map.2 fun r hr => ⟨r.kept, ?_, trivial, ?_⟩⟩
  · have hmap : r.map ≠ "" := by simpa using List.find?_eq_none.1 hmapped r hr
    exact ⟨⟨r.name, rfl⟩, by simpa [kept, view, Value.truthy] using hmap, r.reduce_kept⟩
  · rw [body_kept]
    rfl

end

/-! ## One registration -/

section
variable {m : Memory} {designName : String} {known : List Registration}
  (hknown : m.design designName = document designName known)
include hknown

/-- What is found when the design document is asked for. -/
theorem found_answer :
    found (m.answer (.get (.str (designId designName)))).1 = loaded designName known := by
  rw [answer_get, ← Memory.design, hknown]
  cases known with
  | nil => rfl
  | cons r rest =>
    show found (.ok (.dict (entriesOf designName (bodies (r :: rest)) _))) = _
    rw [found, ofValue_entriesOf, loaded]
    cases unmapped? (r :: rest) <;> rfl

theorem load_ends : (load designName).Ends m (loaded designName known) m := by
  rw [load_eq, ← found_answer hknown]
  refine Dialogue.Ends.ask ?_
  rw [answer_get]
  exact Dialogue.ends_done _

omit hknown in
theorem loaded_eq (hne : known ≠ []) (hmapped : unmapped? known = none) : loaded designName known =
    .ok (some (designOf designName (bodies known) (.str (revisionOf (bodies known))))) := by
  have hviews : (bodies known).map Views.ofBody = known.map fun r => (.str r.name, r.kept) := by
    rw [bodies, List.map_map]
    exact List.map_congr_left fun r _ => r.ofBody_body
  cases known with
  | nil => exact absurd rfl hne
  | cons r rest =>
    rw [loaded, hmapped, designOf, hviews]

/-- A view that is new is saved with the others, if the revision can be read that is to be counted up. -/
theorem answer_save_new (hdistinct : (known.map (·.name)).Nodup) (hne : known ≠ [])
    (hmapped : unmapped? known = none) {r : Registration} (hnew : r.name ∉ known.map (·.name)) :
    m.answer (.save ((designOf designName (bodies known)
        (.str (revisionOf (bodies known)))).addView r.view).toValue) =
      if known.length < 10 ^ Text.maxDigits then
        (.ok (.dict [(.str "ok", .bool true), (.str "id", .str (designId designName)),
            (.str "rev", .str (revisionOf (bodies (known ++ [r]))))]),
          afterSave m designName (bodies (known ++ [r])) (revisionOf (bodies (known ++ [r]))))
      else (.error (.unreadable (.tooManyDigits (Nat.toDigits 10 known.length).length)), m) := by
  have hlacks : (bodies known).get? r.name = none := by
    rw [← isSome_get?_bodies, Bool.not_eq_true, Option.isSome_eq_false_iff] at hnew
    exact Option.isNone_iff_eq_none.1 hnew
  have hwritten := writtenBodies_bodies hdistinct hmapped
  have hdocument : m.documents.get? (designId designName) =
      some (.dict (entriesOf designName (bodies known) (revisionOf (bodies known)))) := by
    rw [← Memory.design, hknown]
    cases known with
    | nil => exact absurd rfl hne
    | cons r rest => rfl
  have hbodies : ((designOf designName (bodies known)
      (.str (revisionOf (bodies known)))).addView r.view).views.toBodies = bodies (known ++ [r]) := by
    have hwith : bodies (known ++ [r]) = bodies known ++ [(.str r.name, r.view.body)] := List.map_append
    rw [hwith]
    exact (Views.toBodies_insert ..).trans (hwritten.bodiesWith_eq rfl hlacks)
  have hlength : (bodies known).length = known.length := List.length_map ..
  have hrev : revisionOf (bodies (known ++ [r])) = s!"{(known.length : Int) + 1}-mem" := by
    rw [revisionOf, bodies, List.length_map, List.length_append, List.length_singleton,
      Int.natCast_succ]
  have htruthy : (Value.str (revisionOf (bodies known))).truthy = true := by
    simp [Value.truthy, revisionOf, toString]
  have hold : ((designOf designName (bodies known)
      (.str (revisionOf (bodies known)))).addView r.view).rev = .str (revisionOf (bodies known)) := rfl
  rw [save_present hdocument (get?_rev_entriesOf ..) _ rfl, hold, if_pos htruthy,
    if_pos (by simp [Value.equal, Value.agree]), hbodies, revisionOf, Memory.generation_printed, hlength,
    Text.readInteger_toDigits, hrev]
  have hdigits : (Nat.toDigits 10 known.length).length ≤ Text.maxDigits ↔
      known.length < 10 ^ Text.maxDigits := Nat.length_toDigits_le_iff (by decide) (by decide)
  by_cases hfew : known.length < 10 ^ Text.maxDigits
  · rw [if_neg (Nat.not_lt.2 (hdigits.2 hfew)), if_pos hfew]
  · rw [if_pos (Nat.lt_of_not_le fun h => hfew (hdigits.1 h)), if_neg hfew]

/-- What comes to be with a design document that cannot be read. -/
theorem settling_ends_of_unmapped {bad : Registration} (hmapped : unmapped? known = some bad)
    (r : Registration) : ∃ after,
      (settling designName r.view (loaded designName known)).Ends m (answered known r) after ∧
        after.design designName = document designName (join known r) := by
  have hanswered := answered_of_unmapped (r := r) hmapped
  have hloaded : loaded designName known = .error (.refused (.viewWithoutMap bad.name)) := by
    cases known with
    | nil => cases hmapped
    | cons other rest => rw [loaded, hmapped]
  refine ⟨m, ?_, ?_⟩
  · rw [hloaded, hanswered]
    exact Dialogue.ends_done _
  · rw [join_of_error hanswered, hknown]

/-- What comes to be with a design document that can be read. -/
theorem settling_ends_of_mapped (hdistinct : (known.map (·.name)).Nodup) (hne : known ≠ [])
    (hmapped : unmapped? known = none) (r : Registration) : ∃ after,
      (settling designName r.view (loaded designName known)).Ends m (answered known r) after ∧
        after.design designName = document designName (join known r) := by
  have hview : (designOf designName (bodies known) (.str (revisionOf (bodies known)))).hasView
      r.view.name = ((bodies known).get? r.name).isSome := hasView_designOf ..
  rw [loaded_eq hne hmapped, settling, hview]
  by_cases hmem : r.name ∈ known.map (·.name)
  · have hanswered := answered_of_mem hmapped hmem
    refine ⟨m, ?_, ?_⟩
    · rw [isSome_get?_bodies.2 hmem, hanswered]
      exact fun _ => ⟨_, rfl⟩
    · rw [join_of_false hanswered, hknown]
  · have hanswered := answered_of_not_mem hmapped hmem
    have hsave := answer_save_new hknown hdistinct hne hmapped hmem
    rw [Bool.eq_false_iff.2 (mt isSome_get?_bodies.1 hmem), Bool.and_false,
      if_neg Bool.false_ne_true, writing, if_pos (show r.view.name.hashable = true from rfl)]
    by_cases hfew : known.length < 10 ^ Text.maxDigits
    · rw [if_pos hfew] at hanswered hsave
      refine ⟨afterSave m designName (bodies (known ++ [r])) (revisionOf (bodies (known ++ [r]))),
        Dialogue.Ends.ask ?_, ?_⟩
      · rw [hsave, hanswered]
        exact fun _ => ⟨_, rfl⟩
      · rw [join_of_ok hanswered, document_append]
        exact get?_afterSave ..
    · rw [if_neg hfew] at hanswered hsave
      refine ⟨m, Dialogue.Ends.ask ?_, ?_⟩
      · rw [hsave, hanswered]
        exact Dialogue.ends_done _
      · rw [join_of_error hanswered, hknown]

/-- A registration comes to what it should, and leaves the design document that it should. -/
theorem ensure_ends (hdistinct : (known.map (·.name)).Nodup) (r : Registration) :
    ∃ after, (ensure designName r.view).Ends m (answered known r) after ∧
      after.design designName = document designName (join known r) := by
  by_cases hne : known = []
  · subst hne
    have hrev : revisionOf (bodies [r]) = "1-mem" := by
      show s!"{((1 : Nat) : Int)}-mem" = "1-mem"
      decide
    rw [join_of_ok (answered_nil r), answered_nil, document_append, List.nil_append, hrev]
    exact ⟨_, ensure_ends_absent rfl hknown, get?_afterSave m designName (bodies [r]) _⟩
  obtain ⟨after, hends, hafter⟩ : ∃ after,
      (settling designName r.view (loaded designName known)).Ends m (answered known r) after ∧
        after.design designName = document designName (join known r) := by
    cases hmapped : unmapped? known with
    | some bad => exact settling_ends_of_unmapped hknown hmapped r
    | none => exact settling_ends_of_mapped hknown hdistinct hne hmapped r
  refine ⟨after, ?_, hafter⟩
  rw [ensure_eq]
  refine Dialogue.Ends.ask ?_
  rw [found_answer hknown, answer_get]
  exact hends

end

/-! ## Any number of registrations -/

/-- The store after some registrations, one after the other. -/
def afterAll (designName : String) (m : Memory) (rs : List Registration) : Memory :=
  rs.foldl (fun m r => ((ensure designName r.view).run Memory.answer [] m).2.2) m

/-- The registrations whose views are stored after some, if there were none before. -/
def stored (rs : List Registration) : List Registration := rs.foldl join []

theorem stored_append (rs : List Registration) (r : Registration) :
    stored (rs ++ [r]) = join (stored rs) r := by
  rw [stored, List.foldl_append, List.foldl_cons, List.foldl_nil, ← stored]

theorem firsts_append (rs : List Registration) (r : Registration) : firsts (rs ++ [r]) =
    if r.name ∈ (firsts rs).map (·.name) then firsts rs else firsts rs ++ [r] := by
  rw [firsts, List.foldl_append, List.foldl_cons, List.foldl_nil, ← firsts]

/-- A view is stored under a new name only. -/
theorem nodup_stored (rs : List Registration) : ((stored rs).map (·.name)).Nodup := by
  induction rs using List.reverseRecOn with
  | nil => exact List.nodup_nil
  | append_singleton rs r ih =>
    rw [stored_append]
    by_cases hanswered : answered (stored rs) r = .ok true
    · rw [join_of_ok hanswered, List.map_append]
      have hnew : r.name ∉ (stored rs).map (·.name) := by
        intro hmem
        cases hmapped : unmapped? (stored rs) with
        | some bad => cases (answered_of_unmapped hmapped).symm.trans hanswered
        | none => cases (answered_of_mem hmapped hmem).symm.trans hanswered
      exact List.nodup_append'.2 ⟨ih, List.nodup_singleton _, by simpa using hnew⟩
    · rwa [join_of_ne hanswered]

section
variable {m : Memory} {designName : String} (h : m.design designName = none)
include h

/-- What the design document holds after any number of registrations. -/
theorem design_afterAll (rs : List Registration) :
    (afterAll designName m rs).design designName = document designName (stored rs) := by
  induction rs using List.reverseRecOn with
  | nil => exact h
  | append_singleton rs r ih =>
    obtain ⟨after, hends, hafter⟩ := ensure_ends ih (nodup_stored rs) r
    obtain ⟨seen, hrun⟩ := hends []
    rw [afterAll, List.foldl_append, List.foldl_cons, List.foldl_nil, ← afterAll, hrun, hafter,
      stored_append]

/-- What one more registration comes to. -/
theorem ensure_afterAll (rs : List Registration) (r : Registration) :
    ((ensure designName r.view).run Memory.answer [] (afterAll designName m rs)).1 =
      answered (stored rs) r := by
  obtain ⟨after, hends, -⟩ := ensure_ends (design_afterAll h rs) (nodup_stored rs) r
  obtain ⟨seen, hrun⟩ := hends []
  rw [hrun]

/-- What loading the design document comes to. -/
theorem load_afterAll (rs : List Registration) :
    ((load designName).run Memory.answer [] (afterAll designName m rs)).1 =
      loaded designName (stored rs) := by
  obtain ⟨seen, hrun⟩ := load_ends (design_afterAll h rs) []
  rw [hrun]

end

/-! ## Design documents that stay readable -/

/-- After each registration the design document can be loaded, with the views that were registered so
far, and no registration of a new name fails. -/
def StaysReadable (designName : String) (m : Memory) (rs : List Registration) : Prop :=
  ∀ done r, done ++ [r] <+: rs →
    (r.name ∉ done.map (·.name) →
      ((ensure designName r.view).run Memory.answer [] (afterAll designName m done)).1 = .ok true) ∧
    ∃ design, ((load designName).run Memory.answer [] (afterAll designName m (done ++ [r]))).1 =
        .ok (some design) ∧
      design.views = (firsts (done ++ [r])).map fun r => (.str r.name, r.kept)

theorem unmapped?_eq_none_iff {known : List Registration} :
    unmapped? known = none ↔ ∀ r ∈ known, r.map ≠ "" := by
  simp [unmapped?]

theorem mem_names_firsts {rs : List Registration} {name : String} :
    name ∈ (firsts rs).map (·.name) ↔ name ∈ rs.map (·.name) := by
  induction rs using List.reverseRecOn with
  | nil => rfl
  | append_singleton rs r ih =>
    rw [firsts_append, List.map_append, List.mem_append, ← ih]
    split
    next hmem =>
      refine ⟨.inl, fun h => h.elim id fun h => ?_⟩
      rw [List.map_singleton, List.mem_singleton] at h
      rwa [h]
    next => rw [List.map_append, List.mem_append]

section
variable {designName : String} {known : List Registration}

theorem loaded_of_unmapped {bad : Registration} (h : unmapped? known = some bad) :
    loaded designName known = .error (.refused (.viewWithoutMap bad.name)) := by
  cases known with
  | nil => cases h
  | cons r rest => rw [loaded, h]

/-- What could be loaded has nothing but views with a map function. -/
theorem unmapped?_of_loaded {design : DesignDocument}
    (h : loaded designName known = .ok (some design)) : unmapped? known = none := by
  cases hmapped : unmapped? known with
  | none => rfl
  | some bad => cases (loaded_of_unmapped hmapped).symm.trans h

theorem exists_loaded (hne : known ≠ []) (h : unmapped? known = none) :
    ∃ design, loaded designName known = .ok (some design) ∧
      design.views = known.map fun r => (.str r.name, r.kept) := by
  cases known with
  | nil => exact absurd rfl hne
  | cons r rest => exact ⟨_, by rw [loaded, h], rfl⟩

end

section
variable {rs : List Registration} (hmapped : ∀ r ∈ firsts rs, r.map ≠ "")
  (hfew : (firsts rs).length ≤ 10 ^ Text.maxDigits)
include hmapped hfew

/-- If all views have a map function, and are not too many, then all are stored. -/
theorem stored_eq_firsts : stored rs = firsts rs := by
  induction rs using List.reverseRecOn with
  | nil => rfl
  | append_singleton rs r ih =>
    rw [firsts_append] at hmapped hfew
    rw [stored_append, firsts_append]
    by_cases hmem : r.name ∈ (firsts rs).map (·.name)
    · rw [if_pos hmem] at hmapped hfew ⊢
      have hanswered := answered_of_mem (unmapped?_eq_none_iff.2 hmapped) hmem
      rw [ih hmapped hfew, join_of_false hanswered]
    · rw [if_neg hmem] at hmapped hfew ⊢
      rw [List.length_append, List.length_singleton] at hfew
      have hbefore : ∀ r ∈ firsts rs, r.map ≠ "" := fun r hr =>
        hmapped r (List.mem_append_left _ hr)
      have hanswered := answered_of_not_mem (unmapped?_eq_none_iff.2 hbefore) hmem
      rw [ih hbefore (Nat.le_of_succ_le hfew), join_of_ok (hanswered.trans (if_pos hfew))]

/-- Such registrations are followed by one more that can be read with the others if and only if all of
them have a map function still, and are not too many. -/
theorem readable_append_iff {m : Memory} {designName : String} (h : m.design designName = none)
    (r : Registration) :
    ((r.name ∉ rs.map (·.name) →
      ((ensure designName r.view).run Memory.answer [] (afterAll designName m rs)).1 = .ok true) ∧
    ∃ design, ((load designName).run Memory.answer [] (afterAll designName m (rs ++ [r]))).1 =
        .ok (some design) ∧
      design.views = (firsts (rs ++ [r])).map fun r => (.str r.name, r.kept)) ↔
    (∀ s ∈ firsts (rs ++ [r]), s.map ≠ "") ∧
      (firsts (rs ++ [r])).length ≤ 10 ^ Text.maxDigits := by
  have hstored := stored_eq_firsts hmapped hfew
  rw [ensure_afterAll h, load_afterAll h, hstored, ← mem_names_firsts]
  constructor
  · rintro ⟨hnew, design, hload, -⟩
    by_cases hmem : r.name ∈ (firsts rs).map (·.name)
    · rw [firsts_append, if_pos hmem]
      exact ⟨hmapped, hfew⟩
    · have hanswered := answered_of_not_mem (unmapped?_eq_none_iff.2 hmapped) hmem
      have hfewer : (firsts rs).length < 10 ^ Text.maxDigits := by
        by_contra hmany
        rw [if_neg hmany] at hanswered
        cases hanswered.symm.trans (hnew hmem)
      rw [stored_append, hstored, join_of_ok (hnew hmem)] at hload
      rw [firsts_append, if_neg hmem, List.length_append, List.length_singleton]
      exact ⟨unmapped?_eq_none_iff.1 (unmapped?_of_loaded hload), hfewer⟩
  · rintro ⟨hmapped', hfew'⟩
    refine ⟨fun hmem => ?_, ?_⟩
    · rw [firsts_append, if_neg hmem, List.length_append, List.length_singleton] at hfew'
      exact (answered_of_not_mem (unmapped?_eq_none_iff.2 hmapped) hmem).trans (if_pos hfew')
    · rw [stored_eq_firsts hmapped' hfew']
      refine exists_loaded ?_ (unmapped?_eq_none_iff.2 hmapped')
      intro hnil
      have hmem : r.name ∈ (firsts (rs ++ [r])).map (·.name) := mem_names_firsts.2 (by simp)
      rw [hnil] at hmem
      cases hmem

end

/-- The design document stays readable if and only if every view that is registered has a map function,
and they are not too many to be counted. -/
theorem staysReadable_iff {m : Memory} {designName : String} (h : m.design designName = none)
    (rs : List Registration) : StaysReadable designName m rs ↔
      (∀ r ∈ firsts rs, r.map ≠ "") ∧ (firsts rs).length ≤ 10 ^ Text.maxDigits := by
  induction rs using List.reverseRecOn with
  | nil =>
    refine ⟨fun _ => ⟨fun r hr => (List.not_mem_nil hr).elim, Nat.zero_le _⟩,
      fun _ done r hdone => ?_⟩
    simp at hdone
  | append_singleton rs r ih =>
    have hsplit : StaysReadable designName m (rs ++ [r]) ↔ StaysReadable designName m rs ∧
        ((r.name ∉ rs.map (·.name) → ((ensure designName r.view).run Memory.answer []
            (afterAll designName m rs)).1 = .ok true) ∧
        ∃ design, ((load designName).run Memory.answer [] (afterAll designName m (rs ++ [r]))).1 =
            .ok (some design) ∧
          design.views = (firsts (rs ++ [r])).map fun r => (.str r.name, r.kept)) := by
      constructor
      · intro hstays
        exact ⟨fun done r hdone => hstays done r (hdone.trans (List.prefix_append ..)),
          hstays rs r (List.prefix_refl _)⟩
      · rintro ⟨hstays, hlast⟩ done r' hdone
        rcases List.prefix_concat_iff.1 hdone with heq | hdone
        · obtain ⟨rfl, hlast'⟩ := List.append_inj' heq rfl
          rw [List.singleton_inj.1 hlast']
          exact hlast
        · exact hstays done r' hdone
    rw [hsplit, ih]
    constructor
    · rintro ⟨⟨hmapped, hfew⟩, hlast⟩
      exact (readable_append_iff hmapped hfew h r).1 hlast
    · rintro ⟨hmapped', hfew'⟩
      have hbefore : firsts rs <+: firsts (rs ++ [r]) := by
        rw [firsts_append]
        split
        · exact List.prefix_refl _
        · exact List.prefix_append ..
      have hmapped : ∀ r ∈ firsts rs, r.map ≠ "" := fun r hr => hmapped' r (hbefore.mem hr)
      have hfew := Nat.le_trans hbefore.length_le hfew'
      exact ⟨⟨hmapped, hfew⟩, (readable_append_iff hmapped hfew h r).2 ⟨hmapped', hfew'⟩⟩

/-- Of a view that is registered twice only the first map source counts, and an empty reduce source is
none. -/
theorem staysReadable_ages : Memory.design {} "person" = none ∧ StaysReadable "person" {}
    [⟨"by_age", "a", none⟩, ⟨"by_name", "n", some ""⟩, ⟨"by_age", "", none⟩] := by
  have hfew : 2 ≤ 10 ^ Text.maxDigits := Nat.succ_le_of_lt (Nat.one_lt_pow (by decide) (by decide))
  exact ⟨rfl, (staysReadable_iff rfl _).2 ⟨by decide, hfew⟩⟩

/-- After a view without a map function was stored nothing is registered any more, and nothing read. -/
theorem blocked_of_unmapped {m : Memory} {designName : String} (h : m.design designName = none)
    {rs : List Registration} {bad : Registration} (hbad : unmapped? (stored rs) = some bad)
    (more : List Registration) :
    (∀ r : Registration, ((ensure designName r.view).run Memory.answer []
        (afterAll designName m (rs ++ more))).1 =
          .error (.refused (.viewWithoutMap bad.name))) ∧
      ((load designName).run Memory.answer [] (afterAll designName m (rs ++ more))).1 =
        .error (.refused (.viewWithoutMap bad.name)) := by
  have hsame : stored (rs ++ more) = stored rs := by
    induction more using List.reverseRecOn with
    | nil => rw [List.append_nil]
    | append_singleton more r ih =>
      have hanswered := answered_of_unmapped (r := r) hbad
      rw [← List.append_assoc, stored_append, ih, join_of_error hanswered]
  refine ⟨fun r => ?_, ?_⟩
  · rw [ensure_afterAll h, hsame, answered_of_unmapped hbad]
  · rw [load_afterAll h, hsame]
    exact loaded_of_unmapped hbad

/-- A view with an empty map source is registered, and then no other is: the design document that holds
it cannot be read. -/
theorem not_staysReadable_ages :
    ((ensure "person" (view ⟨"by_age", "", none⟩)).run Memory.answer [] {}).1 = .ok true ∧
    ((load "person").run Memory.answer [] (afterAll "person" {} [⟨"by_age", "", none⟩])).1 =
      .error (.refused (.viewWithoutMap "by_age")) ∧
    ((ensure "person" (view ⟨"by_name", "n", none⟩)).run Memory.answer []
      (afterAll "person" {} [⟨"by_age", "", none⟩])).1 =
        .error (.refused (.viewWithoutMap "by_age")) ∧
    ¬ StaysReadable "person" {} [⟨"by_age", "", none⟩, ⟨"by_name", "n", none⟩] := by
  have hnone : Memory.design {} "person" = none := rfl
  have hstored : stored [⟨"by_age", "", none⟩] = [⟨"by_age", "", none⟩] := by
    rw [stored, List.foldl_cons, List.foldl_nil, join_of_ok (answered_nil _), List.nil_append]
  have hbad : unmapped? (stored [⟨"by_age", "", none⟩]) = some ⟨"by_age", "", none⟩ := by
    rw [hstored]
    rfl
  obtain ⟨hensure, hload⟩ := blocked_of_unmapped hnone hbad []
  have hfirst := ensure_afterAll hnone [] ⟨"by_age", "", none⟩
  rw [show stored [] = [] from rfl, answered_nil] at hfirst
  refine ⟨hfirst, hload, hensure _, fun hstays => ?_⟩
  obtain ⟨-, design, hloaded, -⟩ := hstays [] _ ⟨_, rfl⟩
  cases hload.symm.trans hloaded

end Registration

end ViewFinder
