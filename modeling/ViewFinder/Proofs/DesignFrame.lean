import ViewFinder.Proofs.Store.Registration

/-!
# What adding a view leaves of a design document

To add a view the library reads the design document, puts the view in and writes the document back.
What it does not know of is lost on the way: members of the document besides id, views and revision,
members of a body besides its map function and its reduce function. The rest of the document is as
it was if and only if there was nothing else in it (`Registry.ensure_unchanged_iff`).
-/

namespace ViewFinder

open Store

namespace Registry

/-! ## What is kept of a body -/

/-- What is kept of a body: its map function, and its reduce function if it has one. -/
def keptBody (body : Entries) : Entries :=
  (.str "map", body.getD "map") ::
    if (body.getD "reduce").truthy then [(.str "reduce", body.getD "reduce")] else []

theorem get?_eq_some_getD {es : Entries} {n : String} (h : (es.getD n).truthy = true) :
    es.get? n = some (es.getD n) := by
  rw [Entries.getD] at h ⊢
  cases hget : es.get? n with
  | none =>
    rw [hget] at h
    cases h
  | some v => rfl

/-- A body is kept member by member. -/
theorem get?_keptBody {body : Entries} (hmap : (body.getD "map").truthy = true) (k : String) :
    (keptBody body).get? k = if k = "map" then body.get? k
      else if k = "reduce" ∧ (body.getD "reduce").truthy = true then body.get? k else none := by
  rw [keptBody, Entries.get?_cons_str]
  by_cases hk : "map" = k
  · subst hk
    rw [if_pos rfl, if_pos rfl, get?_eq_some_getD hmap]
  · rw [if_neg hk, if_neg (Ne.symm hk)]
    split
    · next hreduce =>
      rw [Entries.get?_cons_str]
      by_cases hk : "reduce" = k
      · subst hk
        rw [if_pos rfl, if_pos ⟨rfl, hreduce⟩, get?_eq_some_getD hreduce]
      · rw [if_neg hk, if_neg fun h => hk h.1.symm]
        rfl
    · next hreduce =>
      rw [if_neg fun h => hreduce h.2]
      rfl

/-- The body that is written back for one that was read. -/
def writtenBody (body : Value) : Value := (Views.ofBody (.null, body)).2.body

/-- The bodies that are written back are those of the bodies that were read. -/
theorem get?_toBodies (bodies : Entries) (other : String) :
    Entries.get? (Views.toBodies (bodies.map Views.ofBody)) other =
      (bodies.get? other).map writtenBody := by
  have hname (b : Value × Value) : (Views.ofBody b).1 = b.1 := by
    rw [Views.ofBody]
    split <;> rfl
  have hbody (b : Value × Value) : (Views.ofBody b).2.body = writtenBody b.2 := by
    obtain ⟨n, v⟩ := b
    cases v <;> rfl
  induction bodies with
  | nil => rfl
  | cons b bodies ih =>
    have hcons : Views.toBodies ((b :: bodies).map Views.ofBody) =
        (b.1, writtenBody b.2) :: Views.toBodies (bodies.map Views.ofBody) := by
      rw [← hname, ← hbody]
      rfl
    rw [hcons]
    by_cases hkey : b.1 = .str other
    · obtain ⟨n, v⟩ := b
      simp only at hkey
      subst hkey
      rw [Entries.get?_cons_str, Entries.get?_cons_str, if_pos rfl, if_pos rfl]
      rfl
    · rw [Entries.get?_cons_of_ne hkey, Entries.get?_cons_of_ne hkey, ih]

/-! ## What is left of a design document -/

/-- There is nothing in a design document but what the library knows of. -/
structure OnlyKnown (es bodies : Entries) : Prop where
  members : ∀ k v, es.get? k = some v → k ∈ ["_id", "views", "_rev"]
  bodies : ∀ (other : String) (body : Entries), bodies.get? other = some (.dict body) →
    ∀ k v, body.get? k = some v → k = "map" ∨ k = "reduce" ∧ v.truthy = true

/-- Nothing changed in a design document but its revision and the view of a name. -/
structure Unchanged (es bodies saved savedBodies : Entries) (name : String) : Prop where
  members : ∀ k, k ∉ ["views", "_rev"] → saved.get? k = es.get? k
  absent : ∀ other, other ≠ name → bodies.get? other = none → savedBodies.get? other = none
  bodies : ∀ (other : String) (body : Entries), other ≠ name →
    bodies.get? other = some (.dict body) →
      ∃ savedBody : Entries, savedBodies.get? other = some (.dict savedBody) ∧
        ∀ k, savedBody.get? k = body.get? k

section
variable {m : Memory} {designName : String} {es bodies : Entries}

/-- The id of a design document is all that a save keeps besides its views and its revision. -/
theorem get?_entriesOf (designName : String) (saved : Entries) (rev : String) {k : String}
    (hk : k ∉ ["views", "_rev"]) : (entriesOf designName saved rev).get? k =
      if k = "_id" then some (.str (designId designName)) else none := by
  have hviews : ¬ "views" = k := by
    rintro rfl
    exact hk (by simp)
  have hrev : ¬ "_rev" = k := by
    rintro rfl
    exact hk (by simp)
  rw [entriesOf, Entries.get?_cons_str, Entries.get?_cons_str, Entries.get?_cons_str, if_neg hviews,
    if_neg hrev]
  by_cases hid : "_id" = k
  · rw [if_pos hid, if_pos hid.symm]
  · rw [if_neg hid, if_neg (Ne.symm hid)]
    rfl

/-- If only the id is kept, the members stay if and only if there are no others than are known of.
-/
theorem members_iff (h : Stored m designName es bodies) {saved : Entries}
    (hsaved : ∀ k, k ∉ ["views", "_rev"] → saved.get? k =
      if k = "_id" then some (.str (designId designName)) else none) :
    (∀ k, k ∉ ["views", "_rev"] → saved.get? k = es.get? k) ↔
      ∀ k v, es.get? k = some v → k ∈ ["_id", "views", "_rev"] := by
  constructor
  · intro hkept k v hv
    by_cases hk : k ∈ ["views", "_rev"]
    · exact List.mem_cons_of_mem _ hk
    · have hget := hkept k hk
      rw [hsaved k hk, hv] at hget
      by_cases hid : k = "_id"
      · rw [hid]
        exact List.mem_cons_self ..
      · rw [if_neg hid] at hget
        cases hget
  · intro hknown k hk
    rw [hsaved k hk]
    by_cases hid : k = "_id"
    · rw [if_pos hid, hid, h.id]
    · rw [if_neg hid]
      cases hget : es.get? k with
      | none => rfl
      | some v =>
        rcases List.mem_cons.1 (hknown k v hget) with heq | hmem
        · exact absurd heq hid
        · exact absurd hmem hk

/-- A body stays if and only if it has no other members than are known of. -/
theorem keptBody_iff {body : Entries} (hmap : (body.getD "map").truthy = true) :
    (∀ k, (keptBody body).get? k = body.get? k) ↔
      ∀ k v, body.get? k = some v → k = "map" ∨ k = "reduce" ∧ v.truthy = true := by
  have hgetD {k : String} {v : Value} (hv : body.get? k = some v) : body.getD k = v := by
    rw [Entries.getD, hv]
    rfl
  constructor
  · intro hkept k v hv
    have hget := hkept k
    rw [get?_keptBody hmap, hv] at hget
    by_cases hk : k = "map"
    · exact .inl hk
    · rw [if_neg hk] at hget
      by_cases hreduce : k = "reduce" ∧ (body.getD "reduce").truthy = true
      · obtain ⟨rfl, htruthy⟩ := hreduce
        exact .inr ⟨rfl, hgetD hv ▸ htruthy⟩
      · rw [if_neg hreduce] at hget
        cases hget
  · intro hknown k
    rw [get?_keptBody hmap]
    cases hget : body.get? k with
    | none => simp
    | some v =>
      rcases hknown k v hget with rfl | ⟨rfl, htruthy⟩
      · exact if_pos rfl
      · rw [if_neg (by decide), if_pos ⟨rfl, by rw [hgetD hget]; exact htruthy⟩]

/-- What is stored when a view was added: the view, of the members the id, and of the other bodies
what is kept of them. -/
structure Rewritten (designName : String) (bodies : Entries) (view : ViewDefinition)
    (name rev : String) (saved savedBodies : Entries) : Prop where
  rev : saved.get? "_rev" = some (.str rev)
  views : saved.get? "views" = some (.dict savedBodies)
  view : savedBodies.get? name = some view.body
  members : ∀ k, k ∉ ["views", "_rev"] → saved.get? k =
    if k = "_id" then some (.str (designId designName)) else none
  bodies : ∀ other, other ≠ name →
    savedBodies.get? other = (bodies.get? other).map writtenBody

theorem rewritten_entriesOf (designName : String) (bodies : Entries) (view : ViewDefinition)
    (name rev : String) : Rewritten designName bodies view name rev
      (entriesOf designName (bodiesWith bodies name view) rev) (bodiesWith bodies name view) where
  rev := by simp [entriesOf]
  views := get?_views_entriesOf ..
  view := by rw [bodiesWith, Entries.get?_set, if_pos rfl]
  members := fun _ hk => get?_entriesOf _ _ _ hk
  bodies := fun _ hne => by rw [bodiesWith, Entries.get?_set, if_neg (Ne.symm hne), get?_toBodies]

variable {view : ViewDefinition} {name : String}

/-- Adding a view that a design document lacks rewrites the document, as its next revision. -/
theorem ensure_rewrites (h : Stored m designName es bodies) (hname : view.name = .str name)
    (hlacks : bodies.get? name = none) :
    ∃ (rev : String) (n : Int) (after : Memory) (saved savedBodies : Entries),
      es.get? "_rev" = some (.str rev) ∧ Memory.generation (.str rev) = .ok n ∧
      (ensure designName view).Ends m (.ok true) after ∧
      (∀ id, id ≠ designId designName → after.documents.get? id = m.documents.get? id) ∧
      after.documents.get? (designId designName) = some (.dict saved) ∧
      Rewritten designName bodies view name s!"{n + 1}-mem" saved savedBodies := by
  obtain ⟨rev, n, hrev, hn, hends⟩ := ensure_ends_lacking h hname hlacks
  refine ⟨rev, n, _, _, _, hrev, hn, hends, fun id hid => ?_, ?_, rewritten_entriesOf ..⟩
  · rw [afterSave, Entries.get?_set, if_neg (Ne.symm hid)]
  · exact get?_afterSave ..

/-- A design document that is rewritten stays as it was, if and only if there is nothing in it that
the library does not know of. -/
theorem Rewritten.unchanged_iff {rev : String} {saved savedBodies : Entries}
    (hsaved : Rewritten designName bodies view name rev saved savedBodies)
    (h : Stored m designName es bodies) (hlacks : bodies.get? name = none) :
    Unchanged es bodies saved savedBodies name ↔ OnlyKnown es bodies := by
  have hmap {other : String} {body : Entries} (hbody : bodies.get? other = some (.dict body)) :
      (body.getD "map").truthy = true := by
    obtain ⟨body', heq, hmap⟩ := h.bodies _ (Entries.mem_of_get? hbody)
    cases heq
    exact hmap
  constructor
  · intro hunchanged
    refine ⟨(members_iff h hsaved.members).1 hunchanged.members, fun other body hbody => ?_⟩
    have hne : other ≠ name := by
      rintro rfl
      rw [hlacks] at hbody
      cases hbody
    obtain ⟨savedBody, hsavedBody, hkept⟩ := hunchanged.bodies other body hne hbody
    rw [hsaved.bodies other hne, hbody] at hsavedBody
    cases hsavedBody
    exact (keptBody_iff (hmap hbody)).1 hkept
  · intro hknown
    refine ⟨(members_iff h hsaved.members).2 hknown.members, fun other hne hnone => ?_,
      fun other body hne hbody => ?_⟩
    · rw [hsaved.bodies other hne, hnone]
      rfl
    · refine ⟨keptBody body, ?_, (keptBody_iff (hmap hbody)).2 (hknown.bodies other body hbody)⟩
      rw [hsaved.bodies other hne, hbody]
      rfl

/-- Adding a view that a design document lacks leaves the other documents as they were, counts the
revision up and puts the view under its name. The rest of the design document is as it was if and
only if there is nothing in it that the library does not know of. -/
theorem ensure_unchanged_iff (h : Stored m designName es bodies) (hname : view.name = .str name)
    (hlacks : bodies.get? name = none) :
    ∃ (rev : String) (n : Int) (after : Memory) (saved savedBodies : Entries),
      es.get? "_rev" = some (.str rev) ∧ Memory.generation (.str rev) = .ok n ∧
      (ensure designName view).Ends m (.ok true) after ∧
      (∀ id, id ≠ designId designName → after.documents.get? id = m.documents.get? id) ∧
      after.documents.get? (designId designName) = some (.dict saved) ∧
      saved.get? "_rev" = some (.str s!"{n + 1}-mem") ∧
      saved.get? "views" = some (.dict savedBodies) ∧ savedBodies.get? name = some view.body ∧
      (Unchanged es bodies saved savedBodies name ↔ OnlyKnown es bodies) := by
  obtain ⟨rev, n, after, saved, savedBodies, hrev, hn, hends, hframe, hdocument, hsaved⟩ :=
    ensure_rewrites h hname hlacks
  exact ⟨rev, n, after, saved, savedBodies, hrev, hn, hends, hframe, hdocument, hsaved.rev,
    hsaved.views, hsaved.view, hsaved.unchanged_iff h hlacks⟩

end

/-! ## A design document for people -/

/-- The body of a view by age, with further members. -/
def byAge (further : Entries) : Entries :=
  [(.str "map", .str "emit(doc.age)"), (.str "reduce", .str "_count")] ++ further

/-- A design document that holds a view by age, with further members. -/
def ofPeople (body further : Entries) : Entries :=
  [(.str "_id", .str "_design/person"), (.str "_rev", .str "1-seed"),
    (.str "views", .dict [(.str "by_age", .dict body)])] ++ further

/-- A store of nothing but a design document. -/
def storing (es : Entries) : Memory := { documents := [(.str "_design/person", .dict es)] }

/-- A view that the design document lacks. -/
def byName : ViewDefinition := { name := .str "by_name", map := .str "emit(doc.name)" }

theorem lacks_byName (body : Entries) :
    Entries.get? [(.str "by_age", .dict body)] "by_name" = none := by
  rw [Entries.get?_cons_str, if_neg (by decide), Entries.get?_nil]

theorem stored_ofPeople (furtherOfBody further : Entries) :
    Stored (storing (ofPeople (byAge furtherOfBody) further)) "person"
      (ofPeople (byAge furtherOfBody) further) [(.str "by_age", .dict (byAge furtherOfBody))] := by
  have hid : designId "person" = "_design/person" := rfl
  refine ⟨?_, ?_, ?_, ?_, "1-seed", 1, ?_, rfl⟩
  · simp [storing, hid]
  · simp [ofPeople, hid]
  · simp [ofPeople]
  · simp [byAge, Entries.getD, Value.truthy]
  · simp [ofPeople]

theorem onlyKnown_ofPeople :
    OnlyKnown (ofPeople (byAge []) []) [(.str "by_age", .dict (byAge []))] := by
  constructor
  · intro k v hk
    have hmem := Entries.mem_of_get? hk
    simp only [ofPeople, List.append_nil, List.mem_cons, Prod.mk.injEq, Value.str.injEq,
      List.not_mem_nil, or_false] at hmem
    rcases hmem with ⟨rfl, -⟩ | ⟨rfl, -⟩ | ⟨rfl, -⟩ <;> decide
  · intro other body hbody k v hk
    have hmem := Entries.mem_of_get? hbody
    simp only [List.mem_singleton, Prod.mk.injEq, Value.dict.injEq] at hmem
    obtain ⟨-, rfl⟩ := hmem
    have hmem := Entries.mem_of_get? hk
    simp only [byAge, List.append_nil, List.mem_cons, Prod.mk.injEq, Value.str.injEq,
      List.not_mem_nil, or_false] at hmem
    rcases hmem with ⟨rfl, rfl⟩ | ⟨rfl, rfl⟩
    · exact .inl rfl
    · exact .inr ⟨rfl, rfl⟩

/-- A design document without further members stays as it was. -/
theorem ensure_byName_unchanged : ∃ (after : Memory) (saved savedBodies : Entries),
    (ensure "person" byName).Ends (storing (ofPeople (byAge []) [])) (.ok true) after ∧
      after.documents.get? "_design/person" = some (.dict saved) ∧
      saved.get? "views" = some (.dict savedBodies) ∧
      Unchanged (ofPeople (byAge []) []) [(.str "by_age", .dict (byAge []))] saved savedBodies
        "by_name" := by
  obtain ⟨rev, n, after, saved, savedBodies, -, -, hends, -, hsaved, -, hviews, -, hunchanged⟩ :=
    ensure_unchanged_iff (stored_ofPeople [] []) (show byName.name = .str "by_name" from rfl)
      (lacks_byName _)
  exact ⟨after, saved, savedBodies, hends, hsaved, hviews, hunchanged.2 onlyKnown_ofPeople⟩

/-- The language of a design document and the options of its view are lost when a view is added. -/
theorem ensure_byName_loses : ∃ (after : Memory) (saved savedBodies savedBody : Entries),
    (ensure "person" byName).Ends
        (storing (ofPeople (byAge [(.str "options", .dict [])])
          [(.str "language", .str "javascript")])) (.ok true) after ∧
      after.documents.get? "_design/person" = some (.dict saved) ∧
      saved.get? "views" = some (.dict savedBodies) ∧ saved.get? "language" = none ∧
      savedBodies.get? "by_age" = some (.dict savedBody) ∧ savedBody.get? "options" = none := by
  obtain ⟨rev, n, after, saved, savedBodies, -, -, hends, -, hdocument, hsaved⟩ :=
    ensure_rewrites (stored_ofPeople [(.str "options", .dict [])]
      [(.str "language", .str "javascript")]) (show byName.name = .str "by_name" from rfl)
      (lacks_byName _)
  refine ⟨after, saved, savedBodies, keptBody (byAge [(.str "options", .dict [])]), hends,
    hdocument, hsaved.views, ?_, ?_, ?_⟩
  · rw [hsaved.members _ (by decide), if_neg (by decide)]
  · rw [hsaved.bodies _ (by decide), Entries.get?_cons_str, if_pos rfl]
    rfl
  · rw [get?_keptBody (by simp [byAge, Entries.getD, Value.truthy]), if_neg (by decide),
      if_neg (by simp)]

end Registry

end ViewFinder
