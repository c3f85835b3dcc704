import ViewFinder.Proofs.Store.Answer
import ViewFinder.Proofs.Store.Registration

/-!
# Queries carried out against a store in memory

A query that a store can serve (`CompiledQuery.Served`) comes to the answer that the store gives for
its map function, with or without a stored view (`CompiledQuery.executeOne_ends`). Where it is sent
once for each of several keys the rows of all keys are put together
(`CompiledQuery.executePerKey_ends`), without those of documents that came up before
(`CompiledQuery.fresh`).
-/

namespace ViewFinder

open Store

/-! ## Paths -/

/-- What comes before the first slash is the first part of a path. -/
theorem Store.splitOn_append_slash {before : List Char} (h : '/' ∉ before) (s : List Char) :
    (before ++ '/' :: s).splitOn '/' = before :: s.splitOn '/' := by
  rw [List.splitOn_append_cons_self, List.splitOn_eq_singleton h]
  rfl

/-- The path of a view names its design document, and of the view what comes before any slash. -/
theorem Profile.viewAt?_viewPath (p : Profile) {design view : String}
    (hdesign : '/' ∉ design.toList) {first : List Char} {rest : List (List Char)}
    (hview : view.toList.splitOn '/' = first :: rest) :
    Memory.viewAt? (p.viewPath design view) = some (design, String.ofList first) := by
  rw [Profile.viewPath]
  cases p.version.releaseBelow 0 9 with
  | true =>
    have hpath : (s!"_view/{design}/{view}").toList =
        "_view".toList ++ '/' :: (design.toList ++ '/' :: view.toList) := by
      simp [toString]
    rw [if_pos rfl, Memory.viewAt?, hpath, splitOn_append_slash (by decide),
      splitOn_append_slash hdesign, hview]
    simp
  | false =>
    have hpath : (s!"_design/{design}/_view/{view}").toList = "_design".toList ++ '/' ::
        (design.toList ++ '/' :: ("_view".toList ++ '/' :: view.toList)) := by
      simp [toString]
    rw [if_neg (by decide), Memory.viewAt?, hpath, splitOn_append_slash (by decide),
      splitOn_append_slash hdesign, splitOn_append_slash (by decide), hview]
    simp

/-- The window of a list goes by places, whatever the items are. -/
theorem Window.cut_map {α β : Type} (f : α → β) (skip : Int) (limit : Option Int) (l : List α) :
    cut skip limit (l.map f) = (cut skip limit l).map f := by
  cases limit <;> simp [cut, slice]

/-- A window shows items of the list. -/
theorem Window.mem_of_mem_cut {α : Type} {skip : Int} {limit : Option Int} {l : List α} {a : α}
    (h : a ∈ cut skip limit l) : a ∈ l := by
  cases limit with
  | none => exact List.mem_of_mem_drop h
  | some n => exact List.mem_of_mem_take (List.mem_of_mem_drop h)

@[simp] theorem Window.cut_nil {α : Type} (skip : Int) (limit : Option Int) :
    cut skip limit ([] : List α) = [] := by
  cases limit <;> simp [cut, slice]

/-- The window of a list without offset and limit is the list. -/
@[simp] theorem Window.cut_zero_none {α : Type} (l : List α) : cut 0 none l = l := by
  simp [cut, position]

namespace CompiledQuery

/-! ## One query -/

/-- A query that a store in memory can serve: queries without a stored view are permitted if it is
one, else its view is there or can be registered. -/
structure Served (q : CompiledQuery) (s : Setting) (m : Memory) : Prop where
  permitted : q.slow.truthy = true → s.allowAdHoc = true
  admitted : q.slow.truthy = false → ∃ name, q.viewName = .str name ∧
    Memory.viewAt? (q.viewPath s.profile) = some (s.designName, name) ∧
      Registry.Admits m s.designName q.view

variable {m : Memory} {q : CompiledQuery} {s : Setting}

/-- A query that can be served gets the answer for its map function, and can be served again. -/
theorem executeOne_ends (hs : q.Served s m) {response : Value}
    (h : Index.answer m.documents q.mapSource q.reduceSource q.params = .ok response) :
    ∃ after, (q.executeOne s).Ends m (.ok response) after ∧ q.Served s after ∧
      Registry.SameIndexes m after := by
  rw [executeOne]
  cases hslow : q.slow.truthy with
  | true =>
    refine ⟨m, ?_, hs, fun _ => rfl⟩
    have hrequest := Dialogue.ends_request (m := m)
      (.adHoc s.profile.adHocPath q.mapSource q.reduceSource q.params)
    rw [Memory.answer, Memory.adHoc, h] at hrequest
    rw [if_pos rfl, executeAdHoc, if_pos (hs.permitted hslow)]
    exact hrequest
  | false =>
    obtain ⟨name, hname, hpath, hadmits⟩ := hs.admitted hslow
    obtain ⟨after, hends, hholds, hsame⟩ := executeIndexed_ends hname hpath hadmits h
    exact ⟨after, hends, ⟨hs.permitted, fun _ => ⟨name, hname, hpath, .held hholds⟩⟩, hsame⟩

/-! ## One query for each key -/

/-- The rows of documents that did not come up before, neither among those seen nor further up. -/
def fresh (seen : List String) : List Row → List Row
  | [] => []
  | r :: rows => if r.id ∈ seen then fresh seen rows else r :: fresh (r.id :: seen) rows

theorem fresh_sublist (seen : List String) (rows : List Row) :
    (fresh seen rows).Sublist rows := by
  induction rows generalizing seen with
  | nil => exact .slnil
  | cons r rows ih =>
    rw [fresh]
    split
    · exact (ih seen).cons r
    · exact (ih _).cons_cons r

/-- The ids seen once the fresh rows have come up. -/
def seenAfter (seen : List String) (rows : List Row) : List String :=
  ((fresh seen rows).map Row.id).reverse ++ seen

theorem seenAfter_cons (seen : List String) (r : Row) (rows : List Row) :
    seenAfter seen (r :: rows) =
      if r.id ∈ seen then seenAfter seen rows else seenAfter (r.id :: seen) rows := by
  rw [seenAfter, fresh]
  split
  · rfl
  · simp [seenAfter]

theorem fresh_append (seen : List String) (rows others : List Row) :
    fresh seen (rows ++ others) = fresh seen rows ++ fresh (seenAfter seen rows) others := by
  induction rows generalizing seen with
  | nil => rfl
  | cons r rows ih =>
    rw [List.cons_append, fresh, fresh, seenAfter_cons]
    split
    · exact ih seen
    · rw [ih, List.cons_append]

/-- Rows with ids of their own, none of which came up before, are all fresh. -/
theorem fresh_of_not_seen {rows : List Row} {seen : List String} (hnodup : (rows.map Row.id).Nodup)
    (h : ∀ r ∈ rows, r.id ∉ seen) : fresh seen rows = rows := by
  induction rows generalizing seen with
  | nil => rfl
  | cons r rows ih =>
    rw [List.map_cons, List.nodup_cons] at hnodup
    obtain ⟨hr, hrows⟩ := List.forall_mem_cons.1 h
    have hrest : ∀ s ∈ rows, s.id ∉ r.id :: seen := by
      intro s hs hseen
      rcases List.mem_cons.1 hseen with heq | hseen
      · exact hnodup.1 (heq ▸ List.mem_map_of_mem hs)
      · exact hrows s hs hseen
    rw [fresh, if_neg hr, ih hnodup.2 hrest]

/-- Rows all of whose ids came up before are none of them fresh. -/
theorem fresh_of_seen {rows : List Row} {seen : List String} (h : ∀ r ∈ rows, r.id ∈ seen) :
    fresh seen rows = [] := by
  induction rows with
  | nil => rfl
  | cons r rows ih =>
    obtain ⟨hr, hrows⟩ := List.forall_mem_cons.1 h
    rw [fresh, if_pos hr, ih hrows]

/-- Rows are put together without those of documents that came up before. -/
theorem freshRows_eq (rows : List Row) (seen : List String) :
    freshRows (seen.map .str) (rows.map Row.toValue) =
      .ok ((fresh seen rows).map Row.toValue, (seenAfter seen rows).map .str) := by
  induction rows generalizing seen with
  | nil => rfl
  | cons r rows ih =>
    have hid : r.toValue.member "id" = .ok (.str r.id) := by
      simp [Row.toValue, Value.member, Value.entries, Except.map, Entries.getD]
    have hseen : (seen.map Value.str).any (·.sameKey (.str r.id)) = decide (r.id ∈ seen) := by
      rw [Bool.eq_iff_iff, List.any_map, List.any_eq_true]
      simp
    rw [List.map_cons, freshRows, hid, fresh, seenAfter_cons]
    simp only [bind, Except.bind, Value.isNull, Value.hashable, hseen, Bool.false_eq_true,
      Bool.not_true, if_false, decide_eq_true_eq]
    split
    · exact ih seen
    · have hrest := ih (r.id :: seen)
      rw [List.map_cons] at hrest
      rw [hrest]
      rfl

/-- A query for each of several keys, one after the other, puts together the rows of all of them, and
can be served again. -/
theorem gather_ends {params : Value → Entries} {rows : Value → List Row} {total : Nat}
    (hs : q.Served s m) {keys : List Value}
    (h : ∀ k ∈ keys, Index.answer m.documents q.mapSource q.reduceSource (params k) =
      .ok (Window.response total 0 ((rows k).map Row.toValue))) (seen : List String) :
    ∃ after, (gather s (seen.map .str) (keys.map fun k =>
      { q with params := params k, fallbackKeys := .list [] })).Ends m
        (.ok ((fresh seen (keys.flatMap rows)).map Row.toValue)) after ∧
      q.Served s after ∧ Registry.SameIndexes m after := by
  induction keys generalizing m seen with
  | nil => exact ⟨m, Dialogue.ends_pure _, hs, fun _ => rfl⟩
  | cons k keys ih =>
    obtain ⟨hk, hkeys⟩ := List.forall_mem_cons.1 h
    obtain ⟨after, hends, hserved, hsame⟩ := executeOne_ends
      (q := { q with params := params k, fallbackKeys := .list [] })
      ⟨hs.permitted, hs.admitted⟩ hk
    obtain ⟨last, hgather, hlast, hsame'⟩ := ih ⟨hserved.permitted, hserved.admitted⟩
      (fun l hl => (hsame.answer_eq ..).trans (hkeys l hl)) (seenAfter seen (rows k))
    refine ⟨last, ?_, hlast, hsame.trans hsame'⟩
    have hrows : rowsOf (Window.response total 0 ((rows k).map Row.toValue)) =
        .ok ((rows k).map Row.toValue) := by
      simp [rowsOf, Window.response, Value.member?, Value.entries, Value.items, Except.map, bind,
        Except.bind]
    rw [List.map_cons, gather]
    refine hends.bind (Dialogue.ends_lift hrows (Dialogue.ends_lift (freshRows_eq _ _) ?_))
    rw [List.flatMap_cons, fresh_append, List.map_append (f := Row.toValue)]
    exact hgather.bind (Dialogue.ends_pure _)

/-- The parameters of the query for one of several keys, which has no window of its own. -/
def keyParams (q : CompiledQuery) (p : Profile) (key : Value) : Entries :=
  ((q.params.set "key" key).erase p.limitParam).erase Profile.offsetParam

theorem get?_keyParams (q : CompiledQuery) (p : Profile) (key : Value) (n : String) :
    (q.keyParams p key).get? n = if "skip" = n ∨ p.limitParam = n then none
      else if "key" = n then some key else q.params.get? n := by
  rw [keyParams, Entries.get?_erase, Entries.get?_erase, Entries.get?_set, Profile.offsetParam]
  split
  · next h => rw [if_pos (.inl h)]
  · next h => simp only [h, false_or]

/-- A query that is sent once for each of several keys comes to the window of the rows of all of
them, and can be served again. -/
theorem executePerKey_ends {rows : Value → List Row} {total : Nat} (hs : q.Served s m)
    {keys : List Value} (hkeys : q.fallbackKeys = .list keys)
    (h : ∀ k ∈ keys, Index.answer m.documents q.mapSource q.reduceSource (q.keyParams s.profile k) =
      .ok (Window.response total 0 ((rows k).map Row.toValue)))
    {limit skip : Option Int}
    (hlimit : integerParam? q.params s.profile.limitParam = .ok limit)
    (hskip : integerParam? q.params Profile.offsetParam = .ok skip) :
    ∃ total after, (q.executePerKey s).Ends m (.ok (Window.response total (skip.getD 0)
      ((Window.cut (skip.getD 0) limit (fresh [] (keys.flatMap rows))).map Row.toValue))) after ∧
        q.Served s after ∧ Registry.SameIndexes m after := by
  obtain ⟨after, hgather, hafter⟩ := gather_ends hs h []
  refine ⟨(Window.cut (skip.getD 0) limit (fresh [] (keys.flatMap rows))).length, after, ?_, hafter⟩
  have hperKey : q.perKey = .ok (keys.map q.withKey) := by
    rw [perKey, hkeys]
    rfl
  rw [executePerKey, ← List.length_map (f := Row.toValue), ← Window.cut_map]
  refine Dialogue.ends_lift hlimit (Dialogue.ends_lift hskip (Dialogue.ends_lift hperKey ?_))
  rw [List.map_map]
  exact hgather.bind (Dialogue.ends_pure _)

end CompiledQuery

end ViewFinder
