import ViewFinder.Proofs.Query.Params
import ViewFinder.Proofs.Query.ViewNames
import ViewFinder.Proofs.Registry.WrittenViews

/-!
# Views that queries register

The views that the queries of a type register go by the names of their fields (`Registry.IsOwn`), and
a name is that of one view only (`Registry.IsOwn.eq_of_name`). In a design document that only queries
have written (`Registry.Own`) there are no others. A query that finds a view of its name there has
found its own, and one that does not has it registered: either way it is answered as the store would
answer for its own map function (`CompiledQuery.executeIndexed_ends_of_own`), as long as the number of
views can be read in the revision.
-/

namespace ViewFinder

open Store

namespace Registry

open Query

/-! ## Views of a type -/

/-- The view that the queries of a type register for the fields of their key. -/
structure IsOwn (e : EntityType) (p : Profile) (fields : List String) (view : ViewDefinition) :
    Prop where
  key : IsKey fields
  name : ∃ operation ∈ [findPrefix, countPrefix], view.name = .str (viewName fields operation)
  map : ∃ source, mapFunction e fields = .ok source ∧ view.map = .str source
  reduce : view.reduce = reduceSource p

/-- A query goes to no view without a map function. -/
theorem proper_of_mapFunction {e : EntityType} {fields : List String} {source : String}
    (h : mapFunction e fields = .ok source) (p : Profile) (name : String) :
    Proper ⟨.str name, .str source, reduceSource p⟩ := by
  refine ⟨⟨_, rfl⟩, ?_, ?_⟩
  · rw [mapFunction] at h
    cases hprint : Json.print e.discriminatorValue with
    | error fault =>
      rw [hprint] at h
      cases h
    | ok value =>
      rw [hprint] at h
      cases h
      simp [Value.truthy]
  · show reduceSource p = .null ∨ (reduceSource p).truthy = true
    rw [reduceSource]
    split
    · exact .inr rfl
    · exact .inl rfl

section
variable {e : EntityType} {p : Profile} {fields : List String} {view : ViewDefinition}

theorem IsOwn.proper (h : IsOwn e p fields view) : Proper view := by
  obtain ⟨operation, -, hname⟩ := h.name
  obtain ⟨source, hsource, hmap⟩ := h.map
  have hproper := proper_of_mapFunction hsource p (viewName fields operation)
  rwa [← hname, ← hmap, ← h.reduce] at hproper

/-- The stored form has the map function of the fields, and the reduce function that counts if the store
can count by one. -/
theorem IsOwn.body_eq (h : IsOwn e p fields view) : ∃ source, mapFunction e fields = .ok source ∧
    view.body = .dict ((.str "map", .str source) ::
      if p.reduceCounting then [(.str "reduce", .str countReduce)] else []) := by
  obtain ⟨source, hsource, hmap⟩ := h.map
  refine ⟨source, hsource, ?_⟩
  rw [ViewDefinition.body, hmap, h.reduce, reduceSource]
  cases p.reduceCounting <;> rfl

/-- Views of one name are the same, and for the same fields. -/
theorem IsOwn.eq_of_name {others : List String} {other : ViewDefinition}
    (h : IsOwn e p fields view) (hother : IsOwn e p others other) (hname : view.name = other.name) :
    fields = others ∧ view = other := by
  obtain ⟨operation, ho, hview⟩ := h.name
  obtain ⟨operation', ho', hview'⟩ := hother.name
  rw [hview, hview', Value.str.injEq] at hname
  obtain ⟨rfl, rfl⟩ := eq_of_viewName_eq h.key.clear hother.key.clear ho ho' hname
  obtain ⟨source, hsource, hmap⟩ := h.map
  obtain ⟨source', hsource', hmap'⟩ := hother.map
  rw [hsource, Except.ok.injEq] at hsource'
  subst hsource'
  refine ⟨rfl, ?_⟩
  obtain ⟨name, map, reduce⟩ := view
  obtain ⟨name', map', reduce'⟩ := other
  simp only at hview hview' hmap hmap'
  rw [hview, hview', hmap, hmap', show reduce = reduceSource p from h.reduce,
    show reduce' = reduceSource p from hother.reduce]

end

/-! ## Design documents that only queries have written -/

/-- A design document is absent, or it holds nothing but views of the type, and as many as its revision
counts. -/
def Own (e : EntityType) (p : Profile) : String → Option Value → Prop :=
  Written fun view => ∃ fields, IsOwn e p fields view

/-- Making sure of a view leaves no others in the design document than those of queries. -/
theorem IsOwn.keeps_ensure {e : EntityType} {p : Profile} {designName : String}
    {fields : List String} {view : ViewDefinition} (h : IsOwn e p fields view) :
    (ensure designName view).Keeps (designId designName) (Own e p designName) := by
  obtain ⟨operation, -, hname⟩ := h.name
  exact Registry.keeps_ensure h.proper ⟨fields, h⟩ hname

end Registry

namespace CompiledQuery

open Registry

variable {m : Memory} {q : CompiledQuery} {s : Setting}

/-- Where only queries have written the design document, a query is answered as the store would answer
for its own map function, and its view is there afterwards; unless the view is missing and there are
more than a revision can count. -/
theorem executeIndexed_ends_of_own {e : EntityType} {p : Profile} {fields : List String}
    {name : String} (hown : Own e p s.designName (m.documents.get? (designId s.designName)))
    (hview : IsOwn e p fields q.view) (hname : q.viewName = .str name)
    (hpath : Memory.viewAt? (q.viewPath s.profile) = some (s.designName, name)) :
    (∃ after, (q.executeIndexed s).Ends m
        (Index.answer m.documents q.mapSource q.reduceSource q.params) after ∧
      Holds after s.designName q.view) ∨
    10 ^ Text.maxDigits ≤ (namesIn (m.documents.get? (designId s.designName))).length ∧
      ∃ fault, (q.executeIndexed s).Ends m (.error fault) m := by
  obtain ⟨log, result, after, -, hends, hsettled⟩ :=
    (executeIndexed_leads hown hview.proper ⟨fields, hview⟩ hname hpath).exists_ends
  cases hsettled with
  | held view hstored =>
    -- the view of the name is the query's own, for no other view has the name
    obtain ⟨-, ⟨others, hother⟩, hsame⟩ := Written.of_viewIn hown hstored
    obtain ⟨-, rfl⟩ := hview.eq_of_name hother (hname.trans hsame.symm)
    exact .inl ⟨m, hends, Written.holds hown hstored⟩
  | registered hlacks got document response after hextends =>
    exact .inl ⟨after, hends, hextends.written.holds (hextends.added.held name hname)⟩
  | refused hlacks hmany got document e => exact .inr ⟨hmany, e, hends⟩

end CompiledQuery

end ViewFinder
