import ViewFinder.Proofs.CountFound

/-!
# Finding in the order of the rows

A store serves the queries that find documents of a type by some fields (`Query.Serves`) if their view
is there or can be registered; it still does once one of them has been carried out. Where no order is
asked for, what is found is what the documents of the rows chosen become, in the order of the rows
(`Query.Serves.findWith_ends`), and the first document, or the last one, is the first of those found
with a limit of one (`Store.Memory.outcome_endWith`).
-/

namespace ViewFinder

open Store

/-- Without offset and limit a window shows everything. -/
theorem Window.cut_of_null {α : Type} {o : Options} (hlimit : o.limit = .null)
    (hoffset : o.offset = .null) (l : List α) : cut o.skip o.limit? l = l := by
  rw [Options.skip, Options.limit?, hlimit, hoffset]
  exact cut_zero_none l

/-- Without offset a limit shows what comes first. -/
theorem Window.cut_of_limit {α : Type} {o : Options} {n : Nat} (hlimit : o.limit = .int n)
    (hoffset : o.offset = .null) (l : List α) : cut o.skip o.limit? l = l.take n := by
  rw [Options.skip, Options.limit?, hlimit, hoffset]
  exact cut_natCast l 0 n

namespace Query

/-- Names that are all identifiers are given, by the options' own key or by the conditions. -/
theorem exists_givenNames {o : Options} {conditions : Entries} (hc : o.conditions = .dict conditions)
    (hnames : ∀ c ∈ conditions, c.1.isIdentifier = true)
    (hkey : o.useKey.truthy = true → ∃ names, givenNames o = .ok names ∧
      ∀ n ∈ names, n.isIdentifier = true) :
    ∃ names, givenNames o = .ok names ∧ ∀ n ∈ names, n.isIdentifier = true := by
  by_cases htruthy : o.useKey.truthy = true
  · exact hkey htruthy
  · refine ⟨conditions.map (·.1), ?_, List.forall_mem_map.2 hnames⟩
    rw [givenNames, if_neg htruthy, hc]
    rfl

/-! ## Stores that serve queries -/

/-- A store serves the queries that find documents of a type by some fields, and its index has some
rows. -/
structure Serves (m : Memory) (s : Setting) (e : EntityType) (slow : Value) (fields : List String)
    (rows : List Row) : Prop where
  identifiers : e.HasIdentifiers
  objects : ∀ r ∈ rows, ∃ es, r.document = .dict es
  served : ∀ {q : CompiledQuery} {o : Options} {base : Entries}, searchFields e o = .ok fields →
    o.slow = slow → Compiles q e s.profile o findPrefix fields base →
      q.Served s m ∧ Index.ofDocuments q.mapSource m.documents = .ok rows

/-- A store that can answer queries serves those that find documents. -/
theorem Answerable.serves {m : Memory} {s : Setting} {e : EntityType} {o : Options}
    {fields keyFields : List String} (h : Answerable m s e o fields keyFields) :
    Serves m s e o.slow fields (m.rows e keyFields) := by
  refine ⟨h.identifiers, fun r hr => ?_, fun hsearched hslow hq => ?_⟩
  · exact (h.json.exists_dict_of_mem_rows hr).imp fun _ => And.left
  · have hsame := h.congr hsearched hslow
    exact ⟨hsame.served hq (List.mem_cons_self ..), hsame.ofDocuments_eq hq⟩

section
variable {e : EntityType} {fields : List String} {rows : List Row} {o : Options} {base : Entries}

/-- Queries that find documents by the same fields go to the same view. -/
theorem Compiles.view_eq {q q' : CompiledQuery} {o' : Options} {base' : Entries} {p : Profile}
    {operation : String} (h : Compiles q e p o operation fields base)
    (h' : Compiles q' e p o' operation fields base') : q'.view = q.view ∧
      q'.viewPath p = q.viewPath p ∧ q'.mapSource = q.mapSource := by
  obtain ⟨source, hsource, heq⟩ := h.mapSource
  obtain ⟨source', hsource', heq'⟩ := h'.mapSource
  have hdesign := h.designName
  rw [h'.designName, Except.ok.injEq] at hdesign
  rw [hsource, Except.ok.injEq] at hsource'
  subst hsource'
  refine ⟨?_, ?_, heq'.trans heq.symm⟩
  · rw [CompiledQuery.view, CompiledQuery.view, h.viewName, h'.viewName, heq, heq', h.reduceSource,
      h'.reduceSource]
  · rw [CompiledQuery.viewPath, CompiledQuery.viewPath, h.viewName, h'.viewName, hdesign]

/-- A store that has served a query serves all others by the same fields. -/
theorem Serves.after {m after : Memory} {s : Setting} {q : CompiledQuery}
    (h : Serves m s e o.slow fields rows) (hsearched : searchFields e o = .ok fields)
    (hq : Compiles q e s.profile o findPrefix fields base) (hserved : q.Served s after)
    (hsame : Registry.SameIndexes m after) : Serves after s e o.slow fields rows := by
  refine ⟨h.identifiers, h.objects, fun {q' o' base'} _ hslow hq' => ?_⟩
  obtain ⟨hview, hpath, hsource⟩ := hq.view_eq hq'
  have hslow' : q'.slow = q.slow := hq'.slow.trans (hslow.trans hq.slow.symm)
  refine ⟨⟨hslow' ▸ hserved.permitted, fun hindexed => ?_⟩, ?_⟩
  · obtain ⟨name, hname, hleads, hadmits⟩ := hserved.admitted (hslow' ▸ hindexed)
    refine ⟨name, ?_, hpath ▸ hleads, hview ▸ hadmits⟩
    rw [hq'.viewName, ← hq.viewName, hname]
  · rw [hsource, hsame]
    exact (h.served hsearched rfl hq).2

/-- Where no order is asked for, finding comes to what the documents of the rows chosen become, and
the store serves further queries by the same fields. -/
theorem Serves.findWith_ends {m : Memory} {f : Finder}
    (h : Serves m f.setting f.entityType o.slow fields rows)
    (hsearched : searchFields f.entityType o = .ok fields) (hr : Restriction f.profile base)
    (hasks : AsksFor f.profile o base) (hsel : Index.Selectable base) (hw : o.HasWindow)
    (hraw : o.raw.truthy = false)
    (horder : (o.order.orElse f.entityType.defaultSort).truthy = false) :
    ∃ outcome after, (f.findWith o).Ends m outcome after ∧
      f.entityType.Becomes o.readonly
        ((Window.cut o.skip o.limit? (chosen base rows)).map Row.toDocument) outcome ∧
      Serves after f.setting f.entityType o.slow fields rows := by
  obtain ⟨params, hparams, hget⟩ := hasks o.limit o.offset
  obtain ⟨q, hq, hcompiles, hruns⟩ :=
    exists_find h.identifiers.isTagged h.identifiers.exists_name hget hsearched hparams
  obtain ⟨hserved, hrows⟩ := h.served hsearched rfl hcompiles
  obtain ⟨total, after, hends, hserved, hsame⟩ :=
    hcompiles.execute_ends hr hsel hserved hrows hw hruns
  refine ⟨_, after, Finder.findWith_ends hq hends, ?_, h.after hsearched hcompiles hserved hsame⟩
  exact EntityType.becomes_materialize total o.skip
    (fun r hr => h.objects r (mem_of_mem_chosen (Window.mem_of_mem_cut hr))) hraw horder

end

end Query

/-- Where queries can be answered, finding comes to what the documents of the rows chosen become. -/
theorem Query.Answerable.becomes {m : Memory} {e : EntityType} {designName : String} {o : Options}
    {p : Profile} {allowAdHoc : Bool} {fields keyFields : List String} {base : Entries}
    (h : Query.Answerable m (Database.finderOf e designName p allowAdHoc).setting e o fields
      keyFields) (hdesign : e.designName = .ok designName) (hr : Query.Restriction p base)
    (hasks : Query.AsksFor p o base) (hsel : Index.Selectable base) (hw : o.HasWindow)
    (hraw : o.raw.truthy = false) (horder : (o.order.orElse e.defaultSort).truthy = false) :
    e.Becomes o.readonly
      ((Window.cut o.skip o.limit? (Query.chosen base (m.rows e keyFields))).map Row.toDocument)
      (m.outcome p allowAdHoc e (·.findWith o)) := by
  obtain ⟨outcome, after, hends, hbecomes, -⟩ :=
    h.serves.findWith_ends h.searched hr hasks hsel hw hraw horder
  rw [hends.outcome_eq hdesign]
  exact hbecomes

/-! ## The first and the last one -/

/-- What is made of the result makes no request. -/
theorem Store.Memory.outcome_bind {α β : Type} (m : Memory) (p : Profile) (allowAdHoc : Bool)
    (e : EntityType) (operation : Finder → Dialogue α) (f : α → Except Fault β) :
    m.outcome p allowAdHoc e (fun finder => operation finder >>= fun a => (f a : Dialogue β)) =
      (m.outcome p allowAdHoc e operation).bind f := by
  rw [outcome, outcome, Database.run, Database.run]
  cases Database.finder { profile := p, allowAdHoc } e with
  | error fault => rfl
  | ok finder =>
    simp only [Dialogue.run_bind]
    rcases (operation finder).run Memory.answer finder.knownViews m with ⟨_ | a, known, after⟩
    · rfl
    · rfl

/-- The first document, or the last one, is the first of those found with a limit of one, forwards or
backwards. -/
theorem Store.Memory.outcome_endWith (m : Memory) (p : Profile) (allowAdHoc : Bool)
    (e : EntityType) (o : Options) (descending : Bool) :
    m.outcome p allowAdHoc e (·.endWith o descending) =
      (m.outcome p allowAdHoc e (·.findWith (if descending then
        { o with limit := .int 1, descending := .bool true } else { o with limit := .int 1 }))).bind
          Result.first? :=
  m.outcome_bind p allowAdHoc e _ Result.first?

/-- With a limit of one, the first of what is found is the first of what is found without. -/
theorem EntityType.Becomes.first? {e : EntityType} {readonly : Value}
    {ds : List (String × Entries)} {outcome : Except Fault Result}
    (h : e.Becomes readonly (ds.take 1) outcome) {rs : List Record}
    (hrs : List.Forall₂ (fun d r => e.makeRecord readonly d = .ok r) ds rs) :
    outcome.bind Result.first? = .ok rs.head? := by
  rw [h.eq_ok_iff.2 (List.forall₂_take 1 hrs), Except.bind, Result.first?, List.head?_take,
    if_neg Nat.one_ne_zero]

end ViewFinder
