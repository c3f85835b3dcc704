import ViewFinder.Proofs.FindConditions
import ViewFinder.Proofs.Query.ExactKeys

/-!
# One store for several releases

Documents of one type are found and counted by exact conditions, each time by a finder that takes the
store to be of some release (`Ask`). The first one that goes to a view decides for all that follow
whether it has a reduce function (`Ask.Kept`). Where it takes the store to count the way that this one
does, or where documents are asked for by one that switches the reduce step off, the answer is right;
otherwise there is none, unless nothing matches (`Ask.right_or_fails`).
-/

namespace ViewFinder

open Store Registry

/-- Finding or counting by exact conditions, on a store that is taken to be of some release. -/
structure Ask where
  profile : Profile
  allowAdHoc : Bool := true
  /-- The names of the views that the finder has seen. -/
  known : List Value := []
  /-- Is the number of documents asked for, in place of the documents? -/
  counts : Bool
  conditions : Entries

namespace Ask

variable (e : EntityType) (a : Ask)

/-- The conditions are on clear names, and each is an exact JSON value. -/
structure Exact : Prop where
  names : ∀ c ∈ a.conditions, c.1.isIdentifier = true
  clear : ∀ c ∈ a.conditions, Name.isClear c.1.text = true
  json : ∀ c ∈ a.conditions, c.2.isJson = true
  single : ∀ c ∈ a.conditions, Condition.isDiscrete c.2 = false

/-- No two of the names stand for one field. -/
def Distinct : Prop := (a.conditions.map fun c => Name.normalizeField c.1.text).Nodup

instance : Decidable a.Distinct :=
  inferInstanceAs (Decidable (a.conditions.map fun c => Name.normalizeField c.1.text).Nodup)

/-! ## Carrying it out -/

/-- What the finder of a type does. -/
def operation (f : Finder) : Dialogue (Result ⊕ Value) :=
  let options := .dict [(.str "conditions", .dict a.conditions)]
  if a.counts then do return .inr (← f.count options) else do return .inl (← f.find options)

/-- What it comes to on a store, and the store afterwards. -/
def run (m : Memory) : Except Fault (Result ⊕ Value) × Memory :=
  match Finder.ofType e a.profile a.allowAdHoc with
  | .error fault => (.error fault, m)
  | .ok f =>
    let (outcome, _, after) := (a.operation f).run Memory.answer a.known m
    (outcome, after)

/-- The store after some of them. -/
def runAll (m : Memory) (asks : List Ask) : Memory := asks.foldl (fun m a => (a.run e m).2) m

/-! ## The view it goes to -/

/-- The fields of the key. -/
def fields : List String :=
  (Query.searchFields e { conditions := .dict a.conditions }).toOption.getD []

/-- The operation that the name of the view begins with. -/
def operationName : String :=
  if a.counts then Query.countOperation a.profile else Query.findPrefix

theorem operationName_mem : a.operationName ∈ [Query.findPrefix, Query.countPrefix] := by
  rw [operationName]
  split
  · exact Query.countOperation_mem a.profile
  · exact List.mem_cons_self ..

/-- The name of the view. -/
def viewName : String := Query.viewName (a.fields e) a.operationName

/-- The view, as it is registered if it is missing. -/
def view : ViewDefinition :=
  ⟨.str (a.viewName e), .str ((Query.mapFunction e (a.fields e)).toOption.getD ""),
    Query.reduceSource a.profile⟩

/-- The first of some that go to the same view, or this one. -/
def first (earlier : List Ask) : Ask :=
  (earlier.find? fun b => b.viewName e == a.viewName e).getD a

/-- A view can answer that has been made for another: this one finds documents with the reduce step
switched off, or both take the store to count in the same way. -/
def Suits (b : Ask) : Prop :=
  (a.counts = false ∧ a.profile.reduceCounting = true) ∨
    b.profile.reduceCounting = a.profile.reduceCounting

instance (b : Ask) : Decidable (a.Suits b) := inferInstanceAs (Decidable (_ ∨ _))

/-! ## What it is to come to -/

/-- The documents that meet the conditions. -/
def matching (m : Memory) : List (String × Entries) :=
  (m.documentsOf e).filter (Condition.meets a.conditions)

/-- The outcome is what there is to tell of documents: their records, or their number. -/
def Tells (ds : List (String × Entries)) (outcome : Except Fault (Result ⊕ Value)) : Prop :=
  if a.counts then outcome = .ok (.inr (.int ds.length))
  else ∃ result, outcome = result.map .inl ∧ e.Yields result ds

/-- The outcome is right on a store: it tells of the documents that meet the conditions. -/
def Right (m : Memory) (outcome : Except Fault (Result ⊕ Value)) : Prop :=
  ∃ found, found.Perm (a.matching e m) ∧ a.Tells e found outcome

/-! ## The query -/

/-- The query that it comes to goes to its view, with the parameters of its key, and switches the reduce
step off only to find where the store counts by one. -/
structure Compiled (q : CompiledQuery) : Prop where
  compiled : (if a.counts then Query.count else Query.find) e a.profile
    { conditions := .dict a.conditions } = .ok q
  view : q.view = a.view e
  own : IsOwn e a.profile (a.fields e) q.view
  designName : e.designName = .ok q.designName
  fallbackKeys : q.fallbackKeys = .list []
  slow : q.slow = .bool false
  reduced : a.counts = true → q.reduced = .bool a.profile.reduceCounting
  runs : ∀ reduce, Index.runsReduce reduce q.params =
    (reduce.truthy && (a.counts || !a.profile.reduceCounting))
  answer : ∀ (documents : Entries) (source : Value) (rows : List Row) (reduce : Value),
    Index.ofDocuments source documents = .ok rows →
    Index.answer documents source reduce q.params = .ok
      (if Index.runsReduce reduce q.params then .dict [(.str "rows",
          .list (Query.countRows (Query.exactRows a.conditions rows).length))]
      else Window.response rows.length 0 ((Query.exactRows a.conditions rows).map Row.toValue))

section
variable {e a} {designName : String}

theorem Exact.givesClear (h : a.Exact) :
    ({ conditions := .dict a.conditions } : Options).GivesClear := by
  intro names hnames v hv
  cases hnames
  obtain ⟨c, hc, rfl⟩ := List.mem_map.1 hv
  exact h.clear c hc

/-- There is a key, whatever the conditions. -/
theorem searchFields_eq (e : EntityType) (a : Ask) :
    Query.searchFields e { conditions := .dict a.conditions } = .ok (a.fields e) := by
  have hgiven : Query.givenNames { conditions := .dict a.conditions } =
      .ok (a.conditions.map (·.1)) := rfl
  obtain ⟨names, hnames, -⟩ := Query.exists_searchFields e hgiven
  rw [fields, hnames]
  rfl

/-- There is such a query. -/
theorem Exact.exists_compiled (h : a.Exact) (he : e.HasIdentifiers) : ∃ q, a.Compiled e q := by
  obtain ⟨⟨params, hvalues, hget⟩, hr, hsel⟩ :=
    Query.exists_params_of_exact (p := a.profile) h.json h.single
  have hfields := searchFields_eq e a
  have hnone : params.get? "reduce" = none := by
    rw [hget, hr.unreduced, Query.get?_windowParams_of_not_mem _ _ (by decide)]
    rfl
  have hfallback : ((Query.exactBase a.conditions).get? Query.fallbackParam).getD (.list []) =
      .list [] := by
    rw [Query.get?_exactBase_of_ne (by decide)]
    rfl
  let s : Setting := { profile := a.profile, designName := "" }
  have hmake {q : CompiledQuery} (hq : (if a.counts then Query.count else Query.find) e a.profile
        { conditions := .dict a.conditions } = .ok q)
      (hcompiles : Query.Compiles q e s.profile { conditions := .dict a.conditions }
        a.operationName (a.fields e)
        (Query.exactBase a.conditions))
      (hreduced : a.counts = true → q.reduced = .bool a.profile.reduceCounting)
      (hruns : q.params.get? "reduce" =
        if a.counts || !a.profile.reduceCounting then none else some (.bool false)) :
      a.Compiled e q := by
    have hcompiled : Query.find e a.profile { conditions := .dict a.conditions } = .ok q ∨
        Query.count e a.profile { conditions := .dict a.conditions } = .ok q := by
      cases hcounts : a.counts with
      | true => exact .inr (by rwa [hcounts] at hq)
      | false => exact .inl (by rwa [hcounts] at hq)
    obtain ⟨fields, hfields', -, -, hown⟩ := Query.isOwn_of_compiled h.givesClear hcompiled
    cases hfields.symm.trans hfields'
    obtain ⟨source, hsource, hmap⟩ := hcompiles.mapSource
    refine ⟨hq, ?_, hown, hcompiles.designName, hcompiles.fallbackKeys.trans hfallback, hcompiles.slow,
      hreduced, fun reduce => ?_, fun documents source rows reduce hrows =>
        hcompiles.answer_exact hr hsel hrows reduce⟩
    · rw [CompiledQuery.view, view, hcompiles.viewName, hmap, hcompiles.reduceSource, hsource]
      rfl
    · rw [Index.runsReduce, hruns]
      cases reduce.truthy <;> cases a.counts <;> cases a.profile.reduceCounting <;> rfl
  cases hcounts : a.counts with
  | true =>
    obtain ⟨q, hq, hcompiles, -⟩ := Query.exists_count he.isTagged he.exists_name hget hfields hvalues
      hr.unreduced
    obtain ⟨hreduce, hreduced⟩ := Query.get?_reduce_of_count hq hvalues
    refine ⟨q, hmake (by rwa [hcounts]) ?_ (fun _ => hreduced) ?_⟩
    · rw [operationName, hcounts]
      exact hcompiles
    · rw [hreduce, hnone, hcounts]
      rfl
  | false =>
    obtain ⟨q, hq, hcompiles, -⟩ := Query.exists_find he.isTagged he.exists_name hget hfields hvalues
    have hreduce := Query.get?_reduce_of_find hq hvalues
    rw [hnone] at hreduce
    refine ⟨q, hmake (by rwa [hcounts]) ?_ (fun h => ?_) ?_⟩
    · rw [operationName, hcounts]
      exact hcompiles
    · rw [hcounts] at h
      cases h
    · rw [hreduce, hcounts]
      cases a.profile.reduceCounting <;> rfl

/-- Exact conditions on views of one name are on the same fields, for the same operation. -/
theorem Compiled.eq_of_viewName {b : Ask} {q r : CompiledQuery} (h : a.Compiled e q)
    (h' : b.Compiled e r) (hname : a.viewName e = b.viewName e) :
    a.operationName = b.operationName ∧ a.fields e = b.fields e :=
  Query.eq_of_viewName_eq h.own.key.clear h'.own.key.clear a.operationName_mem b.operationName_mem
    hname

end

/-! ## Reading a response -/

/-- What is told by the response to the query. -/
def told (response : Value) : Except Fault (Result ⊕ Value) :=
  if a.counts then
    ((if a.profile.reduceCounting then Count.reduced response else Count.rows response).map .int).map
      .inr
  else (e.materialize response (.bool false) (.bool false) .null).map .inl

/-- The rows of the response from a view that has been made for another: those of documents, or a row of
their number. -/
def responseRows (b : Ask) (rows : List Row) : List Value :=
  if b.profile.reduceCounting && (a.counts || !a.profile.reduceCounting) then
    Query.countRows rows.length
  else rows.map Row.toValue

section
variable {e a} {b : Ask} {total : Nat} {rows : List Row}

/-- What is found or counted is told by the response to the query. -/
theorem Compiled.operation_ends {q : CompiledQuery} (h : a.Compiled e q) {designName : String}
    {m after : Memory} {response : Value}
    (hends : (q.execute (Database.finderOf e designName a.profile a.allowAdHoc).setting).Ends m
      (.ok response) after) :
    (a.operation (Database.finderOf e designName a.profile a.allowAdHoc)).Ends m (a.told e response)
      after := by
  have hcompiled := h.compiled
  rw [operation, told]
  cases hcounts : a.counts with
  | true =>
    rw [hcounts] at hcompiled
    have hcount := Finder.count_conditions_ends_map
      (f := Database.finderOf e designName a.profile a.allowAdHoc) hcompiled hends
    rw [h.reduced hcounts] at hcount
    exact hcount.map _
  | false =>
    rw [hcounts] at hcompiled
    exact (Finder.find_conditions_ends
      (f := Database.finderOf e designName a.profile a.allowAdHoc) hcompiled hends).map _

/-- Only the rows of the response matter. -/
theorem told_rows (vs : List Value) :
    a.told e (.dict [(.str "rows", .list vs)]) = a.told e (Window.response total 0 vs) := by
  have hmember : (Value.dict [(.str "rows", .list vs)]).member? "rows" =
      (Window.response total 0 vs).member? "rows" := by
    rw [EntityType.member?_rows]
    simp [Value.member?, Value.entries, Except.map]
  have hrows : Count.rowsOf (.dict [(.str "rows", .list vs)]) =
      Count.rowsOf (Window.response total 0 vs) := by
    rw [Count.rowsOf_response]
    exact Count.rowsOf_eq (by simp [Value.member, Value.entries, Entries.getD, Except.map])
  rw [told, told, Count.reduced, Count.reduced, Count.rows, Count.rows, hrows,
    EntityType.materialize_congr hmember rfl]

/-- What is counted are the rows, or the number in them. -/
theorem told_of_counts (h : a.counts = true) (vs : List Value) :
    a.told e (Window.response total 0 vs) = ((if a.profile.reduceCounting then Count.sumRows vs
      else .ok vs.length).map .int).map .inr := by
  rw [told, if_pos h, Count.reduced_response, Count.rows_response]

theorem told_of_finds (h : a.counts = false) (response : Value) :
    a.told e response = (e.materialize response (.bool false) (.bool false) .null).map .inl := by
  rw [told, h, if_neg Bool.false_ne_true]

/-- Where the view suits, its response tells of the documents of the rows. -/
theorem tells_of_suits (h : a.Suits b)
    (hrows : ∀ r ∈ rows, ∃ es, r.document = .dict es ∧ (Value.dict es).isJson = true) :
    a.Tells e (rows.map Row.toDocument)
      (a.told e (Window.response total 0 (a.responseRows b rows))) := by
  rw [Tells, responseRows, List.length_map]
  cases hcounts : a.counts with
  | true =>
    have hsame : b.profile.reduceCounting = a.profile.reduceCounting :=
      h.resolve_left fun hfinds => absurd (hcounts.symm.trans hfinds.1) (by decide)
    rw [told_of_counts hcounts, hsame, Bool.true_or, Bool.and_true, if_pos rfl]
    cases a.profile.reduceCounting with
    | true =>
      rw [if_pos rfl, if_pos rfl, Query.sumRows_countRows]
      rfl
    | false =>
      rw [if_neg Bool.false_ne_true, if_neg Bool.false_ne_true, List.length_map]
      rfl
  | false =>
    have hswitched : (b.profile.reduceCounting && !a.profile.reduceCounting) = false := by
      rcases h with ⟨-, hcounting⟩ | hsame
      · rw [hcounting, Bool.not_true, Bool.and_false]
      · rw [hsame, Bool.and_not_self]
    rw [told_of_finds hcounts, Bool.false_or, hswitched, if_neg Bool.false_ne_true,
      if_neg Bool.false_ne_true]
    exact ⟨_, rfl, EntityType.yields_materialize total 0 hrows⟩

/-- A response without rows tells of no documents, whatever view it is from. -/
theorem tells_of_nil : a.Tells e [] (a.told e (Window.response total 0 (a.responseRows b []))) := by
  have hnil : a.responseRows b [] = [] := by
    rw [responseRows]
    split <;> rfl
  rw [Tells, hnil]
  cases hcounts : a.counts with
  | true =>
    rw [told_of_counts hcounts, if_pos rfl]
    split <;> rfl
  | false =>
    rw [told_of_finds hcounts, if_neg Bool.false_ne_true]
    have hnone : ∀ r ∈ ([] : List Row), ∃ es, r.document = .dict es ∧
        (Value.dict es).isJson = true := nofun
    exact ⟨_, rfl, EntityType.yields_materialize total 0 hnone⟩

/-- A document is no number. -/
theorem exists_sumRows_error {r : Row} {entry : Value × Value} {es : Entries}
    (h : r.document = .dict (entry :: es)) (vs : List Value) :
    ∃ fault, Count.sumRows (r.toValue :: vs) = .error fault := by
  have hrow : Count.ofRow r.toValue = .error .wrongKind := by
    have hmember : r.toValue.member "value" = .ok (.dict (entry :: es)) := by
      simp [Row.toValue, Value.member, Value.entries, Entries.getD, Except.map, h]
    rw [Count.ofRow, hmember]
    rfl
  exact ⟨_, by rw [Count.sumRows, hrow]; rfl⟩

/-- A number is no document. -/
theorem exists_materialize_error {n : Nat} (hn : n ≠ 0) : ∃ fault,
    e.materialize (Window.response total 0 (Query.countRows n)) (.bool false) (.bool false) .null =
      .error fault := by
  have hrequired : (Index.countRow .null n).required "value" = .ok (.int n) := by
    simp [Index.countRow, Value.required]
  obtain ⟨fault, hmade⟩ : ∃ fault, e.instantiate (.int n) = .error fault := by
    have htruthy : (Value.int n).truthy = true := by
      simpa [Value.truthy] using hn
    rw [EntityType.instantiate]
    cases e.factory with
    | document =>
      rw [Document.ofValue, Value.orElse, if_pos htruthy]
      exact ⟨_, rfl⟩
    | _ => exact ⟨_, rfl⟩
  have hrecords : e.records (Window.response total 0 (Query.countRows n)) = .error fault := by
    rw [EntityType.records, EntityType.member?_rows, Query.countRows, if_neg hn]
    simp only [bind, Except.bind, Option.getD_some, Value.items, List.mapM_cons, hrequired, hmade]
  exact ⟨fault, by rw [EntityType.materialize_eq _ rfl, hrecords]; rfl⟩

/-- Where the view does not suit, its response tells nothing of documents, if there are any. -/
theorem told_of_not_suits (h : ¬ a.Suits b)
    (hcounts : a.counts = true → a.profile.reduceCounting = false → b.profile.reduceCounting = false)
    (hrows : ∀ r ∈ rows, ∃ entry es, r.document = .dict (entry :: es)) (hne : rows ≠ []) :
    ∃ fault, a.told e (Window.response total 0 (a.responseRows b rows)) = .error fault := by
  rw [Suits, not_or, not_and, Bool.not_eq_true] at h
  obtain ⟨hfinds, hdiffer⟩ := h
  rw [responseRows]
  cases hcounted : a.counts with
  | true =>
    have ha : a.profile.reduceCounting = true := by
      by_contra hnot
      rw [Bool.not_eq_true] at hnot
      exact hdiffer ((hcounts hcounted hnot).trans hnot.symm)
    have hb : b.profile.reduceCounting = false := by
      rw [ha] at hdiffer
      exact Bool.eq_false_iff.2 hdiffer
    obtain ⟨r, rest, rfl⟩ := List.exists_cons_of_ne_nil hne
    obtain ⟨entry, es, hr⟩ := hrows r (List.mem_cons_self ..)
    obtain ⟨fault, hfault⟩ := exists_sumRows_error hr (rest.map Row.toValue)
    rw [told_of_counts hcounted, ha, hb, Bool.false_and, if_pos rfl, if_neg Bool.false_ne_true,
      List.map_cons, hfault]
    exact ⟨_, rfl⟩
  | false =>
    have ha := hfinds hcounted
    have hb : b.profile.reduceCounting = true := by
      rw [ha] at hdiffer
      simpa using hdiffer
    obtain ⟨fault, hfault⟩ : ∃ fault, e.materialize (Window.response total 0 (Query.countRows
        rows.length)) (.bool false) (.bool false) .null = .error fault :=
      exists_materialize_error (mt List.length_eq_zero_iff.1 hne)
    rw [told_of_finds hcounted, ha, hb, Bool.true_and, Bool.false_or, Bool.not_false, if_pos rfl,
      hfault]
    exact ⟨_, rfl⟩

end

/-! ## What a run keeps -/

/-- What questions keep of a store: the design document holds the view of the first one that goes to each
name, and no others. -/
structure Kept (designName : String) (start : Memory) (asks : List Ask) (m : Memory) : Prop where
  indexes : SameIndexes start m
  written : Written (fun _ => True) designName (m.documents.get? (designId designName))
  stored : ∀ name, viewIn (m.documents.get? (designId designName)) name =
    (asks.find? fun b => b.viewName e == name).map (·.view e)
  atMost : (namesIn (m.documents.get? (designId designName))).length ≤ asks.length

section
variable {e a} {designName : String} {start m : Memory} {asks : List Ask}

/-- Where there is no design document, nothing is stored. -/
theorem kept_start (habsent : start.documents.get? (designId designName) = none) :
    Kept e designName start [] start := by
  refine ⟨fun _ => rfl, ?_, fun name => ?_, ?_⟩ <;> rw [habsent]
  · exact .absent
  · rfl
  · exact Nat.le_refl 0

/-- A query is answered from the view of the first question that goes to its name, and the next one finds
what it leaves. -/
theorem Kept.execute {s : Setting} (h : Kept e s.designName start asks m) {q : CompiledQuery}
    (hq : a.Compiled e q) (he : e.HasIdentifiers) (hdesign : e.designName = .ok s.designName)
    (hfew : asks.length < 10 ^ Text.maxDigits) : ∃ after,
      (q.execute s).Ends m (Index.answer start.documents ((a.first e asks).view e).map
        ((a.first e asks).view e).reduce q.params) after ∧
      Kept e s.designName start (asks ++ [a]) after := by
  have hname : q.viewName = .str (a.viewName e) := congrArg ViewDefinition.name hq.view
  obtain ⟨name, hname', hpath⟩ := viewAt?_of_isOwn (s := s) he hdesign hq.designName hq.own
  cases hname.symm.trans hname'
  have hone : q.execute s = q.executeIndexed s := by
    rw [CompiledQuery.execute, CompiledQuery.executeOne, hq.fallbackKeys, hq.slow]
    rfl
  obtain ⟨log, result, after, -, hends, hsettled⟩ := (CompiledQuery.executeIndexed_leads h.written
    hq.own.proper trivial hname hpath).exists_ends
  have hother {name : String} (hne : a.viewName e ≠ name) :
      ((asks ++ [a]).find? fun b => b.viewName e == name) =
        asks.find? fun b => b.viewName e == name := by
    rw [List.find?_append, List.find?_cons_of_neg (by simpa using hne), List.find?_nil,
      Option.or_none]
  rw [hone]
  cases hsettled with
  | held view hview =>
    -- the first question that goes to the name has made the view
    rw [h.stored, Option.map_eq_some_iff] at hview
    obtain ⟨b, hb, rfl⟩ := hview
    rw [h.indexes.answer_eq] at hends
    refine ⟨m, ?_, h.indexes, h.written, fun name => ?_, ?_⟩
    · rw [first, hb]
      exact hends
    · rw [h.stored, List.find?_append]
      by_cases hsame : a.viewName e = name
      · rw [← hsame, hb]
        rfl
      · rw [List.find?_cons_of_neg (by simpa using hsame), List.find?_nil, Option.or_none]
    · exact Nat.le_trans h.atMost (List.length_append ▸ Nat.le_add_right ..)
  | registered hlacks got document response after hextends =>
    have hnone : (asks.find? fun b => b.viewName e == a.viewName e) = none := by
      rw [h.stored, Option.map_eq_none_iff] at hlacks
      exact hlacks
    rw [h.indexes.answer_eq] at hends
    have hview : q.view = a.view e := hq.view
    refine ⟨after, ?_, fun source => (hextends.indexes source).trans (h.indexes source),
      hextends.written, fun name => ?_, ?_⟩
    · rw [first, hnone, Option.getD_none, ← hview]
      exact hends
    · by_cases hsame : a.viewName e = name
      · subst hsame
        rw [List.find?_append, hnone, Option.none_or, List.find?_cons_of_pos (by simp)]
        exact (hextends.added.held _ hname).trans (congrArg some hview)
      · have hdiffer : q.view.name ≠ .str name := by
          rw [show q.view.name = q.viewName from rfl, hname]
          simpa using hsame
        rw [hextends.added.others name hdiffer, hother hsame]
        exact h.stored name
    · rw [hextends.added.names, List.length_append, List.length_append]
      exact Nat.add_le_add_right h.atMost 1
  | refused hlacks hmany got document e =>
    exact absurd (Nat.le_trans hmany h.atMost) (Nat.not_le_of_lt hfew)

/-- The first question that goes to a name goes to it. -/
theorem viewName_first (e : EntityType) (a : Ask) (asks : List Ask) :
    (a.first e asks).viewName e = a.viewName e := by
  rw [first]
  cases hfirst : asks.find? fun b => b.viewName e == a.viewName e with
  | none => rfl
  | some b => simpa using List.find?_some hfirst

theorem exact_first (ha : a.Exact) (hasks : ∀ b ∈ asks, b.Exact) : (a.first e asks).Exact := by
  rw [first]
  cases hfirst : asks.find? fun b => b.viewName e == a.viewName e with
  | none => exact ha
  | some b => exact hasks b (List.mem_of_find?_eq_some hfirst)

/-- A view that has been made for another on the same fields answers with the rows of the key, or with
their number. -/
theorem Compiled.exists_response {b : Ask} {q r : CompiledQuery} (h : a.Compiled e q)
    (hb : b.Compiled e r) (hname : b.viewName e = a.viewName e) (hm : start.HoldsJson)
    (he : e.HasIdentifiers) : ∃ response total,
      Index.answer start.documents (b.view e).map (b.view e).reduce q.params = .ok response ∧
      a.told e response = a.told e (Window.response total 0
        (a.responseRows b (Query.exactRows a.conditions (start.rows e (a.fields e))))) := by
  have hfields := (hb.eq_of_viewName h hname).2
  obtain ⟨fields, hsearched, hne, -⟩ := Query.exists_searchFields e
    (show Query.givenNames { conditions := .dict a.conditions } = .ok (a.conditions.map (·.1)) from rfl)
  cases hsearched.symm.trans (searchFields_eq e a)
  obtain ⟨source, hsource, hread⟩ := Query.ofSource_mapFunction he.isTagged h.own.key.isIdentifier hne
  have hmap : (b.view e).map = .str source := by
    rw [Ask.view, hfields, hsource]
    rfl
  have hreduce : (b.view e).reduce.truthy = b.profile.reduceCounting := by
    rw [Ask.view, Query.reduceSource]
    cases b.profile.reduceCounting <;> rfl
  have hanswer := h.answer start.documents (.str source) _ (b.view e).reduce
    (hm.ofDocuments_eq he.isTagged hread)
  rw [h.runs, hreduce] at hanswer
  rw [hmap]
  refine ⟨_, (start.rows e (a.fields e)).length, hanswer, ?_⟩
  rw [responseRows]
  split
  · exact told_rows _
  · rfl

/-- What is found or counted is told by the rows of the view, and the next question finds what it leaves. -/
theorem Kept.run (h : Kept e designName start asks m) (hm : start.HoldsJson)
    (he : e.HasIdentifiers) (hdesign : e.designName = .ok designName) (ha : a.Exact)
    (hasks : ∀ b ∈ asks, b.Exact) (hfew : asks.length < 10 ^ Text.maxDigits) :
    (∃ total, (a.run e m).1 = a.told e (Window.response total 0 (a.responseRows (a.first e asks)
      (Query.exactRows a.conditions (start.rows e (a.fields e)))))) ∧
    Kept e designName start (asks ++ [a]) (a.run e m).2 := by
  obtain ⟨q, hq⟩ := ha.exists_compiled he
  obtain ⟨r, hr⟩ := (exact_first ha hasks (e := e)).exists_compiled he
  obtain ⟨response, total, hanswer, htold⟩ := hq.exists_response hr (viewName_first e a asks) hm he
  obtain ⟨after, hends, hkept⟩ := h.execute
    (s := (Database.finderOf e designName a.profile a.allowAdHoc).setting) hq he hdesign hfew
  rw [hanswer] at hends
  obtain ⟨seen, hrun⟩ := hq.operation_ends hends a.known
  have hfinder : Finder.ofType e a.profile a.allowAdHoc =
      .ok (Database.finderOf e designName a.profile a.allowAdHoc) := by
    rw [Finder.ofType, hdesign]
    rfl
  have hresult : a.run e m = (a.told e response, after) := by
    rw [Ask.run, hfinder]
    simp only [hrun]
  rw [hresult]
  exact ⟨⟨total, htold⟩, hkept⟩

theorem runAll_append (e : EntityType) (m : Memory) (asks : List Ask) (a : Ask) :
    runAll e m (asks ++ [a]) = (a.run e (runAll e m asks)).2 := by
  rw [runAll, List.foldl_append]
  rfl

/-- Every run keeps it. -/
theorem kept_runAll (hm : start.HoldsJson) (he : e.HasIdentifiers)
    (hdesign : e.designName = .ok designName)
    (habsent : start.documents.get? (designId designName) = none) (hasks : ∀ b ∈ asks, b.Exact)
    (hfew : asks.length < 10 ^ Text.maxDigits) :
    Kept e designName start asks (runAll e start asks) := by
  induction asks using List.reverseRecOn with
  | nil => exact kept_start habsent
  | append_singleton asks a ih =>
    rw [List.length_append] at hfew
    have hfewer : asks.length < 10 ^ Text.maxDigits := Nat.lt_of_le_of_lt (Nat.le_add_right _ 1) hfew
    obtain ⟨hasks, ha⟩ := List.forall_mem_append.1 hasks
    rw [runAll_append]
    exact ((ih hasks hfewer).run hm he hdesign (ha a (List.mem_singleton_self a)) hasks hfewer).2

end

/-! ## Whether the outcome is right -/

section
variable {e a} {start : Memory} (he : e.HasIdentifiers) (hm : start.HoldsJson)

/-- Only counting by rows makes a view of its own, without a reduce function. -/
theorem reduceCounting_of_viewName {b : Ask} {q r : CompiledQuery} (h : a.Compiled e q)
    (hb : b.Compiled e r) (hname : b.viewName e = a.viewName e) (hcounts : a.counts = true)
    (hcounting : a.profile.reduceCounting = false) : b.profile.reduceCounting = false := by
  have hsame := (hb.eq_of_viewName h hname).1
  rw [operationName, operationName, hcounts, if_pos rfl, Query.countOperation, Query.countOperation,
    hcounting] at hsame
  cases hb : b.profile.reduceCounting with
  | false => rfl
  | true =>
    rw [hb] at hsame
    revert hsame
    cases b.counts <;> decide

include he hm

/-- The rows of the key are those of documents, and a document of the type is not empty. -/
theorem exists_document_of_mem {fields : List String} {r : Row}
    (hr : r ∈ Query.exactRows a.conditions (start.rows e fields)) :
    ∃ entry es, r.document = .dict (entry :: es) ∧ (Value.dict (entry :: es)).isJson = true := by
  have hmem : r ∈ start.rows e fields := by
    rw [Query.exactRows] at hr
    split at hr
    · exact hr
    · exact List.mem_of_mem_filter hr
  obtain ⟨d, hd, rfl⟩ := hm.exists_of_mem_rows hmem
  obtain ⟨entry, es, hes⟩ := List.exists_cons_of_ne_nil (EntityType.ne_nil_of_isType he.isTagged (Memory.isType_of_mem_documentsOf hd))
  exact ⟨entry, es, by rw [Row.ofDocument, hes], hes ▸ hm.isJson_of_mem hd⟩

end

/-- Exact conditions on clear names, each found or counted by a finder that takes the store to be of some
release, go to views that earlier ones may have made. The outcome is right if nothing matches, or if no
two names stand for one field and the view has been made for one that suits. Otherwise there is none,
but for two names of one field: then nothing is found. -/
theorem right_or_fails {e : EntityType} {designName : String} {start : Memory} {earlier : List Ask}
    {a : Ask} (hm : start.HoldsJson) (he : e.HasIdentifiers)
    (hdesign : e.designName = .ok designName)
    (habsent : start.documents.get? (designId designName) = none) (hearlier : ∀ b ∈ earlier, b.Exact)
    (ha : a.Exact) :
    10 ^ Text.maxDigits ≤ earlier.length ∨
    ((a.matching e start = [] ∨ (a.Distinct ∧ a.Suits (a.first e earlier)) →
        a.Right e start (a.run e (runAll e start earlier)).1) ∧
      (a.Distinct → a.matching e start ≠ [] → ¬ a.Suits (a.first e earlier) →
        ∃ fault, (a.run e (runAll e start earlier)).1 = .error fault) ∧
      (¬ a.Distinct → a.Tells e [] (a.run e (runAll e start earlier)).1)) := by
  by_cases hmany : 10 ^ Text.maxDigits ≤ earlier.length
  · exact .inl hmany
  have hfew := Nat.lt_of_not_le hmany
  obtain ⟨⟨total, hrun⟩, -⟩ := (kept_runAll hm he hdesign habsent hearlier hfew).run hm he hdesign ha
    hearlier hfew
  have hfields := searchFields_eq e a
  have hnone (hrepeated : ¬ a.Distinct) :
      Query.exactRows a.conditions (start.rows e (a.fields e)) = [] :=
    Query.exactRows_of_not_nodup ha.json hfields hm ha.names hrepeated
  have hperm (hdistinct : a.Distinct) :
      ((Query.exactRows a.conditions (start.rows e (a.fields e))).map Row.toDocument).Perm
        (a.matching e start) :=
    Query.exactRows_perm ha.json hfields hm ha.single ha.names hdistinct
  have hdocument {r : Row} (hr : r ∈ Query.exactRows a.conditions (start.rows e (a.fields e))) :=
    exists_document_of_mem he hm hr
  generalize Query.exactRows a.conditions (start.rows e (a.fields e)) = rows at hrun hnone hperm hdocument
  rw [hrun]
  refine .inr ⟨fun h => ?_, fun hdistinct hne hunsuited => ?_, fun hrepeated => ?_⟩
  · by_cases hdistinct : a.Distinct
    · rcases h with hempty | ⟨-, hsuits⟩
      · have hrows := hperm hdistinct
        rw [hempty, List.perm_nil, List.map_eq_nil_iff] at hrows
        rw [hrows]
        exact ⟨[], .of_eq hempty.symm, tells_of_nil⟩
      · exact ⟨_, hperm hdistinct, tells_of_suits hsuits fun r hr => by
          obtain ⟨entry, es, hes, hjson⟩ := hdocument hr
          exact ⟨_, hes, hjson⟩⟩
    · have hempty := h.resolve_right fun h => hdistinct h.1
      rw [hnone hdistinct]
      exact ⟨[], .of_eq hempty.symm, tells_of_nil⟩
  · obtain ⟨q, hq⟩ := ha.exists_compiled he
    obtain ⟨r, hr⟩ := (exact_first ha hearlier (e := e)).exists_compiled he
    refine told_of_not_suits hunsuited
      (reduceCounting_of_viewName hq hr (viewName_first e a earlier)) (fun r hr => ?_) ?_
    · obtain ⟨entry, es, hes, -⟩ := hdocument hr
      exact ⟨entry, es, hes⟩
    · rintro rfl
      exact hne (List.nil_perm.1 (hperm hdistinct))
  · rw [hnone hrepeated]
    exact tells_of_nil

/-! ## People by their grade, before and after an upgrade -/

/-- People of a grade are found or counted on a store of some release. -/
def gradeAsked (minor : Nat) (counts : Bool) : Ask :=
  { profile := ⟨{ minor }⟩, counts, conditions := byGrade }

theorem exact_gradeAsked (minor : Nat) (counts : Bool) : (gradeAsked minor counts).Exact :=
  ⟨List.forall_mem_singleton.2 (by decide), List.forall_mem_singleton.2 (by decide),
    List.forall_mem_singleton.2 rfl, List.forall_mem_singleton.2 rfl⟩

theorem right_or_fails_people :
    (∃ fault, ((gradeAsked 9 true).run person (runAll person people [gradeAsked 8 false])).1 =
      .error fault) ∧
    (gradeAsked 9 false).Right person people
      ((gradeAsked 9 false).run person (runAll person people [gradeAsked 8 false])).1 := by
  have hearlier : ∀ b ∈ [gradeAsked 8 false], b.Exact :=
    List.forall_mem_singleton.2 (exact_gradeAsked 8 false)
  have hfew : ¬ 10 ^ Text.maxDigits ≤ [gradeAsked 8 false].length := Nat.not_le_of_lt <|
    Nat.lt_trans (show 1 < Text.maxDigits by decide) (Nat.lt_pow_self (by decide))
  have hcount := (right_or_fails holdsJson_people hasIdentifiers_person rfl (absent_people _)
    hearlier (exact_gradeAsked 9 true)).resolve_left hfew
  have hfind := (right_or_fails holdsJson_people hasIdentifiers_person rfl (absent_people _)
    hearlier (exact_gradeAsked 9 false)).resolve_left hfew
  exact ⟨hcount.2.1 (by decide) (by decide +kernel) (by decide +kernel),
    hfind.1 (.inr ⟨by decide, by decide +kernel⟩)⟩

/-- People who were found before an upgrade are not counted after it, and those found after an upgrade are
not found before it. -/
theorem not_right_people :
    ¬ (gradeAsked 9 true).Right person people
      ((gradeAsked 9 true).run person (runAll person people [gradeAsked 8 false])).1 ∧
    ¬ (gradeAsked 8 false).Right person people
      ((gradeAsked 8 false).run person (runAll person people [gradeAsked 9 false])).1 := by
  constructor
  · rintro ⟨found, -, htells⟩
    have hfails : ((gradeAsked 9 true).run person (runAll person people [gradeAsked 8 false])).1.isOk =
        false := by decide +kernel
    rw [Tells, if_pos (by rfl)] at htells
    rw [htells] at hfails
    cases hfails
  · rintro ⟨found, -, htells⟩
    have hfails : ((gradeAsked 8 false).run person (runAll person people [gradeAsked 9 false])).1.isOk =
        false := by decide +kernel
    rw [Tells, if_neg (by decide)] at htells
    obtain ⟨result, houtcome, hyields⟩ := htells
    obtain ⟨rs, hrs, -⟩ := hyields.byDefault rfl
    rw [houtcome, hrs] at hfails
    cases hfails

end Ask

end ViewFinder
