import ViewFinder.Proofs.Finder
import ViewFinder.Proofs.Registry.OwnViews

/-!
# Every query has an index of its own

The calls of one finder are carried out one after the other on a store whose design document is absent
at first (`Finder.IsCall`). If the names that the calls give are clear, every view that is ever in the
design document is one that a query of the type has registered, under a name that only its own fields
have; so a query is answered from a view that emits just the fields of its key (`own_index_of_run`).
-/

namespace ViewFinder

open Store

namespace Query

/-! ## The view of a compiled query -/

section
variable {e : EntityType} {p : Profile} {o : Options} {q : CompiledQuery}

/-- A query that is built goes to the view of its fields. -/
theorem view_of_build {operation : String} {fields : List String} {reduce : Value}
    {params : Entries} {reduced : Bool}
    (h : build e o operation fields reduce params reduced = .ok q) :
    ∃ source, mapFunction e fields = .ok source ∧ e.designName = .ok q.designName ∧
      q.view = ⟨.str (viewName fields operation), .str source, reduce⟩ := by
  cases hdesign : e.designName with
  | error fault =>
    rw [build, hdesign] at h
    cases h
  | ok designName =>
    cases hsource : mapFunction e fields with
    | error fault =>
      rw [build, hdesign, hsource] at h
      cases h
    | ok source =>
      rw [build_eq hdesign hsource] at h
      cases h
      exact ⟨source, rfl, rfl, rfl⟩

/-- A query that finds documents goes to the view of its search fields. -/
theorem view_of_find (h : find e p o = .ok q) :
    ∃ fields source, searchFields e o = .ok fields ∧ mapFunction e fields = .ok source ∧
      e.designName = .ok q.designName ∧
        q.view = ⟨.str (viewName fields findPrefix), .str source, reduceSource p⟩ := by
  cases hfields : searchFields e o with
  | error fault =>
    rw [find, hfields] at h
    cases h
  | ok fields =>
    cases hvalues : searchValues p o with
    | error fault =>
      rw [find, hfields, hvalues] at h
      cases h
    | ok params =>
      rw [find, hfields, hvalues] at h
      rw [reduceSource]
      cases hcounting : p.reduceCounting with
      | true =>
        rw [hcounting] at h
        obtain ⟨source, hsource, hdesign, hview⟩ := view_of_build h
        exact ⟨fields, source, rfl, hsource, hdesign, hview⟩
      | false =>
        rw [hcounting] at h
        obtain ⟨source, hsource, hdesign, hview⟩ := view_of_build h
        exact ⟨fields, source, rfl, hsource, hdesign, hview⟩

/-- A query that counts documents goes to the same view where the store counts by a reduce step, else to
one of its own. -/
theorem view_of_count (h : count e p o = .ok q) :
    ∃ fields source, searchFields e o = .ok fields ∧ mapFunction e fields = .ok source ∧
      e.designName = .ok q.designName ∧
        q.view = ⟨.str (viewName fields (countOperation p)), .str source, reduceSource p⟩ := by
  cases hfields : searchFields e o with
  | error fault =>
    rw [count, hfields] at h
    cases h
  | ok fields =>
    cases hvalues : searchValues p o with
    | error fault =>
      rw [count, hfields, hvalues] at h
      cases h
    | ok params =>
      rw [count, hfields, hvalues] at h
      rw [reduceSource, countOperation]
      cases hcounting : p.reduceCounting with
      | true =>
        rw [hcounting] at h
        obtain ⟨source, hsource, hdesign, hview⟩ := view_of_build h
        exact ⟨fields, source, rfl, hsource, hdesign, hview⟩
      | false =>
        rw [hcounting] at h
        obtain ⟨source, hsource, hdesign, hview⟩ := view_of_build h
        exact ⟨fields, source, rfl, hsource, hdesign, hview⟩

/-- A query that finds or counts documents goes to the view of its search fields. -/
theorem view_of_compiled (h : find e p o = .ok q ∨ count e p o = .ok q) :
    ∃ fields source operation, searchFields e o = .ok fields ∧ mapFunction e fields = .ok source ∧
      operation ∈ [findPrefix, countPrefix] ∧ e.designName = .ok q.designName ∧
        q.view = ⟨.str (viewName fields operation), .str source, reduceSource p⟩ := by
  rcases h with h | h
  · obtain ⟨fields, source, hfields, hsource, hdesign, hview⟩ := view_of_find h
    exact ⟨fields, source, findPrefix, hfields, hsource, by decide, hdesign, hview⟩
  · obtain ⟨fields, source, hfields, hsource, hdesign, hview⟩ := view_of_count h
    exact ⟨fields, source, countOperation p, hfields, hsource, countOperation_mem p, hdesign, hview⟩

/-- The path of the view of some fields leads to it, unless a slash in a field cuts its name off. -/
theorem viewAt?_viewPath (he : e.name.isHyphenated = true) {s : Setting}
    (hdesign : e.designName = .ok s.designName) (hsame : e.designName = .ok q.designName)
    {operation : String} (ho : operation ∈ [findPrefix, countPrefix]) {fields : List String}
    (hfields : ∀ f ∈ fields, '/' ∉ f.toList) (hname : q.viewName = .str (viewName fields operation)) :
    Memory.viewAt? (q.viewPath s.profile) = some (s.designName, viewName fields operation) := by
  rw [hdesign, Except.ok.injEq] at hsame
  have hprefixes : ∀ operation ∈ [findPrefix, countPrefix], '/' ∉ operation.toList := by decide
  have hslash := not_mem_viewName (by decide) hfields (hprefixes operation ho)
  have hpath := s.profile.viewAt?_viewPath (not_mem_designName he hdesign (by decide))
    (List.splitOn_eq_singleton hslash)
  rw [String.ofList_toList] at hpath
  rw [CompiledQuery.viewPath, ← hsame, hname]
  exact hpath

/-- If the names that the options give are clear, it is one that the queries of the type register. -/
theorem isOwn_of_compiled (hclear : o.GivesClear) (h : find e p o = .ok q ∨ count e p o = .ok q) :
    ∃ fields, searchFields e o = .ok fields ∧ fields ≠ [] ∧ e.designName = .ok q.designName ∧
      Registry.IsOwn e p fields q.view := by
  obtain ⟨fields, source, operation, hfields, hsource, ho, hdesign, hview⟩ := view_of_compiled h
  obtain ⟨hkey, hne⟩ := isKey_searchFields hclear hfields
  rw [hview]
  exact ⟨fields, hfields, hne, hdesign, hkey, ⟨operation, ho, rfl⟩, ⟨source, hsource, rfl⟩, rfl⟩

end

end Query

/-! ## What queries keep -/

section
variable {id : String} {I : Option Value → Prop}

namespace CompiledQuery

variable {q : CompiledQuery} {s : Setting}

theorem keeps_executeIndexed (h : (Registry.ensure s.designName q.view).Keeps id I) :
    (q.executeIndexed s).Keeps id I := by
  rw [executeIndexed_eq]
  refine Dialogue.keeps_ask (fun _ => rfl) fun answer => ?_
  cases hmissed : missed answer with
  | true =>
    rw [settling_of_missed hmissed]
    exact h.bind fun _ => Dialogue.keeps_request fun _ => rfl
  | false =>
    rw [settling_of_not_missed hmissed]
    exact Dialogue.keeps_done _

theorem keeps_executeOne (h : (Registry.ensure s.designName q.view).Keeps id I) :
    (q.executeOne s).Keeps id I := by
  rw [executeOne]
  split
  · rw [executeAdHoc]
    split
    · exact Dialogue.keeps_request fun _ => rfl
    · exact Dialogue.keeps_done _
  · exact keeps_executeIndexed h

/-- Several queries keep what making sure of each of their views keeps. -/
theorem keeps_gather {qs : List CompiledQuery}
    (h : ∀ q ∈ qs, (Registry.ensure s.designName q.view).Keeps id I) :
    ∀ seen, (gather s seen qs).Keeps id I := by
  induction qs with
  | nil => exact fun _ => Dialogue.keeps_done _
  | cons q qs ih =>
    obtain ⟨hq, hqs⟩ := List.forall_mem_cons.1 h
    intro seen
    rw [gather]
    refine (keeps_executeOne hq).bind fun response => Dialogue.keeps_lift fun rows _ =>
      Dialogue.keeps_lift fun fresh _ => ?_
    exact (ih hqs _).bind fun _ => Dialogue.keeps_done _

/-- All that a query asks for goes through its own view. -/
theorem keeps_execute (h : (Registry.ensure s.designName q.view).Keeps id I) :
    (q.execute s).Keeps id I := by
  rw [execute]
  split
  · rw [executePerKey]
    refine Dialogue.keeps_lift fun limit _ => Dialogue.keeps_lift fun skip _ =>
      Dialogue.keeps_lift fun qs hqs => ?_
    refine (keeps_gather (List.forall_mem_map.2 fun r hr => ?_) _).bind fun _ =>
      Dialogue.keeps_done _
    cases hitems : q.fallbackKeys.items with
    | error fault =>
      rw [perKey, hitems] at hqs
      cases hqs
    | ok keys =>
      rw [perKey, hitems] at hqs
      cases hqs
      obtain ⟨key, -, rfl⟩ := List.mem_map.1 hr
      exact h
  · exact keeps_executeOne h

end CompiledQuery

namespace Finder

variable {f : Finder} {o : Options}

theorem keeps_findWith (h : ∀ q, Query.find f.entityType f.profile o = .ok q →
    (q.execute f.setting).Keeps id I) : (f.findWith o).Keeps id I := by
  rw [findWith]
  refine Dialogue.keeps_lift fun q hq => ?_
  exact (h q hq).bind fun _ => Dialogue.keeps_done _

theorem keeps_countWith (h : ∀ q, Query.count f.entityType f.profile
      { o with limit := .null, offset := .null } = .ok q → (q.execute f.setting).Keeps id I) :
    (f.countWith o).Keeps id I := by
  rw [countWith]
  refine Dialogue.keeps_lift fun q hq => (h q hq).bind fun response => ?_
  split
  · exact Dialogue.keeps_lift fun _ _ => Dialogue.keeps_done _
  · exact Dialogue.keeps_lift fun _ _ => Dialogue.keeps_done _

/-- Loading a document by its id changes no document. -/
theorem keeps_get (id' options : Value) : (f.get id' options).Keeps id I := by
  rw [get]
  refine Dialogue.keeps_lift fun o _ => ?_
  rw [getWith]
  have hrequest : (Dialogue.request (.get id')).Keeps id I := Dialogue.keeps_request fun _ => rfl
  -- what follows the request makes no other, whichever check fails
  refine hrequest.bind fun raw => Dialogue.keeps_lift fun accepted _ => ?_
  refine Dialogue.keeps_ite ?_ (Dialogue.keeps_done _)
  refine Dialogue.keeps_lift fun record _ => Dialogue.keeps_lift fun attributes _ =>
    Dialogue.keeps_lift fun conditions _ => ?_
  refine Dialogue.keeps_ite ?_ (Dialogue.keeps_done _)
  exact Dialogue.keeps_ite (Dialogue.keeps_done _) (Dialogue.keeps_done _)

end Finder

end

namespace Finder

/-! ## Calls -/

/-- A call that asks for documents, or for their number. -/
inductive Call where
  | find (options : Value)
  | count (options : Value)
  | first (options : Value)
  | last (options : Value)
  | getMany (ids options : Value)
  | «exists» (idOrConditions : Value)

/-- What a finder does when it is called, whatever the result. -/
def Call.carryOut (f : Finder) : Call → Dialogue Unit
  | .find options => do
    let _ ← f.find options
    return ()
  | .count options => do
    let _ ← f.count options
    return ()
  | .first options => do
    let _ ← f.first options
    return ()
  | .last options => do
    let _ ← f.last options
    return ()
  | .getMany ids options => do
    let _ ← f.getMany ids options
    return ()
  | .exists idOrConditions => do
    let _ ← f.exists idOrConditions
    return ()

/-- The names that a call gives for the key of a query are clear. Several documents are asked for by
their ids alone. -/
def Call.GivesClear : Call → Prop
  | .find options | .count options | .first options | .last options =>
    ∀ o, Options.ofValue options = .ok o → o.GivesClear
  | .getMany _ _ => True
  | .exists (.dict conditions) => ({ conditions := .dict conditions } : Options).GivesClear
  | .exists _ => True

/-- The calls of a finder that give clear names. -/
def IsCall (f : Finder) (d : Dialogue Unit) : Prop :=
  ∃ call : Call, call.GivesClear ∧ d = call.carryOut f

section
variable {f : Finder} {o : Options}

/-- What is kept of the design document of a finder. -/
def KeepsOwn {α : Type} (f : Finder) (d : Dialogue α) : Prop :=
  d.Keeps (Registry.designId f.designName) (Registry.Own f.entityType f.profile f.designName)

/-- A compiled query adds its own view at most. -/
theorem keepsOwn_execute (hclear : o.GivesClear) {q : CompiledQuery}
    (h : Query.find f.entityType f.profile o = .ok q ∨
      Query.count f.entityType f.profile o = .ok q) : f.KeepsOwn (q.execute f.setting) := by
  obtain ⟨fields, -, -, -, hview⟩ := Query.isOwn_of_compiled hclear h
  exact CompiledQuery.keeps_execute hview.keeps_ensure

theorem keepsOwn_findWith (hclear : o.GivesClear) : f.KeepsOwn (f.findWith o) :=
  keeps_findWith fun _ hq => keepsOwn_execute hclear (.inl hq)

theorem keepsOwn_endWith (hclear : o.GivesClear) (descending : Bool) :
    f.KeepsOwn (f.endWith o descending) := by
  have hend (o : Options) (hclear : o.GivesClear) : f.KeepsOwn (do (← f.findWith o).first?) :=
    (keepsOwn_findWith hclear).bind fun _ => Dialogue.keeps_done _
  rw [endWith]
  cases descending <;> exact hend _ hclear

theorem keepsOwn_first {options : Value}
    (hclear : ∀ o, Options.ofValue options = .ok o → o.GivesClear) : f.KeepsOwn (f.first options) :=
  Dialogue.keeps_lift fun o ho => keepsOwn_endWith (hclear o ho) false

theorem keepsOwn_getMany (ids options : Value) : f.KeepsOwn (f.getMany ids options) := by
  rw [getMany]
  refine Dialogue.keeps_lift fun items _ => ?_
  cases Value.distinct Value.sameItem (items.filter (!·.isNull)) with
  | nil => exact Dialogue.keeps_done _
  | cons first rest =>
    cases rest with
    | nil => exact (keeps_get _ _).bind fun _ => Dialogue.keeps_done _
    | cons second rest =>
      refine Dialogue.keeps_lift fun o _ => keepsOwn_findWith fun names hnames v hv => ?_
      cases hnames
      rw [List.mem_singleton.1 hv]
      show Name.isClear Name.idField = true
      decide

theorem keepsOwn_exists {idOrConditions : Value}
    (hclear : (Call.exists idOrConditions).GivesClear) : f.KeepsOwn (f.exists idOrConditions) := by
  have hget (id : Value) : f.KeepsOwn (Dialogue.recover
      (fun e => if e.isNotFound then return false else throw e) do
        let _ ← f.get id .null
        return true) := by
    refine Dialogue.Keeps.recover ((keeps_get _ _).bind fun _ => Dialogue.keeps_done _) fun e => ?_
    exact Dialogue.keeps_ite (Dialogue.keeps_done _) (Dialogue.keeps_done _)
  cases idOrConditions with
  | dict conditions =>
    refine (keepsOwn_first fun o ho => ?_).bind fun record => ?_
    · rw [Options.ofValue_conditions] at ho
      cases ho
      exact hclear
    · cases record <;> exact Dialogue.keeps_done _
  | _ => exact hget _

/-- A call adds to the design document views of the type at most. -/
theorem keepsOwn_of_isCall {d : Dialogue Unit} (h : f.IsCall d) : f.KeepsOwn d := by
  obtain ⟨call, hclear, rfl⟩ := h
  have hend {α : Type} {d : Dialogue α} (hd : f.KeepsOwn d) :
      f.KeepsOwn (do let _ ← d; return ()) := hd.bind fun _ => Dialogue.keeps_done _
  cases call with
  | find options =>
    exact hend (Dialogue.keeps_lift fun o ho => keepsOwn_findWith (hclear o ho))
  | count options =>
    refine hend (Dialogue.keeps_lift fun o ho => keeps_countWith fun q hq => ?_)
    have hwindow : ({ o with limit := .null, offset := .null } : Options).GivesClear := hclear o ho
    exact keepsOwn_execute hwindow (.inr hq)
  | first options => exact hend (keepsOwn_first hclear)
  | last options =>
    exact hend (Dialogue.keeps_lift fun o ho => keepsOwn_endWith (hclear o ho) true)
  | getMany ids options => exact hend (keepsOwn_getMany ids options)
  | «exists» idOrConditions => exact hend (keepsOwn_exists hclear)

end

end Finder

/-! ## Every query has an index of its own -/

open Query Registry

section
variable {e : EntityType} {p : Profile} {designName : String} {m : Memory}

/-- Each view that only queries have written has its own fields in its name. -/
theorem exists_key_of_own (hown : Own e p designName (m.documents.get? (designId designName)))
    {name body : Value} (hb : (name, body) ∈ bodiesIn (m.documents.get? (designId designName))) :
    ∃ fields operation source, IsKey fields ∧ operation ∈ [findPrefix, countPrefix] ∧
      name = .str (viewName fields operation) ∧
      (∀ others other, IsKey others → other ∈ [findPrefix, countPrefix] →
        name = .str (viewName others other) → others = fields ∧ other = operation) ∧
      mapFunction e fields = .ok source ∧
      body = .dict ((.str "map", .str source) ::
        if p.reduceCounting then [(.str "reduce", .str countReduce)] else []) := by
  cases hdocument : m.documents.get? (designId designName) with
  | none =>
    rw [hdocument] at hb
    cases hb
  | some document =>
    rw [hdocument] at hown hb
    cases hown with
    | stored bodies h =>
      rw [(h.sound designName).bodiesIn_eq] at hb
      obtain ⟨view, -, ⟨fields, hview⟩, heq⟩ := h.written _ hb
      cases heq
      obtain ⟨operation, ho, hname⟩ := hview.name
      obtain ⟨source, hsource, hbody⟩ := hview.body_eq
      refine ⟨fields, operation, source, hview.key, ho, hname, fun others other hkey ho' heq => ?_,
        hsource, hbody⟩
      rw [hname, Value.str.injEq] at heq
      obtain ⟨rfl, rfl⟩ := eq_of_viewName_eq hview.key.clear hkey.clear ho ho' heq
      exact ⟨rfl, rfl⟩

/-- The path of the view of identifiers leads to it. -/
theorem viewAt?_of_isOwn (he : e.HasIdentifiers) {q : CompiledQuery} {s : Setting}
    (hdesign : e.designName = .ok s.designName) (hsame : e.designName = .ok q.designName)
    {fields : List String} (hview : IsOwn e p fields q.view) :
    ∃ name, q.viewName = .str name ∧
      Memory.viewAt? (q.viewPath s.profile) = some (s.designName, name) := by
  obtain ⟨operation, ho, hname⟩ := hview.name
  exact ⟨_, hname, viewAt?_viewPath he.isHyphenated hdesign hsame ho (fun f hf =>
    Text.not_mem_of_nameChars (Name.nameChars_of_isIdentifier (hview.key.isIdentifier f hf))
      (by decide)) hname⟩

end

/-- In a run of calls that give clear names, on a store whose design document is absent at first, each view
that is ever in the design document is one of find or count, under a name that belongs to one sorted
list of fields only, and has the map function of these fields, with the reduce function that counts
if the store can count by one. So at any time a query of such names is answered from a view that
emits just the fields it searches by, which is there afterwards. It may come to a fault instead if
there are more views than a revision can count. -/
theorem own_index_of_run {f : Finder} (he : f.entityType.HasIdentifiers)
    (hdesign : f.entityType.designName = .ok f.designName) {start s : Session}
    {result : Except Fault Unit} (hidle : start.rest = .done result)
    (habsent : start.memory.documents.get? (designId f.designName) = none)
    (hrun : Relation.ReflTransGen (Session.Step (designId f.designName) f.IsCall) start s) :
    (∀ name body, (name, body) ∈ bodiesIn (s.memory.documents.get? (designId f.designName)) →
      ∃ fields operation source, IsKey fields ∧ operation ∈ [findPrefix, countPrefix] ∧
        name = .str (viewName fields operation) ∧
        (∀ others other, IsKey others → other ∈ [findPrefix, countPrefix] →
          name = .str (viewName others other) → others = fields ∧ other = operation) ∧
        mapFunction f.entityType fields = .ok source ∧
        body = .dict ((.str "map", .str source) ::
          if f.profile.reduceCounting then [(.str "reduce", .str countReduce)] else [])) ∧
    ∀ (o : Options) (q : CompiledQuery) (params : Entries), o.GivesClear →
      (find f.entityType f.profile o = .ok q ∨ count f.entityType f.profile o = .ok q) →
      ∃ fields source, searchFields f.entityType o = .ok fields ∧
        mapFunction f.entityType fields = .ok source ∧
        Emission.ofSource (.str source) = .ok (f.entityType.emission fields) ∧
        ((∃ after, (CompiledQuery.executeIndexed { q with params } f.setting).Ends s.memory
            (Index.answer s.memory.documents (.str source) (reduceSource f.profile) params) after ∧
          Holds after f.designName ⟨q.viewName, .str source, reduceSource f.profile⟩) ∨
        10 ^ Text.maxDigits ≤
            (namesIn (s.memory.documents.get? (designId f.designName))).length ∧
          ∃ fault, (CompiledQuery.executeIndexed { q with params } f.setting).Ends s.memory
            (.error fault) s.memory) := by
  have hown : Own f.entityType f.profile f.designName
      (s.memory.documents.get? (designId f.designName)) := by
    refine Session.keeps_run (fun d hd => Finder.keepsOwn_of_isCall hd) hidle ?_ hrun
    rw [habsent]
    exact .absent
  constructor
  · intro name body hb
    exact exists_key_of_own hown hb
  · intro o q params hclear hq
    obtain ⟨fields, hfields, hne, hsame, hview⟩ := isOwn_of_compiled hclear hq
    obtain ⟨source, hsource, hread⟩ := ofSource_mapFunction he.isTagged hview.key.isIdentifier hne
    obtain ⟨name, hname, hpath⟩ := viewAt?_of_isOwn (s := f.setting) he hdesign hsame hview
    have hmap : q.mapSource = .str source := by
      obtain ⟨source', hsource', hmap⟩ := hview.map
      rw [hsource, Except.ok.injEq] at hsource'
      rw [hsource']
      exact hmap
    have hreduce : q.reduceSource = reduceSource f.profile := hview.reduce
    refine ⟨fields, source, hfields, hsource, hread, ?_⟩
    rw [← hmap, ← hreduce]
    exact CompiledQuery.executeIndexed_ends_of_own (q := { q with params }) (s := f.setting) hown
      hview hname hpath

/-! ## A finder of people -/

/-- Conditions whose names are clear. -/
theorem Options.givesClear_conditions {conditions : Entries}
    (h : ∀ c ∈ conditions, Name.isClear c.1.text = true) :
    ({ conditions := .dict conditions } : Options).GivesClear := by
  intro names hnames v hv
  cases hnames
  obtain ⟨c, hc, rfl⟩ := List.mem_map.1 hv
  exact h c hc

/-- Finding by them. -/
theorem Finder.Call.givesClear_find {conditions : Entries}
    (h : ∀ c ∈ conditions, Name.isClear c.1.text = true) :
    (Call.find (.dict [(.str "conditions", .dict conditions)])).GivesClear := by
  intro o ho
  rw [Options.ofValue_conditions] at ho
  cases ho
  exact Options.givesClear_conditions h

/-- A finder of people, on a store of release 0.9. -/
def personFinder : Finder := Database.finderOf person "person" ⟨{ minor := 9 }⟩ true

/-- Finding people by their grade. -/
def byGrade : Entries := [(.str "grade", .int 9)]

/-- Finding people by their name and their grade. -/
def byNameAndGrade : Entries := [(.str "name", .str "Ann"), (.str "grade", .int 9)]

/-- The session in which a call by conditions has been carried out. -/
def Store.Session.afterFind (s : Session) (conditions : Entries) : Session :=
  let (result, known, memory) := ((Finder.Call.find
    (.dict [(.str "conditions", .dict conditions)])).carryOut personFinder).run Memory.answer s.known
      s.memory
  ⟨memory, known, .done result⟩

theorem reaches_afterFind {s : Session} {result : Except Fault Unit} (hidle : s.rest = .done result)
    {conditions : Entries} (h : ∀ c ∈ conditions, Name.isClear c.1.text = true) :
    Relation.ReflTransGen (Session.Step (designId "person") personFinder.IsCall) s
      (s.afterFind conditions) :=
  .head (.begin result hidle _ ⟨_, Finder.Call.givesClear_find h, rfl⟩) (Session.reaches_run _ rfl)

theorem own_index_people : ∃ s : Session,
    Relation.ReflTransGen (Session.Step (designId "person") personFinder.IsCall)
      { memory := people } s ∧
    (namesIn (s.memory.documents.get? (designId "person"))).map Value.text =
      ["find_by_grade", "find_by_grade_and_name"] ∧
    (∀ name body, (name, body) ∈ bodiesIn (s.memory.documents.get? (designId "person")) →
      ∃ fields operation, IsKey fields ∧ name = .str (viewName fields operation)) ∧
    ∀ q params, find person ⟨{ minor := 9 }⟩ { conditions := .dict byGrade } = .ok q →
      ∃ fields source after,
        searchFields person { conditions := .dict byGrade } = .ok fields ∧
        Emission.ofSource (.str source) = .ok (person.emission fields) ∧
        (CompiledQuery.executeIndexed { q with params } personFinder.setting).Ends s.memory
          (Index.answer s.memory.documents (.str source) (.str countReduce) params) after := by
  have hfirst := reaches_afterFind (s := { memory := people }) rfl
    (show ∀ c ∈ byGrade, Name.isClear c.1.text = true by decide)
  have hrun := hfirst.trans (reaches_afterFind rfl
    (show ∀ c ∈ byNameAndGrade, Name.isClear c.1.text = true by decide))
  have hnames : (namesIn (((Session.afterFind { memory := people } byGrade).afterFind
      byNameAndGrade).memory.documents.get? (designId "person"))).map Value.text =
        ["find_by_grade", "find_by_grade_and_name"] := by decide +kernel
  obtain ⟨hviews, hqueries⟩ :=
    own_index_of_run (f := personFinder) hasIdentifiers_person rfl rfl (absent_people _) hrun
  refine ⟨_, hrun, hnames, fun name body hb => ?_, fun q params hq => ?_⟩
  · obtain ⟨fields, operation, -, hkey, -, hname, -⟩ := hviews name body hb
    exact ⟨fields, operation, hkey, hname⟩
  · have hclear : ({ conditions := .dict byGrade } : Options).GivesClear :=
      Options.givesClear_conditions (by decide)
    obtain ⟨fields, source, hfields, -, hread, ⟨after, hends, -⟩ | ⟨hmany, -⟩⟩ :=
      hqueries { conditions := .dict byGrade } q params hclear (.inl hq)
    · exact ⟨fields, source, after, hfields, hread, hends⟩
    · have hlength := congrArg List.length hnames
      rw [List.length_map] at hlength
      have hfew : 2 < 10 ^ Text.maxDigits :=
        Nat.lt_trans (show 2 < Text.maxDigits by decide) (Nat.lt_pow_self (by decide))
      exact absurd (Nat.le_trans hmany (Nat.le_of_eq hlength)) (Nat.not_le_of_lt hfew)

end ViewFinder
