import ViewFinder.Proofs.Finder
import ViewFinder.Proofs.Query.TypeRows

/-!
# Types of one database

Documents of several types are found through one database (`Database.findAll`). Each type has a view of
its own for a key only if its design document is its own: where two types share one, the type that asks
first decides which documents both of them find (`Database.findAll_shared`). So types are kept apart, in
every store and for all calls in any order, if and only if their design documents have different names
(`Database.isolates_iff`).
-/

namespace ViewFinder

open Store Registry

/-- A type whose name is made of letters and digits of ASCII, underscores and hyphens, and whose
documents are told by a field and a text that a map function can name. -/
structure EntityType.IsPlain (e : EntityType) : Prop where
  name : e.name.isHyphenated = true
  tagged : e.IsTagged

theorem EntityType.HasIdentifiers.isPlain {e : EntityType} (he : e.HasIdentifiers) : e.IsPlain :=
  ⟨he.isHyphenated, he.isTagged⟩

/-! ## Finders of types -/

/-- A finder for a type on a store of some release. -/
structure Finder.IsFor (f : Finder) (e : EntityType) (p : Profile) : Prop where
  entityType : f.entityType = e
  designName : e.designName = .ok f.designName
  profile : f.profile = p

namespace Database

/-- The finders of a database are for some types, each under the name of its type. -/
def Serves (d : Database) (types : List EntityType) : Prop :=
  ∀ x ∈ d.finders, ∃ e ∈ types, x.1 = e.name ∧ x.2.IsFor e d.profile

/-- Finds documents, one call after the other, and tells what each call comes to. -/
def findAll (d : Database) (m : Memory) :
    List (EntityType × Value) → List (EntityType × Except Fault Result)
  | [] => []
  | (e, options) :: calls =>
    let (result, d, m) := d.run Memory.answer m e (·.find options)
    (e, result) :: d.findAll m calls

/-- Types are kept apart: over every store of JSON documents that has no design document of theirs,
whatever calls are made, what is found for a type is made of its documents. -/
def Isolates (d : Database) (types : List EntityType) : Prop :=
  ∀ (m : Memory) (calls : List (EntityType × Value)), m.HoldsJson →
    (∀ e ∈ types, ∀ designName, e.designName = .ok designName → m.design designName = none) →
    (∀ c ∈ calls, c.1 ∈ types) →
    ∀ e result, (e, .ok result) ∈ d.findAll m calls → result.IsOf e m

/-- A database that has just been opened has no finders. -/
theorem serves_new (p : Profile) (allowAdHoc : Bool) (types : List EntityType) :
    ({ profile := p, allowAdHoc } : Database).Serves types := by
  intro x hx
  cases hx

section
variable {d : Database} {types : List EntityType} {e : EntityType}

/-- A type of distinct name gets a finder of its own. -/
theorem Serves.exists_finder (h : d.Serves types) (hnames : (types.map (·.name)).Nodup)
    (he : e ∈ types) (hname : e.name.isHyphenated = true) :
    ∃ f, d.finder e = .ok f ∧ f.IsFor e d.profile := by
  obtain ⟨name, hstr, -⟩ := Value.exists_of_isHyphenated hname
  have hhashable : e.name.hashable = true := by rw [hstr]; rfl
  unfold finder
  simp only [hhashable, Bool.not_true, Bool.false_eq_true, if_false]
  cases hfind : d.finders.find? (·.1.sameKey e.name) with
  | none =>
    have hdesign : e.designName = .ok (Name.underscore name) := by rw [EntityType.designName, hstr]
    refine ⟨finderOf e (Name.underscore name) d.profile d.allowAdHoc, ?_, rfl, hdesign, rfl⟩
    simp [Finder.ofType, finderOf, hdesign, bind, Except.bind, pure, Except.pure]
  | some x =>
    obtain ⟨e', he', hkey, hfor⟩ := h x (List.mem_of_find?_eq_some hfind)
    have hsame : x.1 = e.name := by
      have := List.find?_some hfind
      rw [hstr] at this ⊢
      exact Value.sameKey_str_iff.1 this
    have heq : e' = e := List.inj_on_of_nodup_map hnames he' he (hkey.symm.trans hsame)
    exact ⟨x.2, rfl, heq ▸ hfor⟩

/-- The first call comes to what it comes to, and the others are made afterwards. -/
theorem findAll_cons {m after : Memory} {options : Value} {result : Except Fault Result}
    {d' : Database} (h : d.run Memory.answer m e (·.find options) = (result, d', after))
    (calls : List (EntityType × Value)) :
    d.findAll m ((e, options) :: calls) = (e, result) :: d'.findAll after calls := by
  rw [findAll, h]

/-- Keeping a finder of one of the types changes nothing about that. -/
theorem Serves.put (h : d.Serves types) (he : e ∈ types) {f : Finder} (hf : f.IsFor e d.profile) :
    (d.put f).Serves types := by
  intro x hx
  rcases List.mem_cons.1 hx with rfl | hx
  · exact ⟨e, he, congrArg EntityType.name hf.entityType, hf⟩
  · exact h x (List.mem_filter.1 hx).1

/-- An operation on the documents of a type comes to what it leads to for a finder of the type, and the
database is for the same types afterwards. -/
theorem Serves.exists_run {α : Type} (h : d.Serves types) (hnames : (types.map (·.name)).Nodup)
    (he : e ∈ types) (hname : e.name.isHyphenated = true) {m : Memory}
    {operation : Finder → Dialogue α} {post : Dialogue.Post α}
    (hleads : ∀ f : Finder, f.IsFor e d.profile → (operation f).Leads m post) :
    ∃ (log : List (Request × Answer)) (result : Except Fault α) (d' : Database) (after : Memory),
      d.run Memory.answer m e operation = (result, d', after) ∧ d'.Serves types ∧
        d'.profile = d.profile ∧ post log result after := by
  obtain ⟨f, hf, hfor⟩ := h.exists_finder hnames he hname
  have hrun : d.run Memory.answer m e operation =
      (((operation f).run Memory.answer f.knownViews m).1,
        d.put { f with knownViews := ((operation f).run Memory.answer f.knownViews m).2.1 },
        ((operation f).run Memory.answer f.knownViews m).2.2) := by
    rw [run, hf]
  exact ⟨_, _, _, _, hrun, h.put he ⟨hfor.entityType, hfor.designName, hfor.profile⟩, rfl,
    (hleads f hfor).run f.knownViews⟩

end

end Database

/-! ## Design documents apart -/

/-- The store has the indexes that it had at first, and the design document of each type holds views of
the type only. -/
structure Store.Memory.Segregated (m : Memory) (types : List EntityType) (p : Profile)
    (start : Memory) : Prop where
  indexes : SameIndexes start m
  written : ∀ e ∈ types, ∀ designName, e.designName = .ok designName →
    Written (Registry.IsOf e p) designName (m.design designName)

section
variable {types : List EntityType} {p : Profile} {start m : Memory}

/-- Without design documents there are no views of any type. -/
theorem Store.Memory.segregated_of_absent
    (h : ∀ e ∈ types, ∀ designName, e.designName = .ok designName → m.design designName = none) :
    m.Segregated types p m := by
  refine ⟨fun _ => rfl, fun e he designName hdesign => ?_⟩
  rw [h e he designName hdesign]
  exact .absent

/-- Where no two types share a design document, a view that is added is none of another type's. -/
theorem Store.Memory.Segregated.extended (hdesigns : (types.map (·.designName)).Nodup)
    (h : m.Segregated types p start) {e : EntityType} (he : e ∈ types) {designName : String}
    (hdesign : e.designName = .ok designName) {view : ViewDefinition} {after : Memory}
    (hextends : Extends (Registry.IsOf e p) designName m view after) :
    after.Segregated types p start := by
  refine ⟨fun source => (hextends.indexes source).trans (h.indexes source), ?_⟩
  intro e' he' designName' hdesign'
  by_cases hsame : designName' = designName
  · have heq : e' = e := List.inj_on_of_nodup_map hdesigns he' he
      (hdesign'.trans ((congrArg Except.ok hsame).trans hdesign.symm))
    rw [heq, hsame]
    exact hextends.written
  · have hid : designId designName' ≠ designId designName := fun hid =>
      hsame (designId_injective hid)
    rw [Memory.design, hextends.elsewhere _ hid]
    exact h.written e' he' designName' hdesign'

/-- So the queries of each type find what they need, and keep it. -/
theorem Store.Memory.admits_segregated (hdesigns : (types.map (·.designName)).Nodup)
    {f : Finder} {e : EntityType} (he : e ∈ types) (hf : f.IsFor e p) :
    CompiledQuery.Admits e f.setting start (·.Segregated types p start) := by
  have hprofile : f.setting.profile = p := hf.profile
  refine ⟨fun m h => h.indexes, fun m h => ?_, fun m view after h hextends => ?_⟩
  · rw [hprofile]
    exact h.written e he _ hf.designName
  · rw [hprofile] at hextends
    exact h.extended hdesigns he hf.designName hextends

end

namespace Database

section
variable {types : List EntityType} (hnames : (types.map (·.name)).Nodup)
  (hplain : ∀ e ∈ types, e.IsPlain)
include hnames hplain

/-- One call finds documents of its type, and leaves the types apart. -/
theorem run_isOf (hdesigns : (types.map (·.designName)).Nodup) {d : Database}
    (hd : d.Serves types) {start m : Memory} (hstart : start.HoldsJson)
    (hm : m.Segregated types d.profile start) {e : EntityType} (he : e ∈ types) (options : Value) :
    ∃ result d' after, d.run Memory.answer m e (·.find options) = (result, d', after) ∧
      d'.Serves types ∧ d'.profile = d.profile ∧ after.Segregated types d.profile start ∧
        ∀ r, result = .ok r → r.IsOf e start := by
  obtain ⟨hname, htagged⟩ := hplain e he
  have hleads : ∀ f : Finder, f.IsFor e d.profile → (f.find options).Leads m
      (Dialogue.Safe (·.Segregated types d.profile start) fun result => result.IsOf e start) := by
    intro f hfor
    obtain rfl := hfor.entityType
    exact Dialogue.safe_lift hm fun o _ => Finder.findWith_safe
      (Memory.admits_segregated hdesigns he hfor) hstart htagged hname hfor.designName hm o
  obtain ⟨_, result, d', after, hrun, hd', hprofile, hsafe⟩ := hd.exists_run hnames he hname hleads
  exact ⟨result, d', after, hrun, hd', hprofile, hsafe⟩

/-- Types with design documents of their own are kept apart. -/
theorem findAll_isOf (hdesigns : (types.map (·.designName)).Nodup) {d : Database}
    (hd : d.Serves types) {start m : Memory} (hstart : start.HoldsJson)
    (hm : m.Segregated types d.profile start) {calls : List (EntityType × Value)}
    (hcalls : ∀ c ∈ calls, c.1 ∈ types) :
    ∀ e result, (e, .ok result) ∈ d.findAll m calls → result.IsOf e start := by
  -- the database and the store are what the calls before have left of them
  induction calls generalizing d m with
  | nil => exact nofun
  | cons c calls ih =>
    obtain ⟨e, options⟩ := c
    obtain ⟨he, hcalls⟩ := List.forall_mem_cons.1 hcalls
    obtain ⟨result, d', after, hrun, hd', hprofile, hafter, hresult⟩ :=
      run_isOf hnames hplain hdesigns hd hstart hm he options
    intro e' result' hmem
    rw [findAll_cons hrun] at hmem
    rcases List.mem_cons.1 hmem with heq | hmem
    · cases heq
      exact hresult result' rfl
    · exact ih hd' (hprofile ▸ hafter) hcalls e' result' hmem

end

end Database

/-! ## Design documents shared -/

/-- With these options the rows of all documents are found, in the order of their names. -/
def Options.rowsByName : Value := .dict [(.str "use_key", .str "name"), (.str "raw", .bool true)]

theorem Options.ofValue_rowsByName :
    Options.ofValue rowsByName = .ok { useKey := .str "name", raw := .bool true } := by
  simp [rowsByName, ofValue, takeEntries, takeEntry, currentKey, currentName, isViewParameter,
    viewParameters, set?, checkExtra, unknownParameters, Value.text, Value.equal, Value.agree,
    Value.truthy, Value.entries, Value.toEntries, bind, Except.bind, pure, Except.pure]

/-- The parameters that select all rows, with the reduce step switched off. -/
def Query.unreduced (p : Profile) : Entries :=
  if p.reduceCounting then [(.str "reduce", .bool false)] else []

/-- The query for these rows. -/
def CompiledQuery.rowsByName (designName source : String) (p : Profile) : CompiledQuery where
  designName := designName
  viewName := .str "find_by_name"
  mapSource := .str source
  reduceSource := Query.reduceSource p
  params := Query.unreduced p
  fallbackKeys := .list []
  slow := .bool false
  reduced := .bool false

section
variable {e : EntityType} {p : Profile} {designName source : String}

theorem Query.find_rowsByName (hdesign : e.designName = .ok designName)
    (hsource : Query.mapFunction e ["name"] = .ok source) :
    Query.find e p { useKey := .str "name", raw := .bool true } =
      .ok (CompiledQuery.rowsByName designName source p) := by
  have hfields : Query.searchFields e { useKey := .str "name", raw := .bool true } =
      .ok ["name"] := rfl
  have hparams : Query.searchValues p { useKey := .str "name", raw := .bool true } = .ok [] := rfl
  rw [Query.find, hfields, hparams, CompiledQuery.rowsByName, Query.reduceSource, Query.unreduced]
  cases p.reduceCounting
  · exact Query.build_eq hdesign hsource { useKey := .str "name", raw := .bool true }
      Query.findPrefix .null [] false
  · refine (Query.build_eq hdesign hsource { useKey := .str "name", raw := .bool true }
      Query.findPrefix (.str Query.countReduce) (Entries.set [] "reduce" (.bool false)) false).trans ?_
    have hparam : Value.str "reduce" ≠ .str Query.fallbackParam := by simp [Query.fallbackParam]
    rw [Entries.set, Entries.insert, Entries.get?_cons_of_ne hparam]
    simp [Entries.erase, Value.sameKey_str_of_ne hparam]
    rfl

theorem Store.Index.answer_unreduced {map : Value} {documents : Entries} {rows : List Row}
    (hrows : Index.ofDocuments map documents = .ok rows) (p : Profile) :
    Index.answer documents map (Query.reduceSource p) (Query.unreduced p) =
      .ok (Window.response rows.length 0 (rows.map Row.toValue)) := by
  have hnone (n : String) (hn : n ≠ "reduce") : (Query.unreduced p).get? n = none := by
    unfold Query.unreduced
    split
    · simp [Entries.get?_cons_str, Ne.symm hn]
    · rfl
  have hruns : Index.runsReduce (Query.reduceSource p) (Query.unreduced p) = false := by
    unfold Query.unreduced Query.reduceSource
    split
    · simp [runsReduce, Entries.get?_cons_str, Value.isFalse]
    · rfl
  simp [answer, hrows, hruns, select, walk, bounded, limit?, Entries.getD, hnone, Value.truthy,
    Value.toInteger, Window.cut_zero_none, bind, Except.bind, pure, Except.pure]

/-- Finding the rows asks for the view of the query. -/
theorem Finder.find_rowsByName_leads {f : Finder} {m : Memory} (hfor : f.IsFor e p)
    (hname : e.name.isHyphenated = true) (hsource : Query.mapFunction e ["name"] = .ok source)
    (hwritten : Written (·.reduce = Query.reduceSource p) f.designName (m.design f.designName)) :
    (f.find Options.rowsByName).Leads m fun _ result after => ∃ log response,
      CompiledQuery.Settled (·.reduce = Query.reduceSource p)
        (CompiledQuery.rowsByName f.designName source p) f.setting "find_by_name" m log response
        after ∧ result = response.map .raw := by
  have hsplit : "find_by_name".toList.splitOn '/' = ["find_by_name".toList] := by decide
  have hpath : Memory.viewAt? (CompiledQuery.viewPath
      (CompiledQuery.rowsByName f.designName source p) f.setting.profile) =
        some (f.setting.designName, "find_by_name") :=
    f.setting.profile.viewAt?_viewPath
      (Query.not_mem_designName hname hfor.designName (by decide)) hsplit
  have hproper : Proper (CompiledQuery.rowsByName f.designName source p).view :=
    proper_of_mapFunction hsource p _
  have hquery := Query.find_rowsByName (p := p) hfor.designName hsource
  have hasked := CompiledQuery.executeIndexed_leads (s := f.setting) hwritten hproper rfl rfl hpath
  refine Dialogue.leads_lift (fun o ho => ?_) fun fault hfault => ?_
  · rw [Options.ofValue_rowsByName] at ho
    cases ho
    rw [Finder.findWith, hfor.entityType, hfor.profile, hquery]
    show (f.execute (CompiledQuery.rowsByName f.designName source p) _).Leads m _
    refine Dialogue.Leads.bind (hasked.mono fun log response after hsettled => ?_)
    cases response with
    | error fault => exact ⟨log, .error fault, hsettled, rfl⟩
    | ok response => exact ⟨log, .ok response, hsettled, rfl⟩
  · rw [Options.ofValue_rowsByName] at hfault
    cases hfault

end

namespace Database

section
variable {types : List EntityType} (hnames : (types.map (·.name)).Nodup)
  (hplain : ∀ e ∈ types, e.IsPlain) {d : Database}
  (hd : d.Serves types) {m : Memory}
include hnames hplain hd

/-- So does a call of a database. -/
theorem run_rowsByName {e : EntityType} (he : e ∈ types) {designName source : String}
    (hdesign : e.designName = .ok designName) (hsource : Query.mapFunction e ["name"] = .ok source)
    (hwritten : Written (·.reduce = Query.reduceSource d.profile) designName
      (m.design designName)) :
    ∃ result d' after, d.run Memory.answer m e (·.find Options.rowsByName) = (result, d', after) ∧
      d'.Serves types ∧ d'.profile = d.profile ∧ ∃ s log response, s.designName = designName ∧
        CompiledQuery.Settled (·.reduce = Query.reduceSource d.profile)
          (CompiledQuery.rowsByName designName source d.profile) s "find_by_name" m log response
          after ∧ result = response.map .raw := by
  have hname := (hplain e he).name
  have hleads : ∀ f : Finder, f.IsFor e d.profile → (f.find Options.rowsByName).Leads m
      fun _ result after => ∃ s log response, s.designName = designName ∧
        CompiledQuery.Settled (·.reduce = Query.reduceSource d.profile)
          (CompiledQuery.rowsByName designName source d.profile) s "find_by_name" m log response
          after ∧ result = response.map .raw := by
    intro f hfor
    have hsame : f.designName = designName := Except.ok.inj (hfor.designName.symm.trans hdesign)
    subst hsame
    refine (Finder.find_rowsByName_leads hfor hname hsource hwritten).mono ?_
    rintro _ result after ⟨log, response, hsettled⟩
    exact ⟨f.setting, log, response, rfl, hsettled⟩
  obtain ⟨-, result, d', after, hrun, hd', hprofile, hsettled⟩ :=
    hd.exists_run hnames he hname hleads
  exact ⟨result, d', after, hrun, hd', hprofile, hsettled⟩

/-- Where two types share a design document, and there is none at first, the one that asks first has
its rows found for both. -/
theorem findAll_shared {e f : EntityType} (he : e ∈ types) (hf : f ∈ types)
    {designName : String} (hdesign : e.designName = .ok designName)
    (hshared : f.designName = .ok designName) (hm : m.HoldsJson)
    (habsent : m.design designName = none) :
    d.findAll m [(e, Options.rowsByName), (f, Options.rowsByName)] =
      [e, f].map fun e' => (e', .ok (.raw (Window.response (m.rows e ["name"]).length 0
        ((m.rows e ["name"]).map Row.toValue)))) := by
  have hfields : ∀ n ∈ ["name"], Name.isIdentifier n = true := by decide
  obtain ⟨source, hsource, hread⟩ :=
    Query.ofSource_mapFunction (hplain e he).tagged hfields (by decide)
  obtain ⟨source', -, -, hsource', -⟩ := Query.exists_mapFunction (hplain f hf).tagged ["name"]
  have hwritten : Written (·.reduce = Query.reduceSource d.profile) designName
      (m.design designName) := by
    rw [habsent]
    exact .absent
  have hanswer := Index.answer_unreduced (hm.ofDocuments_eq (hplain e he).tagged hread) d.profile
  obtain ⟨_, d₁, m₁, hrun₁, hd₁, hprofile, s, log, response, rfl, hsettled, rfl⟩ :=
    run_rowsByName hnames hplain hd he hdesign hsource hwritten
  have hnone : viewIn (m.documents.get? (designId s.designName)) "find_by_name" = none :=
    congrArg (viewIn · "find_by_name") habsent
  have hempty : namesIn (m.documents.get? (designId s.designName)) = [] := congrArg namesIn habsent
  -- without a design document the first call can but register its view
  cases hsettled with
  | held view hview =>
    rw [hnone] at hview
    cases hview
  | refused hlacks hmany =>
    rw [hempty] at hmany
    exact absurd hmany (Nat.not_le_of_lt (Nat.pow_pos (by decide)))
  | registered hlacks got document response after hextends =>
    have hrun₁ := hrun₁.trans (congrArg (fun r => (r.map Result.raw, d₁, m₁)) hanswer)
    -- the other type goes to the view that is there now
    have hheld := hextends.added.held "find_by_name" rfl
    obtain ⟨_, d₂, m₂, hrun₂, -, -, s', log', response', hsame, hsettled', rfl⟩ :=
      run_rowsByName hnames hplain hd₁ hf hshared hsource' (hprofile ▸ hextends.written)
    rw [← hsame] at hheld
    cases hsettled' with
    | held view hview =>
      cases hheld.symm.trans hview
      rw [hextends.indexes.answer_eq, hprofile] at hrun₂
      have hrun₂ := hrun₂.trans (congrArg (fun r => (r.map Result.raw, d₂, m₁)) hanswer)
      rw [findAll_cons hrun₁, findAll_cons hrun₂]
      rfl
    | refused hlacks' => cases hheld.symm.trans hlacks'
    | registered hlacks' => cases hheld.symm.trans hlacks'

/-- So what is found for the other type is none of its documents, if only the one has any. -/
theorem exists_findAll_shared {e f : EntityType} (he : e ∈ types) (hf : f ∈ types)
    (hshared : e.designName = f.designName) (hm : m.HoldsJson)
    (habsent : ∀ designName, m.design designName = none) (hsome : m.documentsOf e ≠ [])
    (hnone : m.documentsOf f = []) :
    ∃ result, d.findAll m [(e, Options.rowsByName), (f, Options.rowsByName)] =
      [(e, .ok result), (f, .ok result)] ∧ ¬ result.IsOf f m := by
  obtain ⟨name, hname, -⟩ := Value.exists_of_isHyphenated (hplain e he).name
  have hdesign : e.designName = .ok (Name.underscore name) := by rw [EntityType.designName, hname]
  refine ⟨_, findAll_shared hnames hplain hd he hf hdesign (hshared ▸ hdesign) hm (habsent _), ?_⟩
  have hrows : m.rows e ["name"] ≠ [] := by
    intro hempty
    have hperm := hm.rows_perm e ["name"]
    rw [hempty, List.nil_perm, List.map_eq_nil_iff] at hperm
    exact hsome hperm
  rintro ⟨rows, hmember, hof⟩
  rw [EntityType.member?_rows] at hmember
  cases hmember
  obtain ⟨r, hr⟩ := List.exists_mem_of_ne_nil _ hrows
  obtain ⟨d, hd, -⟩ := hof _ (List.mem_map_of_mem hr)
  rw [hnone] at hd
  cases hd

end

end Database

/-- A store may hold a document of one type that is none of another type, which marks its documents
otherwise. -/
theorem EntityType.exists_holding {e f : EntityType} (he : e.IsTagged) (hf : f.IsTagged)
    (hne : e.discriminatorValue ≠ f.discriminatorValue) : ∃ m : Memory, m.HoldsJson ∧
      (∀ designName, m.design designName = none) ∧ m.documentsOf e ≠ [] ∧ m.documentsOf f = [] := by
  obtain ⟨field, hfield, -⟩ := Value.exists_of_isIdentifier he.field
  obtain ⟨value, hvalue, -⟩ := he.value
  obtain ⟨field', hfield', -⟩ := Value.exists_of_isIdentifier hf.field
  obtain ⟨value', hvalue', -⟩ := hf.value
  -- the other type may mark its documents by their id
  obtain ⟨id, hid, hdesign⟩ : ∃ id : String, id ≠ value' ∧ id.startsWith Index.designPrefix = false := by
    by_cases h : "1" = value'
    · exact ⟨"2", fun h' => absurd (h.trans h'.symm) (by decide), by decide⟩
    · exact ⟨"1", h, by decide⟩
  let es : Entries := Entries.set [(.str Name.idField, .str id)] field (.str value)
  have hget (n : String) : es.get? n = if field = n then some (.str value)
      else if Name.idField = n then some (.str id) else none := by
    simp [es, Entries.get?_set, Entries.get?_cons_str]
  have hjson : (Value.dict es).isJson = true := by
    refine (Value.isJson_dict es).2 ⟨(Entries.Named.nil.cons rfl).set _ _, ?_⟩
    by_cases hsame : Name.idField = field
    · simp [es, Entries.set, Entries.insert, hsame, Value.isJson]
    · simp [es, Entries.set, Entries.insert, hsame, Value.isJson]
  have htype : e.isType es = true := by
    rw [e.isType_eq hfield, hvalue, Entries.getD, hget, if_pos rfl]
    exact Value.equal_self_of_isAtom rfl
  have hother : f.isType es = false := by
    rw [hvalue, hvalue', ne_eq, Value.str.injEq] at hne
    rw [f.isType_eq hfield', hvalue', Entries.getD, hget]
    split
    · simpa [Value.equal, Value.agree] using hne
    · split
      · simpa [Value.equal, Value.agree] using hid
      · simp [Value.equal, Value.agree, Value.isNull]
  refine ⟨Memory.ofDocument (id, es), Memory.holdsJson_ofDocument hjson, absent_ofDocument hdesign,
    ?_, ?_⟩
  · simp [Memory.documentsOf_ofDocument (d := (id, es)) hdesign, htype]
  · simp [Memory.documentsOf_ofDocument (d := (id, es)) hdesign, hother]

/-! ## People and pets -/

/-- The type of pets. -/
def pet : EntityType := { name := .str "Pet" }

/-- The type whose name is that of people in small letters. -/
def smallPerson : EntityType := { name := .str "person" }

theorem hasIdentifiers_pet : pet.HasIdentifiers := ⟨by decide, by decide, by decide⟩

theorem hasIdentifiers_smallPerson : smallPerson.HasIdentifiers := ⟨by decide, by decide, by decide⟩

theorem designName_person : person.designName = .ok "person" := congrArg Except.ok (by decide)

theorem designName_smallPerson : smallPerson.designName = .ok "person" :=
  congrArg Except.ok (by decide)

/-! ## Types kept apart -/

namespace Database

/-- The types of a database, of distinct names and marks, are kept apart if and only if their design
documents have distinct names. -/
theorem isolates_iff {d : Database} {types : List EntityType} (hd : d.Serves types)
    (hnames : (types.map (·.name)).Nodup) (hmarks : (types.map (·.discriminatorValue)).Nodup)
    (hplain : ∀ e ∈ types, e.IsPlain) :
    d.Isolates types ↔ (types.map (·.designName)).Nodup := by
  constructor
  · intro h
    refine (List.nodup_map_iff_inj_on hnames.of_map).2 fun e he f hf hshared => ?_
    by_contra hne
    have hmark : e.discriminatorValue ≠ f.discriminatorValue := fun heq =>
      hne (List.inj_on_of_nodup_map hmarks he hf heq)
    obtain ⟨m, hm, habsent, hsome, hnone⟩ :=
      EntityType.exists_holding (hplain e he).tagged (hplain f hf).tagged hmark
    obtain ⟨result, hfound, hnot⟩ :=
      exists_findAll_shared hnames hplain hd he hf hshared hm habsent hsome hnone
    refine hnot (h m [(e, Options.rowsByName), (f, Options.rowsByName)] hm
      (fun _ _ designName _ => habsent designName) ?_ f result ?_)
    · simp [he, hf]
    · rw [hfound]
      simp
  · intro hdesigns m calls hm habsent hcalls
    exact findAll_isOf hnames hplain hdesigns hd hm (Memory.segregated_of_absent habsent) hcalls

/-- People and pets are kept apart, but not people and those of the small letter. -/
theorem isolates_people : ({ profile := ⟨{ minor := 9 }⟩ } : Database).Isolates [person, pet] ∧
    ¬ ({ profile := ⟨{ minor := 9 }⟩ } : Database).Isolates [person, smallPerson] := by
  constructor
  · refine (isolates_iff (serves_new _ _ _) (by simp [person, pet]) (by simp [person, pet]) ?_).2 ?_
    · simp [hasIdentifiers_person.isPlain, hasIdentifiers_pet.isPlain]
    · have hpet : pet.designName = .ok "pet" := congrArg Except.ok (by decide)
      simp [designName_person, hpet]
  · refine mt (isolates_iff (serves_new _ _ _) (by simp [person, smallPerson])
      (by simp [person, smallPerson]) ?_).1 ?_
    · simp [hasIdentifiers_person.isPlain, hasIdentifiers_smallPerson.isPlain]
    · simp [designName_person, designName_smallPerson]

/-- Those of the small letter find the people after them. -/
theorem not_isolates_people : ∃ result,
    ({ profile := ⟨{ minor := 9 }⟩ } : Database).findAll people
        [(person, Options.rowsByName), (smallPerson, Options.rowsByName)] =
      [(person, .ok result), (smallPerson, .ok result)] ∧ ¬ result.IsOf smallPerson people := by
  have hnames : ([person, smallPerson].map (·.name)).Nodup := by simp [person, smallPerson]
  have hplain : ∀ e ∈ [person, smallPerson], e.IsPlain := by
    simp [hasIdentifiers_person.isPlain, hasIdentifiers_smallPerson.isPlain]
  refine exists_findAll_shared hnames hplain (serves_new _ _ _) (by simp) (by simp) ?_
    holdsJson_people absent_people ?_ ?_
  · rw [designName_person, designName_smallPerson]
  · have hid : "p1".startsWith Index.designPrefix = false := by decide
    simp [people, person, Memory.documentsOf, EntityType.document?, EntityType.isType, Entries.find?,
      Value.equal, Value.agree, Name.defaultDiscriminatorField, hid]
  · simp [people, smallPerson, Memory.documentsOf, EntityType.document?, EntityType.isType,
      Entries.find?, Value.equal, Value.agree, Name.defaultDiscriminatorField]

end Database

end ViewFinder
