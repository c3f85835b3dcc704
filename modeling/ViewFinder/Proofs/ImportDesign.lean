import ViewFinder.Proofs.Command.Workplace
import ViewFinder.Proofs.Exchange
import ViewFinder.Proofs.Json.Scalars
import ViewFinder.Proofs.Yaml.Keys

/-!
# Importing views

Views that are read from YAML have distinct names (`Views.nodup_names_of_importYaml`). So importing them
adds those whose names are new to the design document, by one save each, and nothing when it is repeated
(`Command.Action.run_importDesign`); what cannot be read is refused before the store is asked for
anything.
-/

namespace ViewFinder

/-! ## Views in a file -/

namespace Views

/-- The views that bodies describe stand under the names that they have themselves. -/
theorem names_of_ofBodies {bodies : Entries} {views : Views} (h : ofBodies bodies = .ok views) :
    views.map (·.2.name) = bodies.map (·.1) := by
  induction bodies generalizing views with
  | nil =>
    cases h
    rfl
  | cons b bodies ih =>
    obtain ⟨name, body⟩ := b
    simp only [ofBodies, Fault.bind_eq_ok_iff] at h
    obtain ⟨view, hview, others, hothers, h⟩ := h
    cases h
    have hname : view.name = name := by
      obtain ⟨map, -, hview⟩ := Fault.bind_eq_ok_iff.1 hview
      split at hview
      · obtain ⟨reduce, -, hview⟩ := Fault.bind_eq_ok_iff.1 hview
        cases hview
        rfl
      · cases hview
    rw [List.map_cons, List.map_cons, ih hothers, hname]

/-- The bodies of views in a YAML text are those of a mapping. -/
theorem exists_bodies_of_importYaml {text : String} {views : Views} (h : importYaml text = .ok views) :
    ∃ bodies : Entries, bodies.UniqueTexts ∧ views.map (·.2.name) = bodies.map (·.1) := by
  simp only [importYaml, Fault.bind_eq_ok_iff] at h
  obtain ⟨data, hdata, found, hfound, h⟩ := h
  split at h
  · next bodies =>
    refine ⟨bodies, Yaml.uniqueTexts_of_member hdata hfound, ?_⟩
    rw [names_of_ofBodies h, List.map_map]
    rfl
  · cases h

/-- They have distinct names, where these are texts. -/
theorem nodup_names_of_importYaml {text : String} {views : Views} (h : importYaml text = .ok views)
    (hproper : ∀ v ∈ views, Registry.Proper v.2) : ((views.map (·.2)).map (·.name)).Nodup := by
  obtain ⟨bodies, hunique, hnames⟩ := exists_bodies_of_importYaml h
  rw [List.map_map]
  show (views.map (·.2.name)).Nodup
  have htexts : ∀ k ∈ views.map (·.2.name), ∃ n, k = .str n :=
    List.forall_mem_map.2 fun v hv => (hproper v hv).name
  rw [hnames] at htexts ⊢
  refine hunique.imp_of_mem fun hk _ hdiffers heq => ?_
  obtain ⟨n, hn⟩ := htexts _ hk
  exact hdiffers n hn (heq ▸ hn)

end Views

namespace Command.Action

open Store Registry

/-- The line that tells how many views were added. -/
def addedLine (added all : Nat) : Output := .line (.str s!"[green]Added {added} of {all} views[/green]")

/-- Makes sure of views of a type in an open database. -/
def adding (c : Config) (name : String) (views : Views) (database : Database) : Dialogue Nat := do
  let f ← database.finder (entityType c name [])
  ensureAll f.designName (views.map (·.2))

/-- The views whose names are new to the design document of a type. -/
def newTo (m : Memory) (name : String) (views : Views) : List ViewDefinition :=
  newViews (m.design (Name.underscore name)) (views.map (·.2))

/-- What importing views comes to: those that are new are in the store afterwards, there was one save for
each, and their number was shown. -/
structure Imports (name : String) (views : Views) (w : Workplace) (m : Memory) (w' : Workplace)
    (m' : Memory) : Prop where
  serving : w'.Serving m'
  saves : w'.saves = w.saves + (newTo m name views).length
  shown : w'.shown = addedLine (newTo m name views).length views.length :: w.shown
  imported : Imported (Name.underscore name) (m.design (Name.underscore name)) (views.map (·.2))
    (m'.design (Name.underscore name))

section
variable {c : Config} {name : String} {file : Path} {w : Workplace} {m : Memory} {text : String}
  (hw : w.Serving m) (hexists : w.disk.exists file = true) (hread : w.disk.read file = .ok text)
include hexists hread

/-- Importing reads the file first. -/
theorem run_importDesign_eq : w.run (importDesign c name file) =
    match Views.importYaml text with
    | .error e => (.error e, w)
    | .ok views => w.run do
      let added ← withDatabase c (adding c name views)
      Program.show (addedLine added views.length)
      return .success := by
  have hfound : w.run (Program.demand (.exists file)) = (.ok true, w) :=
    congrArg (fun found => (Except.ok found, w)) hexists
  have htext : w.run (Program.demandOk (.read file)) = (.ok text, w) :=
    congrArg (·, w) hread
  rw [importDesign, Workplace.run_bind, hfound]
  simp only [Bool.not_true, Bool.false_eq_true, if_false]
  rw [Workplace.run_bind, htext]
  simp only
  cases Views.importYaml text <;> rfl

include hw

/-- The views of a file that are new to the design document are added to it, by one save each. -/
theorem exists_run_importDesign {views : Views} (hviews : Views.importYaml text = .ok views)
    (hproper : ∀ v ∈ views, Proper v.2) {p : Profile}
    (hopen : Profile.ofValue (Workplace.versionFor c m) = .ok p)
    (hsettled : Settled (Name.underscore name) (m.design (Name.underscore name))) {n : Nat}
    (hcounts : Counts n (m.design (Name.underscore name)))
    (hn : n + (newTo m name views).length ≤ 10 ^ Text.maxDigits) :
    ∃ w' m', w.run (importDesign c name file) = (.ok .success, w') ∧ Imports name views w m w' m' ∧
      m'.version = m.version ∧ w'.disk = w.disk ∧
      Counts (n + (newTo m name views).length) (m'.design (Name.underscore name)) ∧
      (newTo m name views = [] → m' = m) := by
  have hadding : (adding c name views { profile := p, allowAdHoc := c.query.allowAdHoc.truthy }).Leads m _ :=
    ensureAll_leads (List.forall_mem_map.2 hproper) (Views.nodup_names_of_importYaml hviews hproper)
      hsettled hcounts hn
  obtain ⟨log, result, m', w', hrun, hserved, hversion, hsaves, rfl, himported, hcounted, hsame⟩ :=
    hw.run_withDatabase hopen hadding
  refine ⟨{ w' with shown := addedLine (newTo m name views).length views.length :: w'.shown }, m', ?_,
    ⟨⟨hserved.serving.backend, hserved.serving.direct⟩, ?_, ?_, himported⟩, hversion, hserved.disk,
    hcounted, hsame⟩
  · rw [run_importDesign_eq hexists hread, hviews]
    simp only
    rw [Workplace.run_bind, hrun]
    rfl
  · rw [newTo, ← hsaves]
    exact hserved.saves
  · rw [hserved.shown]

end

/-- A view by age, of another source than the one that people have, and a view by name. -/
def fileViews : Views :=
  [(.str "by_age", { name := .str "by_age", map := .str "emit(doc.born)" }), (.str "by_name", byName)]

/-- The views in YAML. -/
def fileText : String :=
  "design: person\nviews:\n  by_age:\n    map: emit(doc.born)\n  by_name:\n    map: emit(doc.name)\n"

/-- A workplace with a store of the design document for people, a file of views and one that is broken. -/
def office : Workplace where
  disk := { contents := [(["views.yaml"], .file fileText), (["broken.yaml"], .file "]")] }
  link := { backend := .memory { memory := storing (ofPeople (byAge []) []) } }

theorem importYaml_fileText : Views.importYaml fileText = .ok fileViews := by
  have hportable : ∀ e ∈ fileViews, Views.Portable e := by
    refine List.forall_mem_cons.2 ⟨⟨rfl, ?_, ?_, .inl rfl⟩,
      List.forall_mem_singleton.2 ⟨rfl, ?_, ?_, .inl rfl⟩⟩
    all_goals exact ⟨_, rfl, by decide⟩
  have hnames : (["by_age", "by_name"].map Value.str).Nodup :=
    List.Nodup.map (fun _ _ heq => Value.str.inj heq) (by decide)
  have hprinted : Yaml.printEntries
      [(.str "design", .str "person"), (.str "views", .dict fileViews.toBodies)] = fileText := by
    decide +kernel
  obtain ⟨design, hread⟩ := Views.exists_read hportable hnames "person"
  exact Views.importYaml_of_read (hprinted ▸ hread) hportable

theorem design_office : (storing (ofPeople (byAge []) [])).design (Name.underscore "Person") =
    some (.dict (ofPeople (byAge []) [])) := by
  have hid : designId (Name.underscore "Person") = "_design/person" := by decide
  rw [Memory.design, hid]
  simp [storing]

theorem sound_office : Sound (Name.underscore "Person") (ofPeople (byAge []) [])
    [(.str "by_age", .dict (byAge []))] "1-seed" := by
  have hid : designId (Name.underscore "Person") = "_design/person" := by decide
  refine ⟨?_, ?_, Entries.Named.nil.cons rfl, List.forall_mem_singleton.2 ⟨⟨_, rfl⟩, ?_, .inr ?_⟩, ?_⟩
  · simp [ofPeople, hid]
  · simp [ofPeople, Entries.getD, Value.orElse_dict]
  · simp [byAge, Views.ofBody, Entries.getD, Value.truthy]
  · simp [byAge, Views.ofBody, Entries.getD, Value.truthy]
  · simp [ofPeople]

theorem namesIn_office : namesIn (some (.dict (ofPeople (byAge []) []))) = [.str "by_age"] := by
  rw [namesIn, sound_office.bodiesIn_eq]
  rfl

/-- Of the views in the file, the one by name is new. -/
theorem newViews_office :
    newViews (some (.dict (ofPeople (byAge []) []))) (fileViews.map (·.2)) = [byName] := by
  have hage : isStored (some (.dict (ofPeople (byAge []) [])))
      { name := .str "by_age", map := .str "emit(doc.born)" } = true := by
    simp [isStored, namesIn_office]
  have hname : isStored (some (.dict (ofPeople (byAge []) []))) byName = false := by
    simp [isStored, namesIn_office, byName]
  show newViews _ [_, byName] = _
  rw [newViews_cons_of_stored hage, newViews_cons_of_new hname]
  rfl

end Command.Action

end ViewFinder
