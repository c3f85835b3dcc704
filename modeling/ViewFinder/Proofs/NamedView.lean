import Mathlib.Data.List.Nodup
import ViewFinder.Finder
import ViewFinder.Proofs.Options.Reading
import ViewFinder.Proofs.Value.Relisted

/-!
# Named views and their defaults

A named view is queried with its own options under those of the call. The two dictionaries are merged
entry by entry, so two entries of one option can stand in the result, under different names; what counts
is the one that comes last. `view_overlaid` says that the call has its way all the same: the query is that
of the options of both, spelled out under current names, with those of the call laid over the others.
-/

namespace ViewFinder

namespace Options

/-- What two dictionaries of options give, under current names; what the second one gives is laid over
what the first one gives. -/
def overlaid (defaults options : Entries) : Entries := (spelledOut defaults).merge (spelledOut options)

section
variable {defaults options : Entries} (hdefaults : ∀ e ∈ defaults, Understood e)
  (hoptions : ∀ e ∈ options, Understood e) (honce : GivesOnce defaults) (honce' : GivesOnce options)
include hdefaults hoptions honce honce'

/-- Options that give everything once each can be laid over one another as they are, if only one of them
has an entry `extra`. -/
theorem overlays_given
    (hdistinct : options.Pairwise fun a b => a.1.sameKey b.1 = false)
    (hextra : defaults.get? "extra" = none ∨ options.get? "extra" = none) :
    Entries.Overlays given defaults options := by
  have hunderstood : ∀ e ∈ defaults ++ options, Understood e :=
    List.forall_mem_append.2 ⟨hdefaults, hoptions⟩
  constructor
  case keys =>
    exact fun e he f hf => (hunderstood e he).known.eq_of_sameKey (hoptions f hf).known
  case distinct =>
    refine List.pairwise_map.2 (hdistinct.imp fun {a b} hab heq => ?_)
    rw [heq, Value.sameKey, Value.agrees_self] at hab
    cases hab
  case texts => exact fun e he p hp => ((hunderstood e he).current p hp).imp fun _ h => h.2
  case same =>
    intro k v w hv hw
    have hk : k ≠ .str "extra" := by
      rintro rfl
      rcases hextra with hnone | hnone
      · exact Entries.get?_eq_none_iff.1 hnone _ hv rfl
      · exact Entries.get?_eq_none_iff.1 hnone _ hw rfl
    obtain ⟨n, -, hgiven⟩ := (hoptions _ hw).known.exists_given hk
    obtain ⟨v', hv'⟩ := hgiven v
    obtain ⟨w', hw'⟩ := hgiven w
    exact .inr ⟨n, v', w', hv', hw'⟩
  case once => exact honce'
  case shared =>
    have hpairs := honce
    rw [GivesOnce, List.map_flatMap, List.nodup_flatMap] at hpairs
    refine hpairs.2.imp fun {e f} hdisjoint p hp q hq hpq => ?_
    exact absurd (hpq ▸ List.mem_map_of_mem hq) (hdisjoint (List.mem_map_of_mem hp))

/-- Entries merged under whatever names are read as those that both dictionaries spell out. -/
theorem ofValue_merge (hdistinct : options.Pairwise fun a b => a.1.sameKey b.1 = false)
    (hextra : defaults.get? "extra" = none ∨ options.get? "extra" = none) :
    ofValue (.dict (defaults.merge options)) = ofSpelledOut (overlaid defaults options) := by
  have hoverlays := overlays_given hdefaults hoptions honce honce' hdistinct hextra
  have hunderstood : ∀ e ∈ defaults.merge options, Understood e := fun e he =>
    (hoverlays.mem_merge he).elim (hdefaults e) (hoptions e)
  rw [ofValue_dict hunderstood, overlaid, spelledOut_of_givesOnce hoptions honce']
  exact congrArg ofSpelledOut (hoverlays.merge_flatMap [])

end

section
variable {defaults options : Entries} (hdefaults : ∀ e ∈ defaults, Understood e)
  (hoptions : ∀ e ∈ options, Understood e)
include hdefaults hoptions

theorem named_overlaid : (overlaid defaults options).Named :=
  (named_spelledOut hdefaults).merge (named_spelledOut hoptions)

/-- There are current names only among those laid over one another. -/
theorem current_overlaid : ∀ e ∈ overlaid defaults options, Current e := fun e he =>
  ((named_spelledOut hdefaults).mem_merge (named_spelledOut hoptions) he).elim
    (current_spelledOut hdefaults e) (current_spelledOut hoptions e)

end

/-- Options laid over others are read, if both are. -/
theorem exists_ofSpelledOut_overlaid {defaults options : Entries} {o o' : Options}
    (h : ofValue (.dict defaults) = .ok o) (h' : ofValue (.dict options) = .ok o') :
    ∃ o, ofSpelledOut (overlaid defaults options) = .ok o := by
  have hconditions : (ofCurrent (overlaid defaults options)).conditions =
        (ofCurrent (spelledOut options)).conditions ∨
      (ofCurrent (overlaid defaults options)).conditions =
        (ofCurrent (spelledOut defaults)).conditions := by
    have hget := Entries.get?_merge (named_spelledOut (understood_of_ofValue h')) (spelledOut defaults)
      "conditions"
    simp only [ofCurrent, overlaid, hget]
    cases (spelledOut options).get? "conditions" with
    | some v => exact .inl rfl
    | none => exact .inr rfl
  obtain ⟨cs, hcs, -⟩ := eq_of_ofValue h
  obtain ⟨cs', hcs', -⟩ := eq_of_ofValue h'
  rw [ofSpelledOut]
  rcases hconditions with heq | heq
  · exact ⟨_, by rw [heq, hcs']; rfl⟩
  · exact ⟨_, by rw [heq, hcs]; rfl⟩

end Options

namespace Finder

/-- A view is found under the name that it was given. -/
theorem find?_put {name : Value} (hname : name.sameKey name = true) (view : NamedView) :
    ∀ named : List (Value × NamedView),
      ((defineView.put named name view).find? (·.1.sameKey name)).map (·.2) = some view
  | [] => by simp [defineView.put, hname]
  | (n, v) :: named => by
    rw [defineView.put]
    split
    · next hsame => simp [hsame]
    · next hother =>
      rw [List.find?_cons_of_neg (by simpa using hother)]
      exact find?_put hname view named

/-- Options that are read can be the defaults of a view. -/
theorem defineView_eq (f : Finder) {view : ViewDefinition} (hname : view.name.hashable = true)
    {defaults : Entries} (hnamed : defaults.Named) {o : Options}
    (ho : Options.ofValue (.dict defaults) = .ok o) :
    f.defineView view defaults =
      .ok { f with named := defineView.put f.named view.name ⟨view, defaults⟩ } := by
  have hfree : ∀ e ∈ defaults, ∃ n, e.1 = .str n ∧ n ∉ reservedDefaults := by
    intro e he
    obtain ⟨n, hn⟩ := hnamed.texts e he
    have hknown := (Options.understood_of_ofValue ho e he).known
    rw [hn, Options.known_str_iff] at hknown
    refine ⟨n, hn, ?_⟩
    clear * - hknown
    revert n
    decide
  rw [defineView, if_neg]
  · rw [ho]
    simp only [bind, Except.bind, hname]
    rfl
  · rw [List.any_eq_true]
    rintro ⟨e, he, htaken⟩
    obtain ⟨n, hn, hnot⟩ := hfree e he
    simp only [hn, List.contains_iff_mem] at htaken
    exact hnot htaken

/-- **A call has its way.** Once a view has options of its own, a query of it is the query of the options
that it and the call give, spelled out under current names: those that the call gives, by whatever name,
are the call's, all others are its own, and the rest are defaults. Neither may give one option in two
ways, and only one of them an `extra`. -/
theorem view_overlaid (f : Finder) {view : ViewDefinition} (hname : view.name.hashable = true)
    {defaults options : Entries} (hnamed : defaults.Named)
    (hdistinct : options.Pairwise fun a b => a.1.sameKey b.1 = false) {o o' : Options}
    (ho : Options.ofValue (.dict defaults) = .ok o) (ho' : Options.ofValue (.dict options) = .ok o')
    (honce : Options.GivesOnce defaults) (honce' : Options.GivesOnce options)
    (hextra : defaults.get? "extra" = none ∨ options.get? "extra" = none) :
    ∃ f', f.defineView view defaults = .ok f' ∧
      f'.view view.name (.dict options) =
        f'.customView view (.dict (Options.overlaid defaults options)) ∧
      Options.ofValue (.dict (Options.overlaid defaults options)) =
        Options.ofSpelledOut (Options.overlaid defaults options) ∧
      (∃ o, Options.ofSpelledOut (Options.overlaid defaults options) = .ok o) ∧
      ∀ n, (Options.overlaid defaults options).get? n =
        ((Options.spelledOut options).get? n).or ((Options.spelledOut defaults).get? n) := by
  have hunderstood := Options.understood_of_ofValue ho
  have hunderstood' := Options.understood_of_ofValue ho'
  have hread : Options.ofValue (.dict (Options.overlaid defaults options)) =
      Options.ofSpelledOut (Options.overlaid defaults options) :=
    Options.ofValue_of_current (Options.current_overlaid hunderstood hunderstood')
      (Options.named_overlaid hunderstood hunderstood')
  refine ⟨_, f.defineView_eq hname hnamed ho, ?_, hread, Options.exists_ofSpelledOut_overlaid ho ho',
    Entries.get?_merge (Options.named_spelledOut hunderstood') _⟩
  have hself : view.name.sameKey view.name = true := Value.agrees_self false view.name
  have hoptions : ((Value.dict options).orElse (.dict [])).toEntries = .ok options := by
    rw [Value.orElse_dict]
    rfl
  have hmerge := Options.ofValue_merge hunderstood hunderstood' honce honce' hdistinct hextra
  have hquery (f : Finder) : f.customView view (.dict (defaults.merge options)) =
      f.customView view (.dict (Options.overlaid defaults options)) := by
    rw [customView, customView, hread, hmerge]
  rw [Finder.view, hname, namedView?, find?_put hself, hoptions]
  exact hquery _

/-- A view of one's own. -/
def latest : ViewDefinition :=
  { name := .str "latest", map := .str "function(doc) \x7b emit([doc.created_at], doc); \x7d" }

/-- Options under an older name, in another way and bare. -/
def latestDefaults : Entries :=
  [(.str "skip", .int 1), (.str "view_type", .str "slow"), (.str "group", .bool true)]

/-- The same options under a current name, said outright and inside `extra`. -/
def latestOptions : Entries :=
  [(.str "offset", .int 2), (.str "slow", .bool false),
    (.str "extra", .dict [(.str "group", .bool false)])]

theorem view_latest : ∃ f' : Finder,
    ({ entityType := { name := .str "Person" }, designName := "person", profile := ⟨{ minor := 9 }⟩ } :
      Finder).defineView latest latestDefaults = .ok f' ∧
    f'.view (.str "latest") (.dict latestOptions) = f'.customView latest
      (.dict [(.str "offset", .int 2), (.str "slow", .bool false), (.str "group", .bool false)]) := by
  have hskip := Options.given_plain (n := "skip") (.int 1) (by decide)
  have hoffset := Options.given_plain (n := "offset") (.int 2) (by decide)
  have hslow := Options.given_plain (n := "slow") (.bool false) (by decide)
  have hgroup := Options.given_parameter (n := "group") (.bool true) (by decide)
  have hdefaults : latestDefaults.flatMap Options.given =
      [(.str "offset", .int 1), (.str "slow", .bool true), (.str "group", .bool true)] := by
    simp [latestDefaults, hskip, hgroup, Options.given_viewType, Options.currentName, Options.asksSlow,
      Value.among, Value.sameItem_str]
  have hoptions : latestOptions.flatMap Options.given =
      [(.str "offset", .int 2), (.str "slow", .bool false), (.str "group", .bool false)] := by
    simp [latestOptions, hoffset, hslow, Options.given_extra, Options.currentName, Value.toEntries,
      Except.toOption]
  have hoverlaid : Options.overlaid latestDefaults latestOptions =
      [(.str "offset", .int 2), (.str "slow", .bool false), (.str "group", .bool false)] := by
    rw [Options.overlaid, Options.spelledOut, Options.spelledOut, hdefaults, hoptions]
    simp [Entries.ofPairs, Entries.merge, Entries.insert]
  have hnamed : latestDefaults.Named := ⟨by simp [latestDefaults], by simp [latestDefaults]⟩
  have hdistinct : latestOptions.Pairwise fun a b => a.1.sameKey b.1 = false := by
    simp [latestOptions]
  have hextra : Entries.Named [(.str "group", .bool false)] := Entries.Named.nil.cons rfl
  obtain ⟨o, ho⟩ : ∃ o, Options.ofValue (.dict latestDefaults) = .ok o :=
    Options.WellShaped.exists_ofValue ⟨hnamed, by simp [latestDefaults], by simp [latestDefaults]⟩
      (by simp [Options.NamesUnknown, latestDefaults, Options.knownNames, Options.names,
        Options.viewParameters])
  obtain ⟨o', ho'⟩ : ∃ o, Options.ofValue (.dict latestOptions) = .ok o :=
    Options.WellShaped.exists_ofValue
      ⟨⟨by simp [latestOptions], by simp [latestOptions]⟩, by simp [latestOptions],
        by simp [latestOptions, hextra]⟩
      (by simp [Options.NamesUnknown, latestOptions, Options.knownNames, Options.names,
        Options.viewParameters])
  have hname : latest.name.hashable = true := rfl
  obtain ⟨f', hdefined, hview, -⟩ := view_overlaid
    { entityType := { name := .str "Person" }, designName := "person", profile := ⟨{ minor := 9 }⟩ }
    hname hnamed hdistinct ho ho' (by simp [Options.GivesOnce, hdefaults])
    (by simp [Options.GivesOnce, hoptions]) (.inl (by simp [latestDefaults]))
  exact ⟨f', hdefined, hoverlaid ▸ hview⟩

end Finder

end ViewFinder
