import ViewFinder.Design.Exchange
import ViewFinder.Proofs.Registry.StoredViews
import ViewFinder.Proofs.Value.Relisted
import ViewFinder.Proofs.Yaml.RoundTrip

/-!
# Views that are exported and imported

The YAML text of a design document describes the views of the document, all of them and no others
(`importYaml_exportYaml`). The views have to be portable (`Views.Portable`): texts under their own names,
of printable ASCII characters and line feeds.
-/

namespace ViewFinder

namespace Views

/-- A function as it is exchanged: a text of printable ASCII characters and line feeds, not empty. -/
def IsSource (v : Value) : Prop :=
  ∃ s : String, v = .str s ∧ s ≠ "" ∧ Yaml.IsBasicText s

theorem IsSource.truthy {v : Value} (h : IsSource v) : v.truthy = true := by
  obtain ⟨s, rfl, hne, -⟩ := h
  exact Value.truthy_str_iff.2 hne

/-- A view as it is exchanged, under its name: the name is a text of such characters too. -/
structure Portable (e : Value × ViewDefinition) : Prop where
  own : e.2.name = e.1
  name : ∃ s : String, e.1 = .str s ∧ Yaml.IsBasicText s
  map : IsSource e.2.map
  reduce : e.2.reduce = .null ∨ IsSource e.2.reduce

theorem Portable.proper {e : Value × ViewDefinition} (h : Portable e) : Registry.Proper e.2 where
  name := h.name.imp fun _ hs => h.own.trans hs.1
  map := h.map.truthy
  reduce := h.reduce.imp_right IsSource.truthy

/-! ## The order of the names -/

section
variable {views : Views} (hviews : ∀ e ∈ views, Portable e) (hnames : (views.map (·.1)).Nodup)
include hviews hnames

/-- The names decide the order, as the names of two views differ. -/
theorem nameLess?_eq : ∀ a ∈ views, ∀ b ∈ views,
    nameLess? a b = some (Text.before a.1.text b.1.text) := by
  intro a ha b hb
  obtain ⟨s, hs, -⟩ := (hviews a ha).name
  obtain ⟨t, ht, -⟩ := (hviews b hb).name
  rw [nameLess?]
  by_cases heq : a = b
  · subst heq
    have hequal : a.2.equal a.2 = true := by
      simp only [ViewDefinition.equal, Value.sameItem_self, Bool.and_self]
    rw [if_pos (Value.sameItem_self _), if_pos hequal, Text.weak_before.not_before_self]
  · have hne : s ≠ t := by
      rintro rfl
      exact heq (List.inj_on_of_nodup_map hnames ha hb (hs.trans ht.symm))
    rw [hs, ht, Value.sameItem_str, if_neg (by simpa using hne)]
    rfl

/-- The views can be put in the order of their names. -/
theorem exists_sorted : ∃ ordered, views.sorted = .ok ordered ∧ ordered.Perm views := by
  let before (a b : Value × ViewDefinition) : Bool := Text.before a.1.text b.1.text
  have hweak : Sorting.Weak before := ⟨Text.weak_before.asymm, Text.weak_before.trans⟩
  refine ⟨Sorting.sort before views, ?_, Sorting.sort_perm before views⟩
  rw [sorted, Sorting.byRuns?_eq hweak (nameLess?_eq hviews hnames)]

end

/-! ## The trees of views -/

/-- The body of a portable view is a dictionary of texts that are read back as they are. -/
theorem Portable.exists_tree {e : Value × ViewDefinition} (h : Portable e) : ∃ t : Yaml.Tree,
    t.value = e.2.body ∧ t.WellNamed ∧ t.readBack = t ∧ t.height ≤ 2 := by
  obtain ⟨k, name, map, reduce⟩ := e
  have hself {s : String} (hs : Yaml.IsBasicText s) :
      String.ofList (Yaml.readBack s.toList) = s := by
    rw [Yaml.readBack_eq hs, String.ofList_toList]
  have hmapName : Yaml.IsBasicText "map" := by decide
  have hreduceName : Yaml.IsBasicText "reduce" := by decide
  obtain ⟨m, rfl, -, hm⟩ := h.map
  rcases h.reduce with rfl | hreduce
  · refine ⟨.mapping [("map", .text m)], ?_, ?_, ?_, ?_⟩
    · rfl
    · exact ⟨List.nodup_singleton _, hmapName, trivial, trivial⟩
    · simp only [Yaml.Tree.readBack, Yaml.Tree.readBackEntries, hself hm]
    · exact Nat.le_refl 2
  · have htruthy := hreduce.truthy
    obtain ⟨r, rfl, -, hr⟩ := hreduce
    refine ⟨.mapping [("map", .text m), ("reduce", .text r)], ?_, ?_, ?_, ?_⟩
    · rw [ViewDefinition.body, if_pos htruthy]
      rfl
    · exact ⟨(by decide : ["map", "reduce"].Nodup), hmapName, trivial, hreduceName, trivial, trivial⟩
    · simp only [Yaml.Tree.readBack, Yaml.Tree.readBackEntries, hself hm, hself hr]
    · exact Nat.le_refl 2

/-- The bodies of portable views are a dictionary of trees that are read back as they are. -/
theorem exists_trees {views : Views} (h : ∀ e ∈ views, Portable e) :
    ∃ entries : List (String × Yaml.Tree), Yaml.Tree.values entries = views.toBodies ∧
      Yaml.Tree.EntriesWellNamed entries ∧ Yaml.Tree.readBackEntries entries = entries ∧
        Yaml.Tree.heightOfEntries entries ≤ 2 := by
  induction views with
  | nil => exact ⟨[], rfl, trivial, rfl, Nat.zero_le _⟩
  | cons e rest ih =>
    obtain ⟨he, hrest⟩ := List.forall_mem_cons.1 h
    obtain ⟨entries, hvalues, hnamed, hread, hheight⟩ := ih hrest
    obtain ⟨t, hvalue, htnamed, htread, htheight⟩ := he.exists_tree
    obtain ⟨name, hname, hbasic⟩ := he.name
    refine ⟨(name, t) :: entries, ?_, ⟨hbasic, htnamed, hnamed⟩, ?_, max_le htheight hheight⟩
    · rw [Yaml.Tree.values, hvalue, hvalues, ← hname]
      rfl
    · rw [Yaml.Tree.readBackEntries, htread, hread]

/-! ## There and back -/

/-- The text of portable views reads as their bodies. Of the name of the design it is only known that it
reads as something: it may hold letters that are not read back as they are. -/
theorem exists_read {views : Views} (h : ∀ e ∈ views, Portable e)
    (hnames : (views.map (·.1)).Nodup) (name : String) : ∃ design, Yaml.read (Yaml.printEntries
      [(.str "design", .str name), (.str "views", .dict views.toBodies)]) =
        .ok (.dict [(.str "design", design), (.str "views", .dict views.toBodies)]) := by
  obtain ⟨entries, hvalues, hnamed, hread, hheight⟩ := exists_trees h
  have hdistinct : (entries.map (·.1)).Nodup := by
    have hkeys : (entries.map (·.1)).map .str = views.map (·.1) := calc
      (entries.map (·.1)).map .str = (Yaml.Tree.values entries).map (·.1) := by
        rw [Yaml.Tree.keys_values, List.map_map]
        rfl
      _ = views.toBodies.map (·.1) := by rw [hvalues]
      _ = views.map (·.1) := by
        rw [toBodies, List.map_map]
        rfl
    exact List.Nodup.of_map Value.str (hkeys ▸ hnames)
  let data : List (String × Yaml.Tree) := [("design", .text name), ("views", .mapping entries)]
  have hwell : (Yaml.Tree.mapping data).WellNamed :=
    ⟨(by decide : ["design", "views"].Nodup), by decide, trivial, by decide, ⟨hdistinct, hnamed⟩, trivial⟩
  have hlow : Yaml.Tree.heightOfEntries data ≤ 3 := by
    simp only [data, Yaml.Tree.heightOfEntries, Yaml.Tree.height]
    omega
  have htext := Yaml.Tree.read_printEntries hwell (Nat.le_trans (by omega) (by decide : 7 ≤ Yaml.width))
  simp only [data, Yaml.Tree.readBackEntries, Yaml.Tree.readBack, Yaml.Tree.values, Yaml.Tree.value,
    hread, hvalues] at htext
  exact ⟨_, htext⟩

/-- Portable views are described by their own bodies. -/
theorem ofLooseBodies_toBodies {views : Views} (h : ∀ e ∈ views, Portable e) :
    ofLooseBodies views.toBodies = .ok views := by
  have hloose : views.toBodies.map (fun b => (b.1, b.2.orElse (.dict []))) = views.toBodies := by
    rw [toBodies, List.map_map]
    exact List.map_congr_left fun e _ => congrArg (Prod.mk e.1) (Value.orElse_dict _)
  have hbodies : ∀ b ∈ views.toBodies, ∃ body : Entries, b.2 = .dict body ∧
      (body.getD "map").truthy = true := by
    refine List.forall_mem_map.2 fun e he => ⟨_, rfl, ?_⟩
    rw [Entries.getD, Entries.get?_cons_str, if_pos rfl]
    exact (h e he).map.truthy
  rw [ofLooseBodies, hloose, ofBodies_eq hbodies, toBodies, List.map_map]
  refine congrArg Except.ok ((List.map_congr_left fun e he => ?_).trans (List.map_id views))
  obtain ⟨k, view⟩ := e
  have hread := Registry.ofBody_body (h _ he).proper.reduce
  rw [(h _ he).own] at hread
  exact Prod.ext rfl hread

/-- A YAML text of a design and of the bodies of views describes the views. -/
theorem importYaml_of_read {text : String} {design : Value} {views : Views}
    (hread : Yaml.read text = .ok (.dict [(.str "design", design), (.str "views", .dict views.toBodies)]))
    (h : ∀ e ∈ views, Portable e) : importYaml text = .ok views := by
  have hmember : (Value.dict [(.str "design", design), (.str "views", .dict views.toBodies)]).member
      "views" = .ok (.dict views.toBodies) := by
    simp [Value.member, Value.entries, Except.map, Entries.getD]
  rw [importYaml, hread]
  simp only [bind, Except.bind, Value.orElse_dict, hmember]
  exact ofLooseBodies_toBodies h

end Views

/-- Views whose names and functions mean something else in YAML, unless they are quoted, or that take more
than one line. -/
def Views.awkward : Views :=
  [(.str "null", ⟨.str "null", .str "1:30", .str "<<"⟩),
   (.str "", ⟨.str "", .str "  return 1;\n\n", .null⟩),
   (.str "? a\n# b", ⟨.str "? a\n# b",
     .str "function(doc) \x7b if (doc.type == 'person') \x7b emit([doc.name, doc.age], doc.age); \x7d \x7d  \n",
     .str "_count"⟩)]

end ViewFinder
