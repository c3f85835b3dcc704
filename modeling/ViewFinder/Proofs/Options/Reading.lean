import ViewFinder.Proofs.Options.Given
import ViewFinder.Proofs.Sorting.Runs
import ViewFinder.Proofs.Text.Identifier

/-!
# Reading options

Dictionaries of options are read up to the order of their entries and the age of their names. A dictionary
of the usual shape (`WellShaped`) is refused exactly if it names something unknown (`NamesUnknown`), and
there is no other way for it to fail; the options that are read, written out as a dictionary, are read back
as they are (`ofValue_toEntries`); and where nothing is given in two ways, the entries can be put in
any order under older or current names (`ofValue_reordered`). `reading_options` puts the three together.
-/

namespace ViewFinder.Options

/-- The usual shape of a dictionary of options: its keys are names, and `conditions` and `extra` are
dictionaries or null, with names as the keys of `extra`. -/
structure WellShaped (es : Entries) : Prop where
  named : es.Named
  conditions : ∀ v, es.get? "conditions" = some v → v = .null ∨ ∃ cs, v = .dict cs
  extra : ∀ v, es.get? "extra" = some v → v = .null ∨ ∃ xs, v = .dict xs ∧ Entries.Named xs

/-- Does a dictionary of options name anything that is no option, older name or view parameter? What is
named in `extra` must be a view parameter. -/
def NamesUnknown (es : Entries) : Prop :=
  (∃ e ∈ es, ∀ n ∈ knownNames, e.1 ≠ .str n) ∨
    ∃ xs, es.get? "extra" = some (.dict xs) ∧ ∃ p ∈ xs, ∀ n ∈ viewParameters, p.1 ≠ .str n

/-! ## Refusing -/

section
variable {acc : Options × Entries} {es xs : Entries}

/-- Texts can be put in order. -/
theorem exists_sorted?_texts {vs : List Value} (h : ∀ v ∈ vs, ∃ s, v = .str s) :
    ∃ sorted, Value.sorted? vs = some sorted ∧ sorted.Perm vs := by
  refine ⟨_, Sorting.byRuns?_eq (Text.weak_before.comp Value.text) fun v hv w hw => ?_,
    Sorting.sort_perm ..⟩
  obtain ⟨s, rfl⟩ := h v hv
  obtain ⟨t, rfl⟩ := h w hw
  rw [Value.less?]
  rfl

/-- Names that are no view parameters are refused. -/
theorem checkExtra_refuses (htexts : ∀ p ∈ xs, ∃ n, p.1 = .str n)
    (hbad : ¬∀ p ∈ xs, isViewParameter p.1 = true) :
    ∃ unknown, checkExtra xs = .error (.refused (.unknownParameters unknown)) := by
  have hunknown : ∀ v ∈ unknownParameters xs, ∃ s, v = .str s := fun v hv => by
    obtain ⟨p, hp, rfl⟩ := List.mem_map.1 (List.mem_filter.1 hv).1
    exact htexts p hp
  obtain ⟨sorted, hsorted, hperm⟩ := exists_sorted?_texts hunknown
  have hread (f : Value → Option String) (hf : ∀ s, f (.str s) = some s) {vs : List Value}
      (h : ∀ v ∈ vs, ∃ s, v = .str s) : vs.mapM f ≠ none := by
    induction vs with
    | nil => simp
    | cons v vs ih =>
      obtain ⟨⟨s, rfl⟩, hvs⟩ := List.forall_mem_cons.1 h
      obtain ⟨names, hnames⟩ := Option.ne_none_iff_exists'.1 (ih hvs)
      simp [hf, hnames]
  rw [checkExtra]
  split
  · next hnone => exact absurd (checkExtra_eq_ok_iff.1 (by rw [checkExtra, hnone])) hbad
  · rw [hsorted]
    dsimp only
    split
    · exact ⟨_, rfl⟩
    · next hnone =>
      have htexts : ∀ v ∈ sorted, ∃ s, v = .str s := fun v hv => hunknown v (hperm.mem_iff.1 hv)
      exact absurd hnone (hread _ (fun _ => rfl) htexts)

/-- Taking a known entry whose `extra` can be read succeeds, and gathers names. -/
theorem exists_takeEntry {k v : Value} (hk : Known k)
    (hextra : k = .str "extra" → ∃ xs, (v.orElse (.dict [])).toEntries = .ok xs ∧
      ∀ p ∈ xs, ∃ n, p.1 = .str n) (hacc : ∀ p ∈ acc.2, ∃ n, p.1 = .str n) :
    ∃ acc', takeEntry acc k v = .ok acc' ∧ ∀ p ∈ acc'.2, ∃ n, p.1 = .str n := by
  obtain ⟨o, x⟩ := acc
  by_cases heq : k = .str "extra"
  · obtain ⟨xs, hxs, htexts⟩ := hextra heq
    subst heq
    exact ⟨(o, x.merge xs), by rw [takeEntry_extra, hxs]; rfl, Entries.texts_merge hacc htexts⟩
  · rcases takeEntry_known o x v hk heq with ⟨o', htake⟩ | ⟨n, rfl, htake⟩
    · exact ⟨_, htake, hacc⟩
    · have hset : ∀ p ∈ Entries.merge x [(.str n, v)], ∃ m, p.1 = .str m :=
        Entries.texts_merge hacc (List.forall_mem_singleton.2 ⟨n, rfl⟩)
      exact ⟨_, htake, hset⟩

/-- Taking the entries of a dictionary whose `extra` can be read fails at the first key that is not known,
if there is one. -/
theorem takeEntries_outcome (hextra : ∀ e ∈ es, e.1 = .str "extra" →
      ∃ xs, (e.2.orElse (.dict [])).toEntries = .ok xs ∧ ∀ p ∈ xs, ∃ n, p.1 = .str n)
    (hacc : ∀ p ∈ acc.2, ∃ n, p.1 = .str n) :
    (∀ e ∈ es, Known e.1) ∧
        (∃ acc', takeEntries acc es = .ok acc' ∧ ∀ p ∈ acc'.2, ∃ n, p.1 = .str n) ∨
      (∃ e ∈ es, ¬Known e.1) ∧
        ∃ name, takeEntries acc es = .error (.refused (.unknownOption name)) := by
  induction es generalizing acc with
  | nil => exact .inl ⟨fun _ he => absurd he List.not_mem_nil, acc, rfl, hacc⟩
  | cons e es ih =>
    obtain ⟨he, hes⟩ := List.forall_mem_cons.1 hextra
    by_cases hk : Known e.1
    · obtain ⟨next, htake, hnext⟩ := exists_takeEntry hk he hacc
      have hstep : takeEntries acc (e :: es) = takeEntries next es := by
        rw [takeEntries, htake]
        rfl
      rw [hstep]
      rcases ih hes hnext with ⟨hknown, htaken⟩ | ⟨⟨f, hf, hunknown⟩, hrefused⟩
      · exact .inl ⟨List.forall_mem_cons.2 ⟨hk, hknown⟩, htaken⟩
      · exact .inr ⟨⟨f, List.mem_cons_of_mem _ hf, hunknown⟩, hrefused⟩
    · refine .inr ⟨⟨e, List.mem_cons_self .., hk⟩, e.1.text, ?_⟩
      rw [takeEntries, takeEntry_unknown _ _ _ hk]
      rfl

end

/-- The conditions are read from what stands under their name. -/
theorem mem_of_mem_given_conditions {e : Value × Value} (he : Understood e) {v : Value}
    (hv : (.str "conditions", v) ∈ given e) : e = (.str "conditions", v) := by
  obtain ⟨k, w⟩ := e
  obtain ⟨hknown, hextra⟩ := he
  cases hknown with
  | viewType =>
    rw [given_viewType] at hv
    simp at hv
  | unversioned =>
    rw [given_unversioned] at hv
    simp at hv
  | update =>
    rw [given_update] at hv
    simp at hv
  | extra =>
    obtain ⟨xs, hxs, hparams⟩ := hextra rfl
    rw [given_extra, hxs] at hv
    obtain ⟨n, hn, heq⟩ := isViewParameter_iff.1 (hparams _ hv)
    cases heq
    exact absurd hn (by decide)
  | parameter hn =>
    rw [given_parameter _ hn] at hv
    cases List.mem_singleton.1 hv
    exact absurd hn (by decide)
  | @plain n hn =>
    rw [given_plain _ hn] at hv
    have heq := List.mem_singleton.1 hv
    rw [Prod.mk.injEq, Value.str.injEq] at heq
    obtain ⟨hname, rfl⟩ := heq
    rcases currentName_eq_or n with hn | ⟨hold, -⟩
    · rw [hname, hn]
    · have hother : ∀ n ∈ ["return_json", "skip", "count"], "conditions" ≠ currentName n := by decide
      exact absurd hname (hother n hold)

section
variable {es : Entries} (h : WellShaped es)
include h

/-- What stands under `extra` can be read. -/
theorem WellShaped.exists_further {v : Value} (hv : (.str "extra", v) ∈ es) :
    ∃ xs, (v.orElse (.dict [])).toEntries = .ok xs ∧ (∀ p ∈ xs, ∃ n, p.1 = .str n) ∧
      ∀ p ∈ xs, es.get? "extra" = some (.dict xs) := by
  have hget := h.named.get?_eq_some_iff.2 hv
  rcases h.extra v hget with rfl | ⟨xs, rfl, hxs⟩
  · exact ⟨[], rfl, by simp, by simp⟩
  · exact ⟨xs, by rw [Value.orElse_dict]; rfl, hxs.texts, fun _ _ => hget⟩

/-- Where nothing unknown is named, every entry is understood. -/
theorem WellShaped.understood (hnames : ¬NamesUnknown es) : ∀ e ∈ es, Understood e := by
  rintro ⟨k, v⟩ he
  obtain ⟨n, rfl⟩ := h.named.texts _ he
  constructor
  case known =>
    by_contra hk
    refine hnames (.inl ⟨_, he, fun m hm heq => hk ?_⟩)
    rw [heq]
    exact known_str_iff.2 hm
  case extra =>
    intro hn
    cases hn
    obtain ⟨xs, hxs, -, hget⟩ := h.exists_further he
    refine ⟨xs, hxs, fun p hp => ?_⟩
    by_contra hbad
    refine hnames (.inr ⟨xs, hget p hp, p, hp, fun m hm heq => hbad ?_⟩)
    exact isViewParameter_iff.2 ⟨m, hm, heq⟩

/-- A dictionary that names something unknown is refused. -/
theorem WellShaped.refused (hnames : NamesUnknown es) :
    ∃ why, ofValue (.dict es) = .error (.refused why) := by
  have hextra : ∀ e ∈ es, e.1 = .str "extra" →
      ∃ xs, (e.2.orElse (.dict [])).toEntries = .ok xs ∧ ∀ p ∈ xs, ∃ n, p.1 = .str n := by
    rintro ⟨k, v⟩ he rfl
    obtain ⟨xs, hxs, htexts, -⟩ := h.exists_further he
    exact ⟨xs, hxs, htexts⟩
  have hnone : ∀ p ∈ (({}, []) : Options × Entries).2, ∃ n, p.1 = .str n := by simp
  rw [ofValue_entries]
  rcases takeEntries_outcome hextra hnone with
    ⟨hknown, acc, htake, htexts⟩ | ⟨-, name, hrefused⟩
  · -- every key is known, so the unknown name is among the view parameters
    have hbad : ¬∀ p ∈ acc.2, isViewParameter p.1 = true := fun hparams => by
      have hunderstood := (understood_of_takeEntries htake hparams).1
      rcases hnames with ⟨e, he, hunknown⟩ | ⟨xs, hget, p, hp, hunknown⟩
      · obtain ⟨n, hn⟩ := h.named.texts e he
        have hk := hknown e he
        rw [hn] at hk
        exact hunknown n (known_str_iff.1 hk) hn
      · obtain ⟨ys, hys, hall⟩ := (hunderstood _ (Entries.mem_of_get? hget)).extra rfl
        rw [Value.orElse_dict] at hys
        cases hys
        obtain ⟨n, hn, heq⟩ := isViewParameter_iff.1 (hall p hp)
        exact hunknown n hn heq
    obtain ⟨unknown, hcheck⟩ := checkExtra_refuses htexts hbad
    exact ⟨_, by simp only [htake, bind, Except.bind, hcheck]; rfl⟩
  · exact ⟨_, by rw [hrefused]; rfl⟩

/-- A dictionary that names nothing unknown is read. -/
theorem WellShaped.exists_ofValue (hnames : ¬NamesUnknown es) : ∃ o, ofValue (.dict es) = .ok o := by
  have hunderstood := h.understood hnames
  have hconditions : ∃ cs,
      ((ofCurrent (spelledOut es)).conditions.orElse (.dict [])).toEntries = .ok cs := by
    rw [ofCurrent]
    cases hget : (spelledOut es).get? "conditions" with
    | none => exact ⟨[], rfl⟩
    | some v =>
      have hgiven : (.str "conditions", v) ∈ es.flatMap given :=
        (Entries.mem_or_get?_of_get?_merge (texts_flatMap_given hunderstood) hget).resolve_right (by simp)
      obtain ⟨e, he, hv⟩ := List.mem_flatMap.1 hgiven
      obtain rfl := mem_of_mem_given_conditions (hunderstood e he) hv
      rcases h.conditions v (h.named.get?_eq_some_iff.2 he) with rfl | ⟨cs, rfl⟩
      · exact ⟨[], rfl⟩
      · exact ⟨cs, by simp only [Option.getD_some, Value.orElse_dict]; rfl⟩
  obtain ⟨cs, hcs⟩ := hconditions
  exact ⟨_, by rw [ofValue_dict hunderstood, ofSpelledOut, hcs]; rfl⟩

end

/-! ## Reading what was written out -/

/-- The values of the plain options, in the order of their names. -/
def plainValues (o : Options) : List Value :=
  [o.conditions, o.useKey, o.order, o.limit, o.offset, o.descending, o.readonly, o.raw, o.updateIndex,
    o.slow, o.startkey, o.endkey]

theorem toEntries_eq (o : Options) :
    o.toEntries = Entries.ofNames plainNames o.plainValues ++ [(.str "extra", o.extra)] := rfl

section
variable {o : Options} {vs : List Value}

theorem current_ofNames : ∀ e ∈ Entries.ofNames plainNames vs, Current e :=
  List.forall_mem_map.2 fun e he => ⟨e.1, .inl (List.of_mem_zip he).1, rfl⟩

/-- There is no view parameter among the plain options. -/
theorem viewParams_ofNames : viewParams (Entries.ofNames plainNames vs) = [] := by
  refine List.filter_eq_nil_iff.2 (List.forall_mem_map.2 fun e he => ?_)
  rw [isViewParameter_of_mem_plainNames _ (List.of_mem_zip he).1]
  decide

/-- The options that are read, written out, are read back. -/
theorem ofValue_toEntries {conditions extra : Entries} (hconditions : o.conditions = .dict conditions)
    (hextra : o.extra = .dict extra) (hnamed : extra.Named)
    (hparams : ∀ p ∈ extra, isViewParameter p.1 = true) : ofValue (.dict o.toEntries) = .ok o := by
  have hread : (o.extra.orElse (.dict [])).toEntries = .ok extra := by
    rw [hextra, Value.orElse_dict]
    rfl
  have hunderstood : ∀ e ∈ o.toEntries, Understood e := by
    rw [toEntries_eq, List.forall_mem_append]
    refine ⟨fun e he => (current_ofNames e he).understood, List.forall_mem_singleton.2 ⟨.extra, ?_⟩⟩
    exact fun _ => ⟨extra, hread, hparams⟩
  have hspelled : spelledOut o.toEntries = (Entries.ofNames plainNames o.plainValues).merge extra := by
    have hplain : (Entries.ofNames plainNames o.plainValues).Named := Entries.named_ofNames (by decide)
    rw [spelledOut, toEntries_eq, List.flatMap_append,
      flatMap_given_of_current current_ofNames, List.flatMap_singleton,
      given_extra, hread, Entries.ofPairs, Entries.merge_append]
    exact congrArg (Entries.merge · extra) (Entries.ofPairs_of_named hplain)
  have hcurrent : ofCurrent (spelledOut o.toEntries) = { o with extra := .dict [] } := by
    rw [hspelled, ofCurrent_merge hparams]
    simp [ofCurrent, Entries.ofNames, Entries.getD, plainNames, plainValues]
  have hfurther : viewParams (spelledOut o.toEntries) = extra := by
    rw [hspelled, viewParams_merge hparams, viewParams_ofNames]
    exact Entries.ofPairs_of_named hnamed
  rw [ofValue_dict hunderstood, ofSpelledOut, hcurrent, hfurther]
  obtain ⟨conditions', useKey, order, limit, offset, descending, readonly, raw, updateIndex, slow, startkey,
    endkey, extra'⟩ := o
  cases hconditions
  cases hextra
  simp only [Value.orElse_dict]
  rfl

end

/-! ## Orders and older names -/

/-- The same entries, some under an older name or a current one. -/
def Renamed (es ds : Entries) : Prop :=
  List.Forall₂ (fun e d => currentKey e.1 = currentKey d.1 ∧ e.2 = d.2) es ds

/-- The same options; the entries of a dictionary are in no order. -/
def Same (o o' : Options) : Prop :=
  ∃ xs ys, o.extra = .dict xs ∧ o' = { o with extra := .dict ys } ∧ ys.Perm xs

theorem exists_of_currentKey {k : Value} {n : String} (h : currentKey k = .str n) :
    ∃ m, k = .str m ∧ currentName m = n := by
  cases k with
  | str m => exact ⟨m, rfl, Value.str.inj h⟩
  | _ => cases h

/-- Only plain options have older names. -/
theorem eq_of_currentKey {k : Value} {n : String} (h : currentKey k = .str n) (hn : n ∉ plainNames) :
    k = .str n := by
  obtain ⟨m, rfl, hm⟩ := exists_of_currentKey h
  rcases currentName_eq_or m with hsame | ⟨-, hplain⟩
  · rw [← hm, hsame]
  · exact absurd (hm ▸ hplain) hn

/-- A key that has the current form of a known one is known. -/
theorem Known.of_currentKey {k l : Value} (hk : Known k) (h : currentKey k = currentKey l) : Known l := by
  cases hk with
  | viewType => exact eq_of_currentKey h.symm (by decide) ▸ .viewType
  | update => exact eq_of_currentKey h.symm (by decide) ▸ .update
  | extra => exact eq_of_currentKey h.symm (by decide) ▸ .extra
  | unversioned =>
    cases l with
    | version w =>
      cases h
      exact .unversioned
    | _ => cases h
  | @parameter n hn =>
    have hother : n ∉ plainNames := by
      clear h
      revert n
      decide
    rw [currentKey, currentName_of_mem_viewParameters n hn] at h
    exact eq_of_currentKey h.symm hother ▸ .parameter hn
  | plain hn =>
    obtain ⟨m, rfl, hm⟩ := exists_of_currentKey h.symm
    exact .plain (hm ▸ hn)

section
variable {es ds fs : Entries}

/-- What entries give does not depend on the age of their names. -/
theorem Renamed.flatMap_given (h : Renamed es ds) : ds.flatMap given = es.flatMap given := by
  induction h with
  | nil => rfl
  | cons he _ ih => rw [List.flatMap_cons, List.flatMap_cons, ih, given, given, he.1, he.2]

theorem Renamed.understood (h : Renamed es ds) (hes : ∀ e ∈ es, Understood e) :
    ∀ d ∈ ds, Understood d := by
  induction h with
  | nil => exact hes
  | cons he _ ih =>
    obtain ⟨hunderstood, hrest⟩ := List.forall_mem_cons.1 hes
    refine List.forall_mem_cons.2 ⟨⟨hunderstood.known.of_currentKey he.1, fun hd => ?_⟩, ih hrest⟩
    rw [← he.2]
    refine hunderstood.extra (eq_of_currentKey (he.1.trans ?_) (by decide))
    rw [hd]
    exact congrArg Value.str (currentName_of_mem_names "extra" (by decide))

/-- Where everything is given once, the entries are read in any order and under names of any age. -/
theorem ofValue_reordered (honce : GivesOnce es) (hrenamed : Renamed es ds) (hperm : fs.Perm ds)
    {o : Options} (h : ofValue (.dict es) = .ok o) : ∃ o', ofValue (.dict fs) = .ok o' ∧ o.Same o' := by
  have hes := understood_of_ofValue h
  have hfs : ∀ f ∈ fs, Understood f := fun f hf => hrenamed.understood hes f (hperm.mem_iff.1 hf)
  have hgiven : (fs.flatMap given).Perm (es.flatMap given) :=
    hrenamed.flatMap_given ▸ hperm.flatMap_right given
  have honce' : GivesOnce fs := (hgiven.map _).nodup_iff.2 honce
  have hspelled : (spelledOut fs).Perm (spelledOut es) := by
    rw [spelledOut_of_givesOnce hfs honce', spelledOut_of_givesOnce hes honce]
    exact hgiven
  have hcurrent : ofCurrent (spelledOut fs) = ofCurrent (spelledOut es) :=
    ofCurrent_congr fun n _ => (named_spelledOut hes).get?_perm hspelled n
  obtain ⟨conditions, hconditions, rfl⟩ := eq_of_ofValue h
  refine ⟨_, ?_, viewParams (spelledOut es), viewParams (spelledOut fs), rfl, rfl, hspelled.filter _⟩
  rw [ofValue_dict hfs, ofSpelledOut, hcurrent, hconditions]
  rfl

/-- **Options are read from names, not from places.** A dictionary of options of the usual shape is
refused exactly if it names something unknown, and is read otherwise; writing out what was read and
reading that gives the same; and unless something is given in two ways, the entries can be put in any
order, under older or current names. -/
theorem reading_options (h : WellShaped es) :
    ((∃ why, ofValue (.dict es) = .error (.refused why)) ↔ NamesUnknown es) ∧
    ((∃ o, ofValue (.dict es) = .ok o) ↔ ¬NamesUnknown es) ∧
    ∀ o, ofValue (.dict es) = .ok o →
      ofValue (.dict o.toEntries) = .ok o ∧
      (GivesOnce es → ∀ ds fs, Renamed es ds → fs.Perm ds →
        ∃ o', ofValue (.dict fs) = .ok o' ∧ o.Same o') := by
  have hread : (∃ o, ofValue (.dict es) = .ok o) → ¬NamesUnknown es := fun ⟨o, ho⟩ hunknown => by
    obtain ⟨why, hwhy⟩ := h.refused hunknown
    cases ho.symm.trans hwhy
  refine ⟨⟨fun ⟨why, hwhy⟩ => ?_, h.refused⟩, ⟨hread, h.exists_ofValue⟩, fun o ho => ⟨?_, ?_⟩⟩
  · by_contra hunknown
    obtain ⟨o, ho⟩ := h.exists_ofValue hunknown
    cases ho.symm.trans hwhy
  · obtain ⟨conditions, -, rfl⟩ := eq_of_ofValue ho
    have hnamed := named_spelledOut (understood_of_ofValue ho)
    exact ofValue_toEntries rfl rfl (hnamed.filter _) fun p hp => (List.mem_filter.1 hp).2
  · exact fun honce ds fs hrenamed hperm => ofValue_reordered honce hrenamed hperm ho

end

/-- Options under an older name, in another way, inside `extra` and bare. -/
def mixedOptions : Entries :=
  [(.str "count", .int 2), (.str "view_type", .str "slow"),
    (.str "extra", .dict [(.str "keys", .list [])]), (.str "group", .bool true)]

/-- `mixedOptions` from back to front, with the current name of the limit. -/
def reorderedOptions : Entries :=
  [(.str "group", .bool true), (.str "extra", .dict [(.str "keys", .list [])]),
    (.str "view_type", .str "slow"), (.str "limit", .int 2)]

theorem reading_mixedOptions : WellShaped mixedOptions ∧ GivesOnce mixedOptions ∧
    ∃ o, ofValue (.dict mixedOptions) = .ok o ∧ ofValue (.dict o.toEntries) = .ok o ∧
      ∃ o', ofValue (.dict reorderedOptions) = .ok o' ∧ o.Same o' := by
  have hshape : WellShaped mixedOptions := by
    have hkeys : Entries.Named [(.str "keys", .list [])] := Entries.Named.nil.cons rfl
    exact ⟨⟨by simp [mixedOptions], by simp [mixedOptions]⟩, by simp [mixedOptions],
      by simp [mixedOptions, hkeys]⟩
  have hknown : ¬NamesUnknown mixedOptions := by
    simp [NamesUnknown, mixedOptions, knownNames, names, viewParameters]
  have honce : GivesOnce mixedOptions := by
    have hcount := given_plain (n := "count") (.int 2) (by decide)
    have hgroup := given_parameter (n := "group") (.bool true) (by decide)
    simp [GivesOnce, mixedOptions, hcount, hgroup, given_viewType, given_extra, currentName,
      Value.toEntries, Except.toOption]
  have hrenamed : Renamed mixedOptions reorderedOptions.reverse := by
    simp [Renamed, mixedOptions, reorderedOptions, currentKey, currentName]
  obtain ⟨-, hread, hrest⟩ := reading_options hshape
  obtain ⟨o, ho⟩ := hread.2 hknown
  obtain ⟨hback, hreordered⟩ := hrest o ho
  exact ⟨hshape, honce, o, ho, hback,
    hreordered honce _ _ hrenamed (List.reverse_perm reorderedOptions).symm⟩

end ViewFinder.Options
