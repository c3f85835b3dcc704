import ViewFinder.Options
import ViewFinder.Proofs.Overlay

/-!
# What a dictionary of options gives

An option can be given by its current name, by an older one, or by an older option that says it in
another way; a view parameter bare or inside `extra`. `given` is what an entry of a dictionary of options
gives under current names, and `spelledOut` what the whole dictionary gives, a later entry replacing an
earlier one. Every option and view parameter has one entry there at most.

A dictionary is understood when each entry is (`Understood`): its key is known (`Known`), and what
stands under `extra` can be read and holds view parameters only. Taking an entry adds what it gives
(`takeEntry_eq`), so an understood dictionary is read as it is spelled out (`ofValue_dict`). No other one
is read (`understood_of_ofValue`).
-/

namespace ViewFinder

/-- A text is the same key as itself only. -/
theorem Value.str_sameKey_iff {n : String} {k : Value} : (Value.str n).sameKey k = true ↔ k = .str n := by
  cases k with
  | str m =>
    rw [sameKey_str, decide_eq_true_iff, Value.str.injEq]
    exact eq_comm
  | _ => simp [sameKey, isSameNaN, agree]

namespace Options

/-! ## Names -/

/-- The options that are taken over as they are given, all but `extra`. -/
def plainNames : List String :=
  ["conditions", "use_key", "order", "limit", "offset", "descending", "readonly", "raw",
    "update_index", "slow", "startkey", "endkey"]

/-- The names by which an option or a view parameter can be given: the current ones, older ones, and
those of options that were said in another way. -/
def knownNames : List String :=
  names ++ viewParameters ++ ["return_json", "skip", "count", "view_type", "update"]

/-- The keys by which an option or a view parameter can be given. The version that is read where there is
none counts as any text without a version. -/
inductive Known : Value → Prop
  | viewType : Known (.str "view_type")
  | unversioned : Known (.version {})
  | update : Known (.str "update")
  | extra : Known (.str "extra")
  | parameter {n : String} (hn : n ∈ viewParameters) : Known (.str n)
  | plain {n : String} (hn : currentName n ∈ plainNames) : Known (.str n)

theorem currentName_of_mem_viewParameters : ∀ n ∈ viewParameters, currentName n = n := by decide

theorem currentName_of_mem_names : ∀ n ∈ names, currentName n = n := by decide

/-- No view parameter and no plain option is said in another way. -/
theorem not_older_of_mem_viewParameters :
    ∀ n ∈ viewParameters, n ∉ ["view_type", "update", "extra"] := by decide

theorem not_older_of_mem_plainNames : ∀ n ∈ plainNames, n ∉ ["view_type", "update", "extra"] := by decide

/-- The only older names are three. -/
theorem currentName_eq_or (n : String) :
    currentName n = n ∨ n ∈ ["return_json", "skip", "count"] ∧ currentName n ∈ plainNames := by
  simp only [currentName, beq_iff_eq]
  split
  · exact .inr (by subst n; decide)
  · split
    · exact .inr (by subst n; decide)
    · split
      · exact .inr (by subst n; decide)
      · exact .inl rfl

theorem isViewParameter_iff {k : Value} : isViewParameter k = true ↔ ∃ n ∈ viewParameters, k = .str n := by
  simp only [isViewParameter, List.any_eq_true, Value.str_sameKey_iff]

/-- A text is a known key exactly if it is a known name. -/
theorem known_str_iff {n : String} : Known (.str n) ↔ n ∈ knownNames := by
  constructor
  · intro h
    cases h with
    | viewType | update | extra => decide
    | parameter hn => exact List.mem_append_left _ (List.mem_append_right _ hn)
    | plain hn =>
      rcases currentName_eq_or n with hcurrent | ⟨hold, -⟩
      · rw [hcurrent] at hn
        revert n
        decide
      · clear hn
        revert n
        decide
  · intro h
    rcases List.mem_append.1 h with h | h
    · rcases List.mem_append.1 h with h | h
      · by_cases hextra : n = "extra"
        · exact hextra ▸ .extra
        · refine .plain ?_
          revert n
          decide
      · exact .parameter h
    · by_cases hplain : currentName n ∈ plainNames
      · exact .plain hplain
      · have hother : n = "view_type" ∨ n = "update" := by
          revert n
          decide
        rcases hother with rfl | rfl
        · exact .viewType
        · exact .update

/-- Known keys are told apart as they are. -/
theorem Known.eq_of_sameKey {k l : Value} (hk : Known k) (hl : Known l) (h : k.sameKey l = true) :
    k = l := by
  have hform {k : Value} (hk : Known k) : (∃ n, k = .str n) ∨ ∃ v, k = .version v := by
    cases hk with
    | unversioned => exact .inr ⟨_, rfl⟩
    | _ => exact .inl ⟨_, rfl⟩
  rcases hform hl with ⟨n, rfl⟩ | ⟨w, rfl⟩
  · exact Value.sameKey_str_iff.1 h
  · rcases hform hk with ⟨m, rfl⟩ | ⟨v, rfl⟩
    · simp [Value.sameKey, Value.isSameNaN, Value.agree] at h
    · simpa [Value.sameKey, Value.isSameNaN, Value.agree] using h

/-! ## What an entry gives -/

/-- What an entry of a dictionary of options gives, under current names. -/
def given (e : Value × Value) : Entries :=
  if (currentKey e.1).equal (.str "view_type") then [(.str "slow", .bool (asksSlow e.2))]
  else if (currentKey e.1).equal (.str "update") then [(.str "update_index", .bool e.2.truthy)]
  else if (currentKey e.1).equal (.str "extra") then
    ((e.2.orElse (.dict [])).toEntries).toOption.getD []
  else [(currentKey e.1, e.2)]

/-- What a dictionary of options gives, under current names; of several entries that give one option the
last counts. -/
def spelledOut (es : Entries) : Entries := Entries.ofPairs (es.flatMap given)

/-- Is every option and view parameter given once at most, in whatever way? -/
def GivesOnce (es : Entries) : Prop := ((es.flatMap given).map (·.1)).Nodup

section
variable {n : String} (v : Value)

theorem equal_str (m n : String) : (Value.str m).equal (.str n) = decide (m = n) := by
  rw [Value.equal, Value.agree, Bool.beq_eq_decide_eq]

/-- The keys that count as an older option, or as `extra`. -/
theorem equal_iff {k : Value} (hn : n ∈ ["view_type", "update", "extra"]) :
    k.equal (.str n) = true ↔ k = .str n ∨ k = .version {} := by
  have hread : Version.read n.toList = .ok {} := by
    revert n
    decide +kernel
  cases k with
  | str m => simp [equal_str]
  | version w => simp [Value.equal, Value.agree, Version.agreesWith, Version.ofLoose?, hread]
  | _ => simp [Value.equal, Value.agree, Value.agree.numberAgrees, Value.isNull, Value.quantity?]

theorem given_viewType : given (.str "view_type", v) = [(.str "slow", .bool (asksSlow v))] := by
  simp [given, currentKey, currentName, equal_str]

theorem given_unversioned : given (.version {}, v) = [(.str "slow", .bool (asksSlow v))] :=
  if_pos ((equal_iff (by decide)).2 (.inr rfl))

theorem given_update : given (.str "update", v) = [(.str "update_index", .bool v.truthy)] := by
  simp [given, currentKey, currentName, equal_str]

theorem given_extra : given (.str "extra", v) = ((v.orElse (.dict [])).toEntries).toOption.getD [] := by
  simp [given, currentKey, currentName, equal_str]

theorem given_parameter (hn : n ∈ viewParameters) : given (.str n, v) = [(.str n, v)] := by
  have hcurrent := currentName_of_mem_viewParameters n hn
  have hother := not_older_of_mem_viewParameters n hn
  simp only [List.mem_cons, List.not_mem_nil, or_false, not_or] at hother
  simp [given, currentKey, equal_str, hcurrent, hother]

theorem given_plain (hn : currentName n ∈ plainNames) :
    given (.str n, v) = [(.str (currentName n), v)] := by
  have hother := not_older_of_mem_plainNames _ hn
  simp only [List.mem_cons, List.not_mem_nil, or_false, not_or] at hother
  simp [given, currentKey, equal_str, hother]

end

/-! ## Options of a dictionary that is spelled out -/

/-- The options under their current names, each its default where there is none. -/
def ofCurrent (g : Entries) : Options where
  conditions := (g.get? "conditions").getD (.dict [])
  useKey := g.getD "use_key"
  order := g.getD "order"
  limit := g.getD "limit"
  offset := g.getD "offset"
  descending := (g.get? "descending").getD (.bool false)
  readonly := (g.get? "readonly").getD (.bool false)
  raw := (g.get? "raw").getD (.bool false)
  updateIndex := (g.get? "update_index").getD (.bool true)
  slow := (g.get? "slow").getD (.bool false)
  startkey := g.getD "startkey"
  endkey := g.getD "endkey"

/-- The view parameters among the entries. -/
def viewParams (g : Entries) : Entries := List.filter (fun e => isViewParameter e.1) g

/-- The options that a dictionary describes once it is spelled out. -/
def ofSpelledOut (g : Entries) : Except Fault Options := do
  let conditions ← ((ofCurrent g).conditions.orElse (.dict [])).toEntries
  return { ofCurrent g with conditions := .dict conditions, extra := .dict (viewParams g) }

section
variable {g : Entries} {n : String} {v : Value}

/-- What the options are goes by what is held under their names. -/
theorem ofCurrent_congr {g' : Entries} (h : ∀ n ∈ plainNames, g'.get? n = g.get? n) :
    ofCurrent g' = ofCurrent g := by
  simp only [plainNames, List.forall_mem_cons, List.not_mem_nil, false_imp_iff, implies_true,
    and_true] at h
  simp only [ofCurrent, Entries.getD, h]

/-- Setting an option sets it. -/
theorem set?_ofCurrent (hn : n ∈ plainNames) (v : Value) :
    (ofCurrent g).set? n v = some (ofCurrent (g.set n v)) := by
  simp only [plainNames, List.mem_cons, List.not_mem_nil, or_false] at hn
  rcases hn with rfl | rfl | rfl | rfl | rfl | rfl | rfl | rfl | rfl | rfl | rfl | rfl <;>
    simp [set?, ofCurrent, Entries.getD]

/-- Every plain option can be set. -/
theorem exists_set? (o : Options) (hn : n ∈ plainNames) (v : Value) : ∃ o', o.set? n v = some o' := by
  simp only [plainNames, List.mem_cons, List.not_mem_nil, or_false] at hn
  rcases hn with rfl | rfl | rfl | rfl | rfl | rfl | rfl | rfl | rfl | rfl | rfl | rfl <;>
    exact ⟨_, rfl⟩

theorem viewParams_set (n : String) (v : Value) : viewParams (g.set n v) =
    if isViewParameter (.str n) then (viewParams g).set n v else viewParams g :=
  Entries.filter_set isViewParameter g n v

theorem isViewParameter_of_mem_plainNames : ∀ n ∈ plainNames, isViewParameter (.str n) = false := by
  intro n hn
  rw [Bool.eq_false_iff, Ne, isViewParameter_iff]
  rintro ⟨m, hm, heq⟩
  cases heq
  revert n
  decide

/-- View parameters are no options. -/
theorem ofCurrent_merge {xs : Entries} (h : ∀ p ∈ xs, isViewParameter p.1 = true) :
    ofCurrent (g.merge xs) = ofCurrent g := by
  induction xs generalizing g with
  | nil => rfl
  | cons p xs ih =>
    obtain ⟨n, hn, hk⟩ := isViewParameter_iff.1 (h p (List.mem_cons_self ..))
    have hother : ∀ m ∈ plainNames, n ≠ m := by
      clear * - hn
      revert n
      decide
    rw [Entries.merge_cons, hk, ih fun q hq => h q (List.mem_cons_of_mem _ hq)]
    exact ofCurrent_congr fun m hm => (Entries.get?_set ..).trans (if_neg (hother m hm))

theorem viewParams_merge {xs : Entries} (h : ∀ p ∈ xs, isViewParameter p.1 = true) :
    viewParams (g.merge xs) = (viewParams g).merge xs := by
  induction xs generalizing g with
  | nil => rfl
  | cons p xs ih =>
    have hp := h p (List.mem_cons_self ..)
    obtain ⟨n, -, hk⟩ := isViewParameter_iff.1 hp
    rw [hk] at hp
    have hset : viewParams (g.insert (.str n) p.2) = (viewParams g).insert (.str n) p.2 :=
      (viewParams_set n p.2).trans (if_pos hp)
    rw [Entries.merge_cons, Entries.merge_cons, hk, ih fun q hq => h q (List.mem_cons_of_mem _ hq), hset]

end

/-! ## Taking the entries -/

/-- An entry is understood if its key is known and, under `extra`, what it holds can be read and holds
view parameters only. -/
structure Understood (e : Value × Value) : Prop where
  known : Known e.1
  extra : e.1 = .str "extra" → ∃ xs, (e.2.orElse (.dict [])).toEntries = .ok xs ∧
    ∀ p ∈ xs, isViewParameter p.1 = true

section
variable (o : Options) (x : Entries) {n : String} (v : Value)

theorem takeEntry_viewType :
    takeEntry (o, x) (.str "view_type") v = .ok ({ o with slow := .bool (asksSlow v) }, x) := by
  simp [takeEntry, currentKey, currentName, equal_str]

theorem takeEntry_unversioned :
    takeEntry (o, x) (.version {}) v = .ok ({ o with slow := .bool (asksSlow v) }, x) :=
  if_pos ((equal_iff (by decide)).2 (.inr rfl))

theorem takeEntry_update :
    takeEntry (o, x) (.str "update") v = .ok ({ o with updateIndex := .bool v.truthy }, x) := by
  simp [takeEntry, currentKey, currentName, equal_str]

theorem takeEntry_extra : takeEntry (o, x) (.str "extra") v =
    ((v.orElse (.dict [])).toEntries).map fun xs => (o, x.merge xs) := by
  simp only [takeEntry, currentKey, currentName, equal_str]
  cases (v.orElse (.dict [])).toEntries <;> rfl

variable {o} in
/-- Every other name is a view parameter or a plain option. -/
theorem takeEntry_current (hn : currentName n ∉ ["view_type", "update", "extra"]) :
    takeEntry (o, x) (.str n) v =
      if isViewParameter (.str (currentName n)) then .ok (o, x.set (currentName n) v)
      else match o.set? (currentName n) v with
        | some o => .ok (o, x)
        | none => .error (.refused (.unknownOption (currentName n))) := by
  simp only [List.mem_cons, List.not_mem_nil, or_false, not_or] at hn
  simp only [takeEntry, currentKey, equal_str, hn, decide_false, Bool.false_eq_true, if_false, Value.text]
  refine if_congr Iff.rfl rfl ?_
  cases o.set? (currentName n) v <;> rfl

theorem takeEntry_parameter (hn : n ∈ viewParameters) :
    takeEntry (o, x) (.str n) v = .ok (o, x.set n v) := by
  have hcurrent := currentName_of_mem_viewParameters n hn
  rw [takeEntry_current x v (hcurrent.symm ▸ not_older_of_mem_viewParameters n hn), hcurrent]
  exact if_pos (isViewParameter_iff.2 ⟨n, hn, rfl⟩)

variable {o} in
theorem takeEntry_plain (hn : currentName n ∈ plainNames) {o' : Options}
    (hset : o.set? (currentName n) v = some o') : takeEntry (o, x) (.str n) v = .ok (o', x) := by
  rw [takeEntry_current x v (not_older_of_mem_plainNames _ hn), isViewParameter_of_mem_plainNames _ hn,
    hset]
  rfl

/-- An entry with a known key is taken; but for `extra` it sets an option or puts in a view parameter. -/
theorem takeEntry_known {k : Value} (hk : Known k) (hextra : k ≠ .str "extra") :
    (∃ o', takeEntry (o, x) k v = .ok (o', x)) ∨
      ∃ n, k = .str n ∧ takeEntry (o, x) k v = .ok (o, x.set n v) := by
  cases hk with
  | viewType => exact .inl ⟨_, takeEntry_viewType o x v⟩
  | unversioned => exact .inl ⟨_, takeEntry_unversioned o x v⟩
  | update => exact .inl ⟨_, takeEntry_update o x v⟩
  | extra => exact absurd rfl hextra
  | parameter hn => exact .inr ⟨_, rfl, takeEntry_parameter o x v hn⟩
  | plain hn =>
    obtain ⟨o', hset⟩ := exists_set? o hn v
    exact .inl ⟨o', takeEntry_plain x v hn hset⟩

/-- An entry whose key is not known is refused. -/
theorem takeEntry_unknown {k : Value} (hk : ¬Known k) :
    takeEntry (o, x) k v = .error (.refused (.unknownOption k.text)) := by
  have hequal : ∀ n ∈ ["view_type", "update", "extra"], k.equal (.str n) = false := fun n hn => by
    rw [Bool.eq_false_iff, Ne, equal_iff hn]
    rintro (rfl | rfl)
    · refine hk (known_str_iff.2 ?_)
      clear * - hn
      revert n
      decide
    · exact hk .unversioned
  have hparameter : isViewParameter k = false := by
    rw [Bool.eq_false_iff, Ne, isViewParameter_iff]
    rintro ⟨n, hn, rfl⟩
    exact hk (.parameter hn)
  simp only [List.forall_mem_cons, List.not_mem_nil, false_imp_iff, implies_true, and_true] at hequal
  cases k with
  | str n =>
    have hunknown : n ∉ knownNames := fun hn => hk (known_str_iff.2 hn)
    have hcurrent : currentName n = n := (currentName_eq_or n).resolve_right fun h =>
      hunknown (List.mem_append_right _ (List.mem_append_left ["view_type", "update"] h.1))
    have hset : o.set? n v = none := by
      have hn : n ∉ names := fun hn =>
        hunknown (List.mem_append_left _ (List.mem_append_left _ hn))
      simp only [names, List.mem_cons, List.not_mem_nil, or_false, not_or] at hn
      unfold set?
      split <;> simp_all
    simp only [takeEntry, currentKey, hcurrent, hequal, hparameter, Bool.false_eq_true, if_false,
      Value.text, hset]
  | _ =>
    simp only [takeEntry, currentKey, hequal, hparameter, Bool.false_eq_true, if_false]
    cases o.set? _ v <;> rfl

end

/-- Taking an understood entry adds what it gives. -/
theorem takeEntry_eq {g : Entries} {e : Value × Value} (h : Understood e) :
    takeEntry (ofCurrent g, viewParams g) e.1 e.2 =
      .ok (ofCurrent (g.merge (given e)), viewParams (g.merge (given e))) := by
  obtain ⟨k, v⟩ := e
  obtain ⟨hknown, hextra⟩ := h
  have hplain {n : String} (hn : n ∈ plainNames) (w : Value) :
      (ofCurrent g).set? n w = some (ofCurrent (g.merge [(.str n, w)])) ∧
        viewParams (g.merge [(.str n, w)]) = viewParams g := by
    refine ⟨set?_ofCurrent hn w, (viewParams_set n w).trans (if_neg ?_)⟩
    rw [isViewParameter_of_mem_plainNames n hn]
    decide
  cases hknown with
  | viewType =>
    obtain ⟨hset, hparams⟩ := hplain (n := "slow") (by decide) (.bool (asksSlow v))
    rw [takeEntry_viewType, given_viewType, hparams, ← Option.some.inj hset]
  | unversioned =>
    obtain ⟨hset, hparams⟩ := hplain (n := "slow") (by decide) (.bool (asksSlow v))
    rw [takeEntry_unversioned, given_unversioned, hparams, ← Option.some.inj hset]
  | update =>
    obtain ⟨hset, hparams⟩ := hplain (n := "update_index") (by decide) (.bool v.truthy)
    rw [takeEntry_update, given_update, hparams, ← Option.some.inj hset]
  | extra =>
    obtain ⟨xs, hxs, hparams⟩ := hextra rfl
    rw [takeEntry_extra, given_extra, hxs]
    exact congrArg Except.ok (Prod.ext (ofCurrent_merge hparams).symm (viewParams_merge hparams).symm)
  | @parameter n hn =>
    have hparams : ∀ p ∈ [(Value.str n, v)], isViewParameter p.1 = true :=
      List.forall_mem_singleton.2 (isViewParameter_iff.2 ⟨n, hn, rfl⟩)
    rw [takeEntry_parameter _ _ _ hn, given_parameter _ hn, ofCurrent_merge hparams,
      viewParams_merge hparams]
    rfl
  | @plain n hn =>
    obtain ⟨hset, hparams⟩ := hplain hn v
    rw [takeEntry_plain _ _ hn hset, given_plain _ hn, hparams]

/-- Taking the entries adds what they give. -/
theorem takeEntries_eq {g es : Entries} (h : ∀ e ∈ es, Understood e) :
    takeEntries (ofCurrent g, viewParams g) es =
      .ok (ofCurrent (g.merge (es.flatMap given)), viewParams (g.merge (es.flatMap given))) := by
  induction es generalizing g with
  | nil => rfl
  | cons e es ih =>
    obtain ⟨he, hes⟩ := List.forall_mem_cons.1 h
    rw [List.flatMap_cons, Entries.merge_append, ← ih hes, takeEntries, takeEntry_eq he]
    rfl

/-! ## Reading a dictionary -/

/-- A dictionary is read entry by entry, also the empty one. -/
theorem ofValue_entries (es : Entries) : ofValue (.dict es) = do
    let acc ← takeEntries ({}, []) es
    checkExtra acc.2
    let conditions ← (acc.1.conditions.orElse (.dict [])).toEntries
    return { acc.1 with conditions := .dict conditions, extra := .dict acc.2 } := by
  cases es <;> rfl

/-- What is read is a dictionary, or counts as an empty one. -/
theorem exists_entries_of_ofValue {v : Value} {o : Options} (h : ofValue v = .ok o) :
    ∃ es, ofValue (.dict es) = .ok o := by
  by_cases htruthy : v.truthy = true
  · cases v with
    | dict es => exact ⟨es, h⟩
    | _ =>
      rw [ofValue, if_pos htruthy] at h
      cases h
  · rw [ofValue, if_neg htruthy] at h
    exact ⟨[], h⟩

/-- The check passes view parameters only. -/
theorem checkExtra_eq_ok_iff {xs : Entries} :
    checkExtra xs = .ok () ↔ ∀ p ∈ xs, isViewParameter p.1 = true := by
  have hnone : unknownParameters xs = [] ↔ ∀ p ∈ xs, isViewParameter p.1 = true := by
    simp [unknownParameters, List.filter_eq_nil_iff]
  rw [← hnone, checkExtra]
  split
  · next heq => simp [heq]
  · next hne =>
    refine iff_of_false (fun h => ?_) hne
    split at h
    · cases h
    · split at h <;> cases h

/-- An understood dictionary is read as it is spelled out. -/
theorem ofValue_dict {es : Entries} (h : ∀ e ∈ es, Understood e) :
    ofValue (.dict es) = ofSpelledOut (spelledOut es) := by
  have htake : takeEntries ({}, []) es =
      .ok (ofCurrent (spelledOut es), viewParams (spelledOut es)) := takeEntries_eq (g := []) h
  have hcheck : checkExtra (viewParams (spelledOut es)) = .ok () :=
    checkExtra_eq_ok_iff.2 fun p hp => (List.mem_filter.1 hp).2
  rw [ofValue_entries, htake]
  simp only [bind, Except.bind, hcheck]
  rfl

/-! ## What can be read is understood -/

section
variable {x : Entries} {k v : Value}

/-- Putting in a key does not hide one that is no view parameter. -/
theorem viewParameters_of_insert (h : ∀ p ∈ x.insert k v, isViewParameter p.1 = true) :
    isViewParameter k = true ∧ ∀ p ∈ x, isViewParameter p.1 = true := by
  induction x with
  | nil => exact ⟨h (k, v) (List.mem_singleton_self _), fun _ hp => absurd hp List.not_mem_nil⟩
  | cons p x ih =>
    obtain ⟨l, w⟩ := p
    rw [Entries.insert] at h
    split at h
    · next hsame =>
      obtain ⟨hl, hx⟩ := List.forall_mem_cons.1 h
      obtain ⟨n, hn, rfl⟩ := isViewParameter_iff.1 hl
      have hk : k = .str n := Value.str_sameKey_iff.1 hsame
      exact ⟨isViewParameter_iff.2 ⟨n, hn, hk⟩, List.forall_mem_cons.2 ⟨hl, hx⟩⟩
    · obtain ⟨hl, hx⟩ := List.forall_mem_cons.1 h
      exact (ih hx).imp_right fun hx => List.forall_mem_cons.2 ⟨hl, hx⟩

theorem viewParameters_of_merge {xs : Entries} (h : ∀ p ∈ x.merge xs, isViewParameter p.1 = true) :
    (∀ p ∈ xs, isViewParameter p.1 = true) ∧ ∀ p ∈ x, isViewParameter p.1 = true := by
  induction xs generalizing x with
  | nil => exact ⟨fun _ hp => absurd hp List.not_mem_nil, h⟩
  | cons p xs ih =>
    obtain ⟨hxs, hinsert⟩ := ih h
    obtain ⟨hp, hx⟩ := viewParameters_of_insert hinsert
    exact ⟨List.forall_mem_cons.2 ⟨hp, hxs⟩, hx⟩

/-- An entry that is taken is understood, if there are view parameters only after it. -/
theorem understood_of_takeEntry {o : Options} {acc : Options × Entries}
    (h : takeEntry (o, x) k v = .ok acc) (hparams : ∀ p ∈ acc.2, isViewParameter p.1 = true) :
    Understood (k, v) ∧ ∀ p ∈ x, isViewParameter p.1 = true := by
  by_cases hknown : Known k
  case neg =>
    rw [takeEntry_unknown _ _ _ hknown] at h
    cases h
  by_cases hextra : k = .str "extra"
  · subst hextra
    rw [takeEntry_extra] at h
    cases hxs : (v.orElse (.dict [])).toEntries with
    | error e =>
      rw [hxs] at h
      cases h
    | ok xs =>
      rw [hxs] at h
      cases h
      obtain ⟨hfurther, hx⟩ := viewParameters_of_merge hparams
      exact ⟨⟨hknown, fun _ => ⟨xs, hxs, hfurther⟩⟩, hx⟩
  · refine ⟨⟨hknown, fun heq => absurd heq hextra⟩, ?_⟩
    rcases takeEntry_known o x v hknown hextra with ⟨o', htake⟩ | ⟨n, rfl, htake⟩
    · cases htake.symm.trans h
      exact hparams
    · cases htake.symm.trans h
      exact (viewParameters_of_insert hparams).2

theorem understood_of_takeEntries {es : Entries} {acc acc' : Options × Entries}
    (h : takeEntries acc es = .ok acc') (hparams : ∀ p ∈ acc'.2, isViewParameter p.1 = true) :
    (∀ e ∈ es, Understood e) ∧ ∀ p ∈ acc.2, isViewParameter p.1 = true := by
  induction es generalizing acc with
  | nil =>
    cases h
    exact ⟨fun _ he => absurd he List.not_mem_nil, hparams⟩
  | cons e es ih =>
    rw [takeEntries] at h
    cases htake : takeEntry acc e.1 e.2 with
    | error fault =>
      rw [htake] at h
      cases h
    | ok next =>
      rw [htake] at h
      obtain ⟨hes, hnext⟩ := ih h
      obtain ⟨he, hacc⟩ := understood_of_takeEntry htake hnext
      exact ⟨List.forall_mem_cons.2 ⟨he, hes⟩, hacc⟩

end

section
variable {es : Entries} {o : Options} (h : ofValue (.dict es) = .ok o)
include h

/-- A dictionary that is read is understood. -/
theorem understood_of_ofValue : ∀ e ∈ es, Understood e := by
  rw [ofValue_entries] at h
  cases htake : takeEntries ({}, []) es with
  | error e =>
    rw [htake] at h
    cases h
  | ok acc =>
    rw [htake] at h
    cases hcheck : checkExtra acc.2 with
    | error e =>
      simp only [bind, Except.bind, hcheck] at h
      cases h
    | ok u => exact (understood_of_takeEntries htake (checkExtra_eq_ok_iff.1 hcheck)).1

/-- What is read is what the dictionary spells out. -/
theorem eq_of_ofValue : ∃ conditions,
    ((ofCurrent (spelledOut es)).conditions.orElse (.dict [])).toEntries = .ok conditions ∧
    o = { ofCurrent (spelledOut es) with
          conditions := .dict conditions, extra := .dict (viewParams (spelledOut es)) } := by
  rw [ofValue_dict (understood_of_ofValue h), ofSpelledOut] at h
  cases hconditions : ((ofCurrent (spelledOut es)).conditions.orElse (.dict [])).toEntries with
  | error e =>
    rw [hconditions] at h
    cases h
  | ok conditions =>
    rw [hconditions] at h
    cases h
    exact ⟨conditions, rfl, rfl⟩

end

/-! ## Names that are given -/

theorem currentName_of_mem_plainNames : ∀ n ∈ plainNames, currentName n = n := by decide

/-- An entry under the current name of a plain option, or a bare view parameter. -/
def Current (e : Value × Value) : Prop := ∃ n, (n ∈ plainNames ∨ n ∈ viewParameters) ∧ e.1 = .str n

theorem Current.understood {e : Value × Value} (h : Current e) : Understood e := by
  obtain ⟨k, v⟩ := e
  obtain ⟨n, hn, rfl⟩ := h
  rcases hn with hn | hn
  · refine ⟨.plain ((currentName_of_mem_plainNames n hn).symm ▸ hn), fun heq => ?_⟩
    exact absurd (Value.str.inj heq ▸ hn) (by decide)
  · refine ⟨.parameter hn, fun heq => ?_⟩
    exact absurd (Value.str.inj heq ▸ hn) (by decide)

/-- It gives itself. -/
theorem Current.given_eq {e : Value × Value} (h : Current e) : given e = [e] := by
  obtain ⟨k, v⟩ := e
  obtain ⟨n, hn, rfl⟩ := h
  rcases hn with hn | hn
  · have hcurrent := currentName_of_mem_plainNames n hn
    rw [given_plain v (hcurrent.symm ▸ hn), hcurrent]
  · exact given_parameter v hn

/-- But for `extra`, an understood entry gives one value, under a name that goes by the key. -/
theorem Known.exists_given {k : Value} (hk : Known k) (hextra : k ≠ .str "extra") :
    ∃ n, (n ∈ plainNames ∨ n ∈ viewParameters) ∧ ∀ v, ∃ w, given (k, v) = [(.str n, w)] := by
  cases hk with
  | viewType => exact ⟨"slow", .inl (by decide), fun v => ⟨_, given_viewType v⟩⟩
  | unversioned => exact ⟨"slow", .inl (by decide), fun v => ⟨_, given_unversioned v⟩⟩
  | update => exact ⟨"update_index", .inl (by decide), fun v => ⟨_, given_update v⟩⟩
  | extra => exact absurd rfl hextra
  | parameter hn => exact ⟨_, .inr hn, fun v => ⟨v, given_parameter v hn⟩⟩
  | plain hn => exact ⟨_, .inl hn, fun v => ⟨v, given_plain v hn⟩⟩

/-- What an understood entry gives stands under current names. -/
theorem Understood.current {e : Value × Value} (h : Understood e) : ∀ p ∈ given e, Current p := by
  obtain ⟨k, v⟩ := e
  by_cases hk : k = .str "extra"
  · subst hk
    obtain ⟨xs, hxs, hparams⟩ := h.extra rfl
    rw [given_extra, hxs]
    exact fun p hp => (isViewParameter_iff.1 (hparams p hp)).imp fun _ h => ⟨.inr h.1, h.2⟩
  · obtain ⟨n, hn, hgiven⟩ := h.known.exists_given hk
    obtain ⟨w, hw⟩ := hgiven v
    rw [hw]
    exact List.forall_mem_singleton.2 ⟨n, hn, rfl⟩

section
variable {es : Entries} (h : ∀ e ∈ es, Understood e)
include h

theorem current_flatMap_given : ∀ p ∈ es.flatMap given, Current p := fun p hp => by
  obtain ⟨e, he, hp⟩ := List.mem_flatMap.1 hp
  exact (h e he).current p hp

theorem texts_flatMap_given : ∀ p ∈ es.flatMap given, ∃ n, p.1 = .str n := fun p hp =>
  (current_flatMap_given h p hp).imp fun _ h => h.2

/-- A dictionary that is spelled out has distinct names. -/
theorem named_spelledOut : (spelledOut es).Named := Entries.Named.nil.merge_texts (texts_flatMap_given h)

theorem current_spelledOut : ∀ e ∈ spelledOut es, Current e := fun e he => by
  obtain ⟨n, hn⟩ := (named_spelledOut h).texts e he
  obtain ⟨k, v⟩ := e
  subst hn
  have hget := (named_spelledOut h).get?_eq_some_iff.2 he
  have hgiven := (Entries.mem_or_get?_of_get?_merge (texts_flatMap_given h) hget).resolve_right (by simp)
  exact current_flatMap_given h _ hgiven

/-- Where everything is given once, it is spelled out one after the other. -/
theorem spelledOut_of_givesOnce (honce : GivesOnce es) : spelledOut es = es.flatMap given :=
  Entries.ofPairs_of_named ⟨texts_flatMap_given h, honce⟩

end

/-- Entries under current names give themselves. -/
theorem flatMap_given_of_current {g : Entries} (h : ∀ e ∈ g, Current e) : g.flatMap given = g :=
  (List.flatMap_congr fun e he => (h e he).given_eq).trans (List.flatMap_singleton' g)

/-- What is spelled out is read as it is. -/
theorem ofValue_of_current {g : Entries} (h : ∀ e ∈ g, Current e) (hnamed : g.Named) :
    ofValue (.dict g) = ofSpelledOut g := by
  rw [ofValue_dict fun e he => (h e he).understood, spelledOut, flatMap_given_of_current h,
    Entries.ofPairs_of_named hnamed]

end Options

end ViewFinder
