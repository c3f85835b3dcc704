import ViewFinder.Proofs.Finder
import ViewFinder.Proofs.Query.Bounds
import ViewFinder.Proofs.Query.Fields
import ViewFinder.Proofs.Query.Params
import ViewFinder.Proofs.Value.Relisted

/-!
# Queries that are given in another order

Options say in which order conditions, the members of sets and the fields of the key were given; a
query does not depend on it. `Options.Reordered` relates two options that differ in no more than this.
Sorted by their stored names, their conditions come in the same order
(`Query.sortedConditions_relisted`), so the fields of the key are the same and the parameters are alike,
entry by entry (`Query.searchValues_agree`). What is built of them is equal (`Query.compiled_agree`): not
the same, as a range of keys holds a set as it was listed.
-/

namespace ViewFinder

/-- Two outcomes that are related, or the same fault. -/
inductive Fault.Agree {α : Type} (R : α → α → Prop) : Except Fault α → Except Fault α → Prop
  | ok {a b : α} (h : R a b) : Agree R (.ok a) (.ok b)
  | error (fault : Fault) : Agree R (.error fault) (.error fault)

namespace Fault.Agree

variable {α β : Type} {R : α → α → Prop} {S : β → β → Prop}

theorem bind {a b : Except Fault α} {f g : α → Except Fault β} (h : Agree R a b)
    (hfg : ∀ x y, R x y → Agree S (f x) (g y)) : Agree S (a >>= f) (b >>= g) := by
  cases h with
  | ok h => exact hfg _ _ h
  | error fault => exact .error fault

theorem same_bind (a : Except Fault α) {f g : α → Except Fault β} (hfg : ∀ x, Agree S (f x) (g x)) :
    Agree S (a >>= f) (a >>= g) := by
  cases a with
  | ok x => exact hfg x
  | error fault => exact .error fault

end Fault.Agree

/-! ## Parameters -/

namespace Value

/-- Two values that are the same, or lists whose items list the same sets. -/
inductive Alike : Value → Value → Prop
  | same (v : Value) : Alike v v
  | list {vs ws : List Value} (h : List.Forall₂ Relisted vs ws) : Alike (.list vs) (.list ws)

section
variable {v w : Value} (h : Alike v w)
include h

theorem Alike.sameItem : v.sameItem w = true := by
  cases h with
  | same v => exact sameItem_self v
  | list h => simp [Value.sameItem, equal, agree, agreeAll_of_forall₂ h]

theorem Alike.isNull_eq : v.isNull = w.isNull := by
  cases h <;> rfl

theorem Alike.isFalse_eq : v.isFalse = w.isFalse := by
  cases h <;> rfl

theorem Alike.truthy_eq : v.truthy = w.truthy := by
  cases h with
  | same v => rfl
  | list h => cases h <;> rfl

theorem Alike.asKey : Alike (Query.asKey v) (Query.asKey w) := by
  cases h with
  | same v => exact .same _
  | list h => exact .list h

end

end Value

namespace Entries

/-- Two dictionaries whose entries are alike, one by one. -/
def Alike (es fs : Entries) : Prop := List.Forall₂ (fun a b => a.1 = b.1 ∧ a.2.Alike b.2) es fs

theorem alike_self (es : Entries) : es.Alike es := List.forall₂_same.2 fun e _ => ⟨rfl, .same e.2⟩

section
variable {es fs : Entries} (h : es.Alike fs)
include h

theorem Alike.get? (name : String) : Option.Rel Value.Alike (es.get? name) (fs.get? name) := by
  induction h with
  | nil => exact .none
  | @cons a b es fs hab _ ih =>
    obtain ⟨k, v⟩ := a
    obtain ⟨k', w⟩ := b
    obtain ⟨rfl, hvw⟩ : k = k' ∧ v.Alike w := hab
    by_cases hk : k = .str name
    · rw [hk, get?_cons_str, get?_cons_str, if_pos rfl, if_pos rfl]
      exact .some hvw
    · rwa [get?_cons_of_ne hk, get?_cons_of_ne hk]

theorem Alike.getD (name : String) : (es.getD name).Alike (fs.getD name) := by
  have hrel := h.get? name
  rw [Entries.getD, Entries.getD]
  generalize es.get? name = a, fs.get? name = b at hrel
  cases hrel with
  | none => exact .same _
  | some hvw => exact hvw

theorem Alike.isSome_eq (name : String) : (es.get? name).isSome = (fs.get? name).isSome := by
  have hrel := h.get? name
  generalize es.get? name = a, fs.get? name = b at hrel
  cases hrel <;> rfl

theorem Alike.insert (key : Value) {v w : Value} (hvw : v.Alike w) :
    (es.insert key v).Alike (fs.insert key w) := by
  induction h with
  | nil => exact .cons ⟨rfl, hvw⟩ .nil
  | @cons a b es fs hab h ih =>
    obtain ⟨k, _⟩ := a
    obtain ⟨k', _⟩ := b
    obtain ⟨rfl, hab⟩ : k = k' ∧ _ := hab
    rw [Entries.insert, Entries.insert]
    split
    · exact .cons ⟨rfl, hvw⟩ h
    · exact .cons ⟨rfl, hab⟩ ih

theorem Alike.merge (others : Entries) : (es.merge others).Alike (fs.merge others) := by
  induction others generalizing es fs with
  | nil => exact h
  | cons e others ih => exact ih (h.insert e.1 (.same e.2))

theorem Alike.filter {p : Value × Value → Bool}
    (hp : ∀ {a b : Value × Value}, a.1 = b.1 → a.2.Alike b.2 → p a = p b) :
    Alike (List.filter p es) (List.filter p fs) := by
  induction h with
  | nil => exact .nil
  | cons hab _ ih =>
    rw [List.filter_cons, List.filter_cons, hp hab.1 hab.2]
    split
    · exact .cons hab ih
    · exact ih

theorem Alike.erase (name : String) : (es.erase name).Alike (fs.erase name) :=
  h.filter fun hkey _ => by rw [hkey]

/-- They are equal. -/
theorem Alike.sameItem : (Value.dict es).sameItem (.dict fs) = true := by
  have hheld {es fs : Entries} (h : es.Alike fs) {gs : Entries} (hsub : fs ⊆ gs) :
      Value.allHeld es gs = true := by
    induction h with
    | nil => rw [Value.allHeld]
    | @cons a b es fs hab _ ih =>
      obtain ⟨hb, hrest⟩ := List.cons_subset.1 hsub
      rw [Value.allHeld, ih hrest, Bool.and_true, List.any_eq_true]
      refine ⟨b, hb, Bool.and_eq_true_iff.2 ⟨?_, hab.2.sameItem⟩⟩
      rw [hab.1]
      exact Value.agrees_self false b.1
  have heq : Value.agree true (.dict es) (.dict fs) = true := by
    rw [Value.agree, h.length_eq, beq_self_eq_true, hheld h (List.Subset.refl fs)]
    rfl
  rw [Value.sameItem, Value.equal, heq, Bool.or_true]

end

end Entries

/-! ## Queries that are equal -/

/-- Are two queries equal, field by field? -/
def CompiledQuery.equal (q r : CompiledQuery) : Bool :=
  q.designName == r.designName && q.viewName.sameItem r.viewName &&
    q.mapSource.sameItem r.mapSource && q.reduceSource.sameItem r.reduceSource &&
    (Value.dict q.params).sameItem (.dict r.params) && q.fallbackKeys.sameItem r.fallbackKeys &&
    q.slow.sameItem r.slow && q.reduced.sameItem r.reduced

/-- Queries that differ in parameters that are alike are equal. -/
theorem CompiledQuery.equal_of_alike (q : CompiledQuery) {es fs : Entries} (hparams : es.Alike fs)
    {v w : Value} (hkeys : v.Alike w) :
    ({ q with params := es, fallbackKeys := v } : CompiledQuery).equal
      { q with params := fs, fallbackKeys := w } = true := by
  simp [equal, Value.sameItem_self, hparams.sameItem, hkeys.sameItem]

namespace Query

section
variable {es fs : Entries} (h : es.Alike fs)
include h

theorem takeFallback_alike :
    (takeFallback es).1.Alike (takeFallback fs).1 ∧ (takeFallback es).2.Alike (takeFallback fs).2 := by
  refine ⟨?_, h.erase fallbackParam⟩
  have hrel := h.get? fallbackParam
  rw [takeFallback, takeFallback]
  generalize es.get? fallbackParam = a, fs.get? fallbackParam = b at hrel
  cases hrel with
  | none => exact .same _
  | some hvw => exact hvw

theorem isFalse_eq_of_alike (name : String) :
    ((es.get? name).map Value.isFalse).getD false = ((fs.get? name).map Value.isFalse).getD false := by
  have hrel := h.get? name
  generalize es.get? name = a, fs.get? name = b at hrel
  cases hrel with
  | none => rfl
  | some hvw => exact hvw.isFalse_eq

theorem build_agree (e : EntityType) {o o' : Options} (hslow : o.slow = o'.slow) (operation : String)
    (fields : List String) (reduce : Value) (reduced : Bool) :
    Fault.Agree (fun q r => q.equal r = true) (build e o operation fields reduce es reduced)
      (build e o' operation fields reduce fs reduced) := by
  obtain ⟨hkeys, hparams⟩ := takeFallback_alike h
  rw [build, build, hslow]
  refine .same_bind _ fun designName => .same_bind _ fun source => .ok ?_
  exact CompiledQuery.equal_of_alike {
    designName
    viewName := .str (viewName fields operation)
    mapSource := .str source
    reduceSource := reduce
    slow := o'.slow
    reduced := .bool reduced } hparams hkeys

theorem addAbsent_alike (name : String) (v : Value) :
    (addAbsent es name v).Alike (addAbsent fs name v) := by
  rw [addAbsent, addAbsent, h.isSome_eq name]
  split
  · exact h
  · exact h.insert _ (.same v)

theorem boundAsKey_alike (name : String) : (boundAsKey es name).Alike (boundAsKey fs name) := by
  have hrel := h.get? name
  rw [boundAsKey, boundAsKey]
  generalize es.get? name = a, fs.get? name = b at hrel
  cases hrel with
  | none => exact h
  | some hvw => exact h.insert _ hvw.asKey

theorem addIf_alike (condition : Bool) {name : String} {v w : Value} (hvw : v.Alike w) :
    (addIf condition es name v).Alike (addIf condition fs name w) := by
  rw [addIf, addIf]
  split
  · exact h.insert _ hvw
  · exact h

theorem swapBounds_alike : (swapBounds es).Alike (swapBounds fs) := by
  have herased := (h.erase "startkey").erase "endkey"
  have hlow := h.getD "startkey"
  have hhigh := h.getD "endkey"
  rw [swapBounds, swapBounds, hlow.isNull_eq, hhigh.isNull_eq]
  exact addIf_alike (addIf_alike herased _ hhigh) _ hlow

end

end Query

/-! ## Conditions that are given in another order -/

/-- Conditions on fields of distinct stored names, in two orders, the sets among their values perhaps
in two orders too. -/
structure Entries.Reordered (cs cs' : Entries) : Prop where
  texts : ∀ c ∈ cs, ∃ name, c.1 = .str name ∧ Text.isKept name = true
  distinct : (cs.map fun c => Name.normalizeField c.1.text).Nodup
  relisted : ∃ ds, List.Forall₂ (fun c d => c.1 = d.1 ∧ c.2.Relisted d.2) cs ds ∧ ds.Perm cs'

namespace Query

open Text Name

/-- The conditions under the stored names of their fields. -/
def storedConditions (cs : Entries) : List (String × Value) :=
  cs.map fun c => (normalizeField c.1.text, c.2)

theorem map_fst_storedConditions (cs : Entries) :
    (storedConditions cs).map (·.1) = (cs.map (·.1)).map fun name => normalizeField name.text := by
  rw [storedConditions, List.map_map, List.map_map]
  rfl

/-- The names stay as they are where only sets are listed anew. -/
theorem map_fst_eq {cs ds : Entries}
    (h : List.Forall₂ (fun c d => c.1 = d.1 ∧ c.2.Relisted d.2) cs ds) :
    cs.map (·.1) = ds.map (·.1) := by
  have hrel := h.imp fun _ _ hcd => hcd.1
  exact List.forall₂_eq_eq_eq ▸ List.forall₂_map_left_iff.2 (List.forall₂_map_right_iff.2 hrel)

/-- Conditions on distinct fields are sorted alike in whatever order they are given. -/
theorem sortByName_eq_of_perm {named others : List (String × Value)}
    (hkept : ∀ a ∈ named, isKept a.1 = true) (hdistinct : (named.map (·.1)).Nodup)
    (hperm : named.Perm others) : Value.sortByName named = Value.sortByName others := by
  have hweak := weak_before.comp (Prod.fst (α := String) (β := Value))
  refine Sorting.sort_eq_of_perm hweak hperm fun a ha b hb hba hab => ?_
  exact List.inj_on_of_nodup_map hdistinct ha hb (eq_of_not_before (hkept a ha) (hkept b hb) hab hba)

section
variable {cs cs' : Entries} (h : cs.Reordered cs')
include h

theorem map_fst_perm : (cs.map (·.1)).Perm (cs'.map (·.1)) := by
  obtain ⟨ds, hrelisted, hperm⟩ := h.relisted
  rw [map_fst_eq hrelisted]
  exact hperm.map _

theorem isKept_of_mem_storedConditions : ∀ a ∈ storedConditions cs, isKept a.1 = true :=
  List.forall_mem_map.2 fun c hc => by
    obtain ⟨name, hname, hkept⟩ := h.texts c hc
    rw [hname]
    exact isKept_normalizeField hkept

/-- Sorted by their stored names, they come in the same order, and list the same sets. -/
theorem sortedConditions_relisted : List.Forall₂ (fun a b => a.1 = b.1 ∧ a.2.Relisted b.2)
    (sortedConditions cs) (sortedConditions cs') := by
  obtain ⟨ds, hrelisted, hperm⟩ := h.relisted
  have hnames : (storedConditions cs).map (·.1) = (storedConditions ds).map (·.1) := by
    rw [map_fst_storedConditions, map_fst_storedConditions, map_fst_eq hrelisted]
  have hkept : ∀ b ∈ storedConditions ds, isKept b.1 = true := fun b hb => by
    have hmem : b.1 ∈ (storedConditions cs).map (·.1) := hnames ▸ List.mem_map_of_mem hb
    obtain ⟨a, ha, heq⟩ := List.mem_map.1 hmem
    exact heq ▸ isKept_of_mem_storedConditions h a ha
  have hdistinct : ((storedConditions ds).map (·.1)).Nodup := by
    rw [← hnames, storedConditions, List.map_map]
    exact h.distinct
  have hsorted : sortedConditions ds = sortedConditions cs' :=
    sortByName_eq_of_perm hkept hdistinct (hperm.map _)
  rw [← hsorted]
  have hrel : List.Forall₂ (fun a b => a.1 = b.1 ∧ a.2.Relisted b.2) (storedConditions cs)
      (storedConditions ds) := by
    rw [storedConditions, storedConditions, List.forall₂_map_left_iff, List.forall₂_map_right_iff]
    exact hrelisted.imp fun c d hcd => ⟨by rw [hcd.1], hcd.2⟩
  exact Sorting.forall₂_sort (fun ha hb => by rw [ha.1, hb.1]) hrel

/-- So do their values. -/
theorem sortedValues_relisted : List.Forall₂ Value.Relisted ((sortedConditions cs).map (·.2))
    ((sortedConditions cs').map (·.2)) := by
  rw [List.forall₂_map_left_iff, List.forall₂_map_right_iff]
  exact (sortedConditions_relisted h).imp fun _ _ hab => hab.2

end

section
variable {vs ws : List Value} (h : List.Forall₂ Value.Relisted vs ws)
include h

theorem any_eq_of_relisted {p : Value → Bool} (hp : ∀ {v w : Value}, v.Relisted w → p v = p w) :
    vs.any p = ws.any p := by
  induction h with
  | nil => rfl
  | cons hv _ ih => rw [List.any_cons, List.any_cons, hp hv, ih]

theorem expandKeys_eq_of_relisted : expandKeys vs = expandKeys ws := by
  have hchoices : vs.mapM choices = ws.mapM choices := by
    induction h with
    | nil => rfl
    | cons hv _ ih => rw [List.mapM_cons, List.mapM_cons, hv.choices_eq, ih]
  rw [expandKeys, expandKeys, hchoices]

theorem map_relisted {f : Value → Value} (hf : ∀ {v w : Value}, v.Relisted w → (f v).Relisted (f w)) :
    Value.Alike (.list (vs.map f)) (.list (ws.map f)) := by
  refine .list ?_
  rw [List.forall₂_map_left_iff, List.forall₂_map_right_iff]
  exact h.imp fun _ _ hvw => hf hvw

/-- The parameters that select by the conditions are alike. -/
theorem conditionParams_agree (p : Profile) :
    Fault.Agree Entries.Alike (conditionParams p vs) (conditionParams p ws) := by
  rw [conditionParams, conditionParams, any_eq_of_relisted h Value.Relisted.isRange_eq,
    any_eq_of_relisted h Value.Relisted.isDiscrete_eq, expandKeys_eq_of_relisted h]
  split
  · refine .ok (.cons ⟨rfl, ?_⟩ (.cons ⟨rfl, ?_⟩ .nil))
    · exact map_relisted h Value.Relisted.lowBound
    · exact map_relisted h Value.Relisted.highBound
  · split
    · exact .same_bind _ fun keys => .ok (Entries.alike_self _)
    · cases h with
      | nil => exact .ok .nil
      | cons hv h => exact .ok (.cons ⟨rfl, .list (.cons hv h)⟩ .nil)

end

/-! ## Key fields that are given in another order -/

/-- The names that a `use_key` lists; a text is one name. -/
def listedNames : Value → Except Fault (List Value)
  | .str s => .ok [.str s]
  | v => v.items

/-- Two values for `use_key` that are the same, or list the same names. -/
inductive SameNames : Value → Value → Prop
  | same (v : Value) : SameNames v v
  | listed {v w : Value} {names others : List Value} (hv : v.truthy = true) (hw : w.truthy = true)
    (hnames : listedNames v = .ok names) (hothers : listedNames w = .ok others)
    (hmem : ∀ n, n ∈ names ↔ n ∈ others) (hkept : ∀ n ∈ names, isKept n.text = true) : SameNames v w

/-- Names are sorted alike if they are the same, however often they are given. -/
theorem sortNames_eq_of_mem_iff {names others : List String} (hkept : ∀ n ∈ names, isKept n = true)
    (hmem : ∀ n, n ∈ names ↔ n ∈ others) : sortNames names = sortNames others := by
  have hkept' : ∀ n ∈ others, isKept n = true := fun n hn => hkept n ((hmem n).2 hn)
  have hnames := pairwise_sortNames hkept
  have hothers := pairwise_sortNames hkept'
  refine eq_of_perm_of_pairwise (fun n hn => hkept n (mem_sortNames.1 hn)) (hnames.imp before_asymm)
    (hothers.imp before_asymm) ?_
  refine (List.perm_ext_iff_of_nodup (nodup_of_pairwise hnames)
    (nodup_of_pairwise hothers)).2 fun n => ?_
  rw [mem_sortNames, mem_sortNames, hmem n]

end Query

/-- Options that differ in the order of conditions, of the members of sets that these list, and of the
fields of the key. -/
structure Options.Reordered (o o' : Options) : Prop where
  conditions : ∃ cs cs' : Entries,
    o.conditions = .dict cs ∧ o'.conditions = .dict cs' ∧ cs.Reordered cs'
  useKey : Query.SameNames o.useKey o'.useKey
  others : o' = { o with conditions := o'.conditions, useKey := o'.useKey }

namespace Query

open Text Name

theorem givenNames_of_truthy {o : Options} (h : o.useKey.truthy = true) :
    givenNames o = listedNames o.useKey := by
  rw [givenNames, h]
  rfl

theorem givenNames_of_not_truthy {o : Options} (h : o.useKey.truthy = false) {cs : Entries}
    (hcs : o.conditions = .dict cs) : givenNames o = .ok (cs.map (·.1)) := by
  rw [givenNames, h, hcs]
  rfl

section
variable {o o' : Options} (h : o.Reordered o')
include h

/-- The names for the key are given alike, or the same ones are given. -/
theorem givenNames_cases : givenNames o = givenNames o' ∨ ∃ names others : List Value,
    givenNames o = .ok names ∧ givenNames o' = .ok others ∧ (∀ n, n ∈ names ↔ n ∈ others) ∧
      ∀ n ∈ names, isKept n.text = true := by
  obtain ⟨cs, cs', hcs, hcs', hreordered⟩ := h.conditions
  obtain ⟨_, hkey, _⟩ := h
  generalize hv : o.useKey = v, hw : o'.useKey = w at hkey
  cases hkey with
  | same =>
    cases htruthy : v.truthy with
    | true =>
      rw [givenNames_of_truthy (hv ▸ htruthy), givenNames_of_truthy (hw ▸ htruthy), hv, hw]
      exact .inl rfl
    | false =>
      refine .inr ⟨_, _, givenNames_of_not_truthy (hv ▸ htruthy) hcs,
        givenNames_of_not_truthy (hw ▸ htruthy) hcs', fun n => (map_fst_perm hreordered).mem_iff, ?_⟩
      refine List.forall_mem_map.2 fun c hc => ?_
      obtain ⟨name, hname, hkept⟩ := hreordered.texts c hc
      rw [hname]
      exact hkept
  | listed hv' hw' hnames hothers hmem hkept =>
    refine .inr ⟨_, _, ?_, ?_, hmem, hkept⟩
    · rw [givenNames_of_truthy (hv ▸ hv'), hv, hnames]
    · rw [givenNames_of_truthy (hw ▸ hw'), hw, hothers]

/-- The fields of the key are the same. -/
theorem searchFields_eq_of_reordered (e : EntityType) : searchFields e o = searchFields e o' := by
  rcases givenNames_cases h with heq | ⟨names, others, hnames, hothers, hmem, hkept⟩
  · rw [searchFields, searchFields, heq]
  · have heq : sortNames (names.map fun n => normalizeField n.text) =
        sortNames (others.map fun n => normalizeField n.text) := by
      refine sortNames_eq_of_mem_iff (List.forall_mem_map.2 fun n hn => ?_) fun n => ?_
      · exact isKept_normalizeField (hkept n hn)
      · simp only [List.mem_map, hmem]
    rw [searchFields, searchFields, hnames, hothers]
    simp only [bind, Except.bind, heq]

theorem pagingParams_eq_of_reordered (p : Profile) : pagingParams p o = pagingParams p o' := by
  rw [h.others]
  rfl

/-- The parameters are alike. -/
theorem searchValues_agree (p : Profile) :
    Fault.Agree Entries.Alike (searchValues p o) (searchValues p o') := by
  obtain ⟨cs, cs', hcs, hcs', hreordered⟩ := h.conditions
  have hstart : o.startkey = o'.startkey := by rw [h.others]
  have hend : o.endkey = o'.endkey := by rw [h.others]
  rw [searchValues, searchValues, hcs, hcs', pagingParams_eq_of_reordered h, hstart, hend]
  refine Fault.Agree.bind (R := Entries.Reordered) (.ok hreordered) fun cs cs' hreordered => ?_
  refine .bind (conditionParams_agree (sortedValues_relisted hreordered) p) fun es fs hes => ?_
  refine .same_bind _ fun paging => .ok ?_
  have hbounds := (addAbsent_alike (addAbsent_alike hes "startkey" o'.startkey) "endkey" o'.endkey)
  have hkept := (hbounds.merge paging).filter (p := fun e => !e.2.isNull) fun {a b} _ hab => by
    rw [hab.isNull_eq]
  have hturned := (hkept.getD "descending").truthy_eq
  refine boundAsKey_alike (boundAsKey_alike ?_ "startkey") "endkey"
  rw [hturned]
  split
  · exact swapBounds_alike hkept
  · exact hkept

end

end Query

/-! ## Queries that can be built -/

/-- A type whose name and kind are texts. -/
structure EntityType.HasTexts (e : EntityType) : Prop where
  name : ∃ name, e.name = .str name
  value : ∃ value, e.discriminatorValue = .str value

/-- Options whose conditions, fields for the key and explicit keys can be listed. -/
structure Options.IsListed (o : Options) : Prop where
  conditions : ∃ cs : Entries, o.conditions = .dict cs
  useKey : o.useKey.truthy = true → ∃ names, o.useKey.items = .ok names
  extra : ∃ further : Entries, o.extra = .dict further ∧
    ∀ keys, further.get? "keys" = some keys → ∃ vs, keys.items = .ok vs

namespace Query

theorem exists_listedNames {v : Value} (h : ∃ vs, v.items = .ok vs) :
    ∃ names, listedNames v = .ok names := by
  cases v with
  | str s => exact ⟨_, rfl⟩
  | _ => exact h

section
variable {o : Options} (ho : o.IsListed)
include ho

theorem exists_searchFields_of_isListed (e : EntityType) :
    ∃ fields, searchFields e o = .ok fields := by
  obtain ⟨names, hnames⟩ : ∃ names, givenNames o = .ok names := by
    obtain ⟨cs, hcs⟩ := ho.conditions
    cases htruthy : o.useKey.truthy with
    | true =>
      rw [givenNames_of_truthy htruthy]
      exact exists_listedNames (ho.useKey htruthy)
    | false => exact ⟨_, givenNames_of_not_truthy htruthy hcs⟩
  obtain ⟨fields, hfields, -⟩ := exists_searchFields e hnames
  exact ⟨fields, hfields⟩

theorem exists_pagingParams_of_isListed (p : Profile) : ∃ paging, pagingParams p o = .ok paging := by
  obtain ⟨further, hextra, hkeys⟩ := ho.extra
  rw [pagingParams, hextra]
  simp only [Value.toEntries, bind, Except.bind, extraParams]
  cases hget : further.get? "keys" with
  | none => exact ⟨_, rfl⟩
  | some keys =>
    obtain ⟨vs, hvs⟩ := hkeys keys hget
    simp only [hvs]
    split <;> exact ⟨_, rfl⟩

theorem exists_searchValues_of_isListed (p : Profile) : ∃ params, searchValues p o = .ok params := by
  obtain ⟨cs, hcs⟩ := ho.conditions
  obtain ⟨base, hbase, -⟩ := exists_conditionParams p ((sortedConditions cs).map (·.2))
  obtain ⟨paging, hpaging⟩ := exists_pagingParams_of_isListed ho p
  rw [searchValues, hcs]
  simp only [Value.entries, hbase, hpaging, bind, Except.bind]
  exact ⟨_, rfl⟩

variable {e : EntityType} (he : e.HasTexts)
include he

omit ho in
theorem exists_build_of_hasTexts (operation : String) (fields : List String) (reduce : Value)
    (params : Entries) (reduced : Bool) :
    ∃ q, build e o operation fields reduce params reduced = .ok q := by
  obtain ⟨⟨name, hname⟩, value, hvalue⟩ := he
  have hdesign : e.designName = .ok (Name.underscore name) := by rw [EntityType.designName, hname]
  have hsource : ∃ source, mapFunction e fields = .ok source := by
    rw [mapFunction, hvalue]
    exact ⟨_, rfl⟩
  obtain ⟨source, hsource⟩ := hsource
  exact ⟨_, build_eq hdesign hsource ..⟩

/-- Of such options and for such a type a query can be built. -/
theorem exists_compiled (p : Profile) : (∃ q, find e p o = .ok q) ∧ (∃ q, count e p o = .ok q) ∧
    ∀ name map reduce : Value, ∃ q, custom e p name map reduce o = .ok q := by
  obtain ⟨fields, hfields⟩ := exists_searchFields_of_isListed ho e
  obtain ⟨params, hparams⟩ := exists_searchValues_of_isListed ho p
  refine ⟨?_, ?_, fun name map reduce => ?_⟩
  · rw [find, hfields, hparams]
    simp only [bind, Except.bind]
    split <;> exact exists_build_of_hasTexts he ..
  · rw [count, hfields, hparams]
    simp only [bind, Except.bind]
    split <;> exact exists_build_of_hasTexts he ..
  · obtain ⟨designName, hdesign⟩ := he.name
    rw [custom, hparams]
    simp only [bind, Except.bind, EntityType.designName, hdesign]
    exact ⟨_, rfl⟩

end

/-- One of some people of three ages, in one of two teams. -/
def teamMate : Options where
  conditions := .dict [(.str "age", .set [.int 30, .int 20, .int 40]), (.str "id", .str "ann"),
    (.str "team", .frozenset [.str "red", .str "blue"])]
  useKey := .list [.str "team", .str "age", .str "team"]

/-- The same, with all that can be given in another order. -/
def teamMateAnew : Options where
  conditions := .dict [(.str "team", .frozenset [.str "blue", .str "red"]),
    (.str "age", .set [.int 20, .int 30, .int 40]), (.str "id", .str "ann")]
  useKey := .list [.str "age", .str "team"]

end Query

end ViewFinder
