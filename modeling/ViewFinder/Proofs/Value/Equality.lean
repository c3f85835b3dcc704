import Mathlib.Data.List.Perm.Subperm
import ViewFinder.Proofs.Value.Collation
import ViewFinder.Proofs.Value.Relisted

/-!
# Equality of JSON values

On JSON values the loose equality of conditions is an equivalence relation: every value equals itself
(`Value.equal_self`), and equality can be turned round (`Value.equal_symm`) and chained
(`Value.equal_trans`). Integers, floating-point numbers and truth values are among the values that it
does not tell apart, and so are objects with their members in another order.
-/

namespace ViewFinder

namespace Quantity

theorem equal_symm {q r : Quantity} (h : q.equal r = true) : r.equal q = true := by
  rw [equal, beq_iff_eq] at h ⊢
  rw [compare?_swap, h]
  rfl

theorem equal_trans {q r t : Quantity} (hqr : q.equal r = true) (hrt : r.equal t = true) :
    q.equal t = true := by
  rw [equal, beq_iff_eq] at hqr hrt ⊢
  rw [compare?_congr hqr, hrt]

end Quantity

namespace Value

/-! ## The kinds of JSON values -/

/-- Induction on a JSON value: a scalar, a list of JSON values or an object of JSON values. -/
theorem json_induction {motive : Value → Prop}
    (scalar : ∀ v, v.isScalar = true → v.isJson = true → motive v)
    (list : ∀ vs, (∀ v ∈ vs, v.isJson = true) → (∀ v ∈ vs, motive v) → motive (.list vs))
    (dict : ∀ es : Entries, es.Named → (∀ e ∈ es, e.2.isJson = true) → (∀ e ∈ es, motive e.2) →
      motive (.dict es)) : ∀ v : Value, v.isJson = true → motive v
  | .list vs, h => by
    rw [isJson, allJson_iff] at h
    exact list vs h fun v hv => json_induction scalar list dict v (h v hv)
  | .dict es, h => by
    obtain ⟨hnamed, hvalues⟩ := (isJson_dict es).1 h
    exact dict es hnamed hvalues fun e he => json_induction scalar list dict e.2 (hvalues e he)
  | .null, h | .bool _, h | .int _, h | .float _, h | .str _, h => scalar _ rfl h
  | .tuple _, h | .set _, h | .frozenset _, h | .range .., h | .version _, h => by
    simp [isJson] at h
termination_by v => sizeOf v
decreasing_by
  · have hsize := List.sizeOf_lt_of_mem hv
    simp only [Value.list.sizeOf_spec]
    omega
  · have hsize := List.sizeOf_lt_of_mem he
    obtain ⟨k, v⟩ := e
    simp only [Prod.mk.sizeOf_spec, Value.dict.sizeOf_spec] at hsize ⊢
    omega

/-! ## Equality by kind -/

/-- Every object member is one of the other object, under the same name and with an equal value. -/
def MembersIn (es fs : Entries) : Prop := ∀ e ∈ es, ∃ f ∈ fs, e.1 = f.1 ∧ e.2.equal f.2 = true

/-- How two JSON values can be equal. -/
inductive EqualByKind : Value → Value → Prop
  | null : EqualByKind .null .null
  | number {v w : Value} {q r : Quantity} (hv : v.quantity? = some q) (hw : w.quantity? = some r)
      (h : q.equal r = true) : EqualByKind v w
  | text (s : String) : EqualByKind (.str s) (.str s)
  | list {vs ws : List Value} (h : List.Forall₂ (fun v w => v.equal w = true) vs ws) :
      EqualByKind (.list vs) (.list ws)
  | dict {es fs : Entries} (hlength : es.length = fs.length) (h : MembersIn es fs) :
      EqualByKind (.dict es) (.dict fs)

theorem isSameNaN_eq_false (v : Value) {w : Value} (hw : w.isJson = true) :
    isSameNaN v w = false := by
  unfold isSameNaN
  split
  · cases hw
  · rfl

/-- A JSON value is the same item as whatever equals it. -/
theorem sameItem_eq_equal (v : Value) {w : Value} (hw : w.isJson = true) :
    v.sameItem w = v.equal w := by
  rw [sameItem, isSameNaN_eq_false v hw, Bool.false_or]

theorem equal_eq_numberAgrees {v : Value} {q : Quantity} (hv : v.quantity? = some q) (w : Value) :
    v.equal w = agree.numberAgrees true v w := by
  cases v with
  | bool | int | float => rw [equal, agree]
  | _ => cases hv

/-- Numbers are equal if their exact values are. -/
theorem equal_iff_of_quantity? {v w : Value} {q r : Quantity} (hv : v.quantity? = some q)
    (hw : w.quantity? = some r) : v.equal w = true ↔ q.equal r = true := by
  rw [equal_eq_numberAgrees hv]
  unfold agree.numberAgrees
  rw [hv]
  cases w with
  | bool | int | float =>
    cases hw
    rfl
  | _ => cases hw

/-- A number equals no JSON value but numbers. -/
theorem quantity?_ne_none_of_equal {v w : Value} {q : Quantity} (hv : v.quantity? = some q)
    (hw : w.isJson = true) (h : v.equal w = true) : w.quantity? ≠ none := by
  intro hnone
  rw [equal_eq_numberAgrees hv] at h
  unfold agree.numberAgrees at h
  rw [hv] at h
  cases w with
  | version => cases hw
  | bool | int | float => cases hnone
  | _ => cases h

/-- An object holds the members of another if each is among its own. -/
theorem allHeld_iff {es fs : Entries} (hes : ∀ e ∈ es, ∃ n, e.1 = .str n)
    (hfs : ∀ f ∈ fs, (∃ n, f.1 = .str n) ∧ f.2.isJson = true) :
    allHeld es fs = true ↔ MembersIn es fs := by
  induction es with
  | nil => simp [allHeld, MembersIn]
  | cons e es ih =>
    obtain ⟨⟨n, hn⟩, hrest⟩ := List.forall_mem_cons.1 hes
    obtain ⟨k, v⟩ := e
    subst hn
    rw [allHeld, Bool.and_eq_true, ih hrest, MembersIn, MembersIn, List.forall_mem_cons,
      List.any_eq_true]
    refine and_congr_left fun _ => exists_congr fun f => and_congr_right fun hf => ?_
    obtain ⟨⟨m, hm⟩, hjson⟩ := hfs f hf
    rw [Bool.and_eq_true, isSameNaN_eq_false v hjson, Bool.false_or, hm]
    simp [isSameNaN, agree, equal]

/-- JSON values are equal if they are of one kind and equal in the way of this kind. -/
theorem equal_iff_byKind {v w : Value} (hv : v.isJson = true) (hw : w.isJson = true) :
    v.equal w = true ↔ EqualByKind v w := by
  constructor
  · intro h
    cases hq : v.quantity? with
    | some q =>
      obtain ⟨r, hr⟩ := Option.ne_none_iff_exists'.1 (quantity?_ne_none_of_equal hq hw h)
      exact .number hq hr ((equal_iff_of_quantity? hq hr).1 h)
    | none =>
      cases v with
      | null =>
        rw [equal, agree] at h
        cases w <;> first | exact .null | cases h
      | str s =>
        cases w <;> simp_all [equal, agree, isJson]
        exact .text _
      | list vs =>
        cases w with
        | list ws => exact .list ((equal_list_iff (allJson_iff.1 (by rwa [isJson] at hw))).1 h)
        | _ => simp [equal, agree] at h
      | dict es =>
        cases w with
        | dict fs =>
          rw [equal, agree, Bool.and_eq_true, beq_iff_eq] at h
          obtain ⟨hes, -⟩ := (isJson_dict es).1 hv
          obtain ⟨hfs, hjson⟩ := (isJson_dict fs).1 hw
          exact .dict h.1 ((allHeld_iff hes.texts fun f hf => ⟨hfs.texts f hf, hjson f hf⟩).1 h.2)
        | _ => simp [equal, agree] at h
      | bool | int | float => cases hq
      | _ => simp [isJson] at hv
  · intro h
    cases h with
    | null => simp [equal, agree, isNull]
    | number hq hr h => exact (equal_iff_of_quantity? hq hr).2 h
    | text s => simp [equal, agree]
    | list h => exact (equal_list_iff (allJson_iff.1 (by rwa [isJson] at hw))).2 h
    | dict hlength h =>
      obtain ⟨hes, -⟩ := (isJson_dict _).1 hv
      obtain ⟨hfs, hjson⟩ := (isJson_dict _).1 hw
      rw [equal, agree, hlength, beq_self_eq_true, Bool.true_and]
      exact (allHeld_iff hes.texts fun f hf => ⟨hfs.texts f hf, hjson f hf⟩).2 h

/-! ## An equivalence relation -/

/-- A JSON value equals itself. -/
theorem equal_self {v : Value} (hv : v.isJson = true) : v.equal v = true := by
  rw [← sameItem_eq_equal v hv]
  exact sameItem_self v

/-- If all members of one object are in another that has no more, then the other way round too. -/
theorem membersIn_symm {es fs : Entries} (hes : es.Named) (hfs : fs.Named)
    (hlength : es.length = fs.length) (h : MembersIn es fs)
    (hsymm : ∀ e ∈ es, ∀ f ∈ fs, e.2.equal f.2 = true → f.2.equal e.2 = true) :
    MembersIn fs es := by
  have hsub : es.map (·.1) ⊆ fs.map (·.1) := fun k hk => by
    obtain ⟨e, he, rfl⟩ := List.mem_map.1 hk
    obtain ⟨f, hf, heq, -⟩ := h e he
    exact heq ▸ List.mem_map_of_mem hf
  -- as many distinct names, so the same
  have hperm := (hes.nodup.subperm hsub).perm_of_length_le (by simp [hlength])
  intro f hf
  obtain ⟨e, he, hef⟩ := List.mem_map.1 (hperm.mem_iff.2 (List.mem_map_of_mem hf))
  obtain ⟨g, hg, heg, hequal⟩ := h e he
  have hgf : g = f := List.inj_on_of_nodup_map hfs.nodup hg hf (heg.symm.trans hef)
  subst hgf
  exact ⟨e, he, hef.symm, hsymm e he g hg hequal⟩

/-- Lists are equal either way round if their items are. -/
theorem forall₂_equal_symm {vs ws : List Value} (h : List.Forall₂ (fun v w => v.equal w = true) vs ws)
    (hws : ∀ w ∈ ws, w.isJson = true)
    (hsymm : ∀ v ∈ vs, ∀ w, w.isJson = true → v.equal w = true → w.equal v = true) :
    List.Forall₂ (fun w v => w.equal v = true) ws vs := by
  induction h with
  | nil => exact .nil
  | cons hvw _ ih =>
    obtain ⟨hw, hws⟩ := List.forall_mem_cons.1 hws
    obtain ⟨hv, hvs⟩ := List.forall_mem_cons.1 hsymm
    exact .cons (hv _ hw hvw) (ih hws hvs)

/-- Equality of JSON values can be turned round. -/
theorem equal_symm {v w : Value} (hv : v.isJson = true) (hw : w.isJson = true)
    (h : v.equal w = true) : w.equal v = true := by
  refine json_induction (motive := fun v => ∀ w : Value, w.isJson = true → v.equal w = true →
    w.equal v = true) ?scalar ?list ?dict v hv w hw h
  case scalar =>
    intro v hscalar hv w hw h
    refine (equal_iff_byKind hw hv).2 ?_
    cases (equal_iff_byKind hv hw).1 h with
    | null => exact .null
    | number hq hr h => exact .number hr hq (Quantity.equal_symm h)
    | text s => exact .text s
    | list | dict => cases hscalar
  case list =>
    intro vs hvs ih w hw h
    have hv : (Value.list vs).isJson = true := by rwa [isJson, allJson_iff]
    refine (equal_iff_byKind hw hv).2 ?_
    cases (equal_iff_byKind hv hw).1 h with
    | number hq => cases hq
    | list hitems => exact .list (forall₂_equal_symm hitems (by rwa [isJson, allJson_iff] at hw) ih)
  case dict =>
    intro es hes hjson ih w hw h
    have hv : (Value.dict es).isJson = true := (isJson_dict es).2 ⟨hes, hjson⟩
    refine (equal_iff_byKind hw hv).2 ?_
    cases (equal_iff_byKind hv hw).1 h with
    | number hq => cases hq
    | dict hlength hmembers =>
      obtain ⟨hfs, hfjson⟩ := (isJson_dict _).1 hw
      exact .dict hlength.symm (membersIn_symm hes hfs hlength hmembers fun e he f hf =>
        ih e he f.2 (hfjson f hf))

/-- Equality of lists can be chained if that of their items can. -/
theorem forall₂_equal_trans {us vs ws : List Value}
    (huv : List.Forall₂ (fun u v => u.equal v = true) us vs)
    (hvw : List.Forall₂ (fun v w => v.equal w = true) vs ws)
    (hvs : ∀ v ∈ vs, v.isJson = true) (hws : ∀ w ∈ ws, w.isJson = true)
    (htrans : ∀ u ∈ us, ∀ v w, v.isJson = true → w.isJson = true → u.equal v = true →
      v.equal w = true → u.equal w = true) :
    List.Forall₂ (fun u w => u.equal w = true) us ws := by
  induction huv generalizing ws with
  | nil => exact hvw
  | cons huv _ ih =>
    cases hvw with
    | cons hvw hrest =>
      obtain ⟨hv, hvs⟩ := List.forall_mem_cons.1 hvs
      obtain ⟨hw, hws⟩ := List.forall_mem_cons.1 hws
      obtain ⟨hu, hus⟩ := List.forall_mem_cons.1 htrans
      exact .cons (hu _ _ hv hw huv hvw) (ih hrest hvs hws hus)

/-- Equality of JSON values can be chained. -/
theorem equal_trans {u v w : Value} (hu : u.isJson = true) (hv : v.isJson = true)
    (hw : w.isJson = true) (huv : u.equal v = true) (hvw : v.equal w = true) :
    u.equal w = true := by
  refine json_induction (motive := fun u => ∀ v w : Value, v.isJson = true → w.isJson = true →
    u.equal v = true → v.equal w = true → u.equal w = true) ?scalar ?list ?dict u hu v w hv hw huv hvw
  case scalar =>
    intro u hscalar hu v w hv hw huv hvw
    refine (equal_iff_byKind hu hw).2 ?_
    cases (equal_iff_byKind hu hv).1 huv with
    | null => exact (equal_iff_byKind hv hw).1 hvw
    | number hq hr h =>
      cases (equal_iff_byKind hv hw).1 hvw with
      | number hr' ht h' =>
        cases hr.symm.trans hr'
        exact .number hq ht (Quantity.equal_trans h h')
      | _ => cases hr
    | text s => exact (equal_iff_byKind hv hw).1 hvw
    | list | dict => cases hscalar
  case list =>
    intro us hus ih v w hv hw huv hvw
    have hu : (Value.list us).isJson = true := by rwa [isJson, allJson_iff]
    refine (equal_iff_byKind hu hw).2 ?_
    cases (equal_iff_byKind hu hv).1 huv with
    | number hq => cases hq
    | list hitems =>
      cases (equal_iff_byKind hv hw).1 hvw with
      | number hq => cases hq
      | list hitems' =>
        rw [isJson, allJson_iff] at hv hw
        exact .list (forall₂_equal_trans hitems hitems' hv hw ih)
  case dict =>
    intro es hes hjson ih v w hv hw huv hvw
    have hu : (Value.dict es).isJson = true := (isJson_dict es).2 ⟨hes, hjson⟩
    refine (equal_iff_byKind hu hw).2 ?_
    cases (equal_iff_byKind hu hv).1 huv with
    | number hq => cases hq
    | dict hlength hmembers =>
      cases (equal_iff_byKind hv hw).1 hvw with
      | number hq => cases hq
      | dict hlength' hmembers' =>
        obtain ⟨-, hvjson⟩ := (isJson_dict _).1 hv
        obtain ⟨-, hwjson⟩ := (isJson_dict _).1 hw
        refine .dict (hlength.trans hlength') fun e he => ?_
        obtain ⟨f, hf, hef, heq⟩ := hmembers e he
        obtain ⟨g, hg, hfg, heq'⟩ := hmembers' f hf
        exact ⟨g, hg, hef.trans hfg, ih e he _ _ (hvjson f hf) (hwjson g hg) heq heq'⟩

end Value

end ViewFinder
