import Mathlib.Data.List.Forall2
import Mathlib.Data.List.Induction
import ViewFinder.Proofs.Value.Json

/-!
# Atoms

An atom is null, an integer or a text: what an exact condition asks a field for. Equality of values
is loose, but not on atoms: a JSON value equals one atom at most (`Value.eq_of_equal_of_equal`), and
so a list of JSON values equals one list of atoms at most. What `Value.distinct` keeps of a list of
such values is in the order of their first places (`Value.pairwise_distinct`).
-/

namespace ViewFinder

namespace Quantity

/-- The only integer that a number equals is its value. -/
theorem eq_of_equal_of_equal {q : Quantity} {m n : Int} (hm : q.equal (.ofInt m) = true)
    (hn : q.equal (.ofInt n) = true) : m = n := by
  cases q with
  | nan p => cases hm
  | infinity s => cases s <;> cases hm
  | dyadic a e =>
    simp only [Quantity.equal, compare?, ofInt, compareDyadic, beq_iff_eq, Option.some.injEq,
      Std.LawfulEqCmp.compare_eq_iff_eq] at hm hn
    have hpos : power 2 (0 - min e 0).toNat ≠ 0 := Nat.ne_of_gt (Nat.two_pow_pos _)
    exact Int.eq_of_mul_eq_mul_right (Int.natCast_ne_zero.2 hpos) (hm.symm.trans hn)

theorem equal_self_of_dyadic (m e : Int) : (dyadic m e).equal (.dyadic m e) = true := by
  simp [Quantity.equal, compare?, compareDyadic]

@[simp] theorem equal_ofInt_self (n : Int) : (ofInt n).equal (.ofInt n) = true :=
  equal_self_of_dyadic n 0

theorem less_ofInt (m n : Int) : (ofInt m).less (.ofInt n) = decide (m < n) := by
  rw [Bool.eq_iff_iff]
  simp [less, compare?, ofInt, compareDyadic, Int.compare_eq_lt]

end Quantity

namespace Value

/-- Is the value null, an integer or a text? -/
def isAtom : Value → Bool
  | .null | .int _ | .str _ => true
  | _ => false

theorem isJson_of_isAtom {a : Value} (h : a.isAtom = true) : a.isJson = true := by
  cases a <;> simp_all [isAtom, isJson]

/-- An atom equals itself. -/
theorem equal_self_of_isAtom {a : Value} (h : a.isAtom = true) : a.equal a = true := by
  cases a with
  | null => simp [equal, agree, isNull]
  | int n => simp [equal, agree, agree.numberAgrees, quantity?]
  | str s => simp [equal, agree]
  | _ => cases h

/-- The only atoms that a number equals are integers of its value. -/
theorem numberAgrees_iff_of_isAtom {v a : Value} {q : Quantity} (hv : v.quantity? = some q)
    (ha : a.isAtom = true) :
    agree.numberAgrees true v a = true ↔ ∃ n, a = .int n ∧ q.equal (.ofInt n) = true := by
  unfold agree.numberAgrees
  rw [hv]
  cases a with
  | null | int | str => simp [quantity?]
  | _ => cases ha

/-- A JSON value equals one atom at most. -/
theorem eq_of_equal_of_equal {v a b : Value} (hv : v.isJson = true) (ha : a.isAtom = true)
    (hb : b.isAtom = true) (h1 : v.equal a = true) (h2 : v.equal b = true) : a = b := by
  have number {q : Quantity} (hq : v.quantity? = some q)
      (h1 : agree.numberAgrees true v a = true) (h2 : agree.numberAgrees true v b = true) :
      a = b := by
    obtain ⟨m, rfl, hm⟩ := (numberAgrees_iff_of_isAtom hq ha).1 h1
    obtain ⟨n, rfl, hn⟩ := (numberAgrees_iff_of_isAtom hq hb).1 h2
    rw [Quantity.eq_of_equal_of_equal hm hn]
  cases v with
  | null =>
    rw [equal, agree] at h1 h2
    cases a <;> cases h1
    cases b <;> cases h2
    rfl
  | bool x => exact number rfl (by rwa [equal, agree] at h1) (by rwa [equal, agree] at h2)
  | int x => exact number rfl (by rwa [equal, agree] at h1) (by rwa [equal, agree] at h2)
  | float x => exact number rfl (by rwa [equal, agree] at h1) (by rwa [equal, agree] at h2)
  | str s => cases a <;> cases b <;> simp_all [equal, agree, isAtom]
  | list vs => cases a <;> simp_all [equal, agree, isAtom]
  | dict es => cases a <;> simp_all [equal, agree, isAtom]
  | _ => simp [isJson] at hv

/-! ## Keys of atoms -/

/-- A list equals a list of JSON values if the items equal them one by one. -/
theorem equal_list_iff {vs ks : List Value} (hks : ∀ k ∈ ks, k.isJson = true) :
    (Value.list vs).equal (.list ks) = true ↔ List.Forall₂ (fun v k => v.equal k = true) vs ks := by
  rw [equal, agree]
  induction vs generalizing ks with
  | nil => cases ks <;> simp [agreeAll]
  | cons v vs ih =>
    cases ks with
    | nil => simp [agreeAll]
    | cons k ks =>
      obtain ⟨hk, hks⟩ := List.forall_mem_cons.1 hks
      have hnan : isSameNaN v k = false := by
        unfold isSameNaN
        split
        · cases hk
        · rfl
      rw [agreeAll, hnan, Bool.false_or, Bool.and_eq_true, ih hks, List.forall₂_cons, equal]

/-- A list of JSON values equals one list of atoms at most. -/
theorem eq_of_equal_list {vs ks ls : List Value} (hvs : ∀ v ∈ vs, v.isJson = true)
    (hks : ∀ k ∈ ks, k.isAtom = true) (hls : ∀ l ∈ ls, l.isAtom = true)
    (h1 : (Value.list vs).equal (.list ks) = true) (h2 : (Value.list vs).equal (.list ls) = true) :
    ks = ls := by
  rw [equal_list_iff fun k hk => isJson_of_isAtom (hks k hk)] at h1
  rw [equal_list_iff fun l hl => isJson_of_isAtom (hls l hl)] at h2
  induction h1 generalizing ls with
  | nil => cases h2; rfl
  | cons hk _ ih =>
    cases h2 with
    | cons hl h2 =>
      obtain ⟨hv, hvs⟩ := List.forall_mem_cons.1 hvs
      obtain ⟨hka, hks⟩ := List.forall_mem_cons.1 hks
      obtain ⟨hla, hls⟩ := List.forall_mem_cons.1 hls
      rw [eq_of_equal_of_equal hv hka hla hk hl, ih hvs hks hls h2]

/-- Lists of atoms are the same item only if they are the same. -/
theorem sameItem_list_iff {ks ls : List Value} (hks : ∀ k ∈ ks, k.isAtom = true)
    (hls : ∀ l ∈ ls, l.isAtom = true) :
    (Value.list ks).sameItem (.list ls) = true ↔ ks = ls := by
  have hjson : ∀ k ∈ ks, k.isJson = true := fun k hk => isJson_of_isAtom (hks k hk)
  have hself : (Value.list ks).equal (.list ks) = true := (equal_list_iff hjson).2 <|
    List.forall₂_same.2 fun k hk => equal_self_of_isAtom (hks k hk)
  have hnan : isSameNaN (.list ks) (.list ls) = false := rfl
  rw [sameItem, hnan, Bool.false_or]
  refine ⟨fun h => ?_, ?_⟩
  · exact eq_of_equal_list hjson hks hls hself h
  · rintro rfl
    exact hself

/-! ## Without repetition -/

section
variable {same : Value → Value → Bool} {vs : List Value}

theorem distinct_concat (v : Value) : distinct same (vs ++ [v]) =
    if (distinct same vs).any (same · v) then distinct same vs else distinct same vs ++ [v] := by
  rw [distinct, List.foldl_append, distinct, List.any_reverse]
  simp only [List.foldl_cons, List.foldl_nil]
  split
  · rfl
  · rw [List.reverse_cons]

/-- Where no two are the same nothing is left out. -/
theorem distinct_of_pairwise (h : vs.Pairwise fun v w => same v w = false) :
    distinct same vs = vs := by
  induction vs using List.reverseRecOn with
  | nil => rfl
  | append_singleton vs w ih =>
    obtain ⟨hvs, -, hw⟩ := List.pairwise_append.1 h
    have hnew : ¬ vs.any (same · w) = true := by simpa using hw
    rw [distinct_concat, ih hvs, if_neg hnew]

/-- What is kept was there. -/
theorem mem_of_mem_distinct {v : Value} (h : v ∈ distinct same vs) : v ∈ vs := by
  induction vs using List.reverseRecOn with
  | nil => exact h
  | append_singleton vs w ih =>
    rw [distinct_concat] at h
    split at h
    · exact List.mem_append_left _ (ih h)
    · exact List.mem_append.2 ((List.mem_append.1 h).imp_left ih)

/-- Where `same` is equality nothing is lost. -/
theorem mem_distinct (heq : ∀ v ∈ vs, ∀ w ∈ vs, same v w = true ↔ v = w) {v : Value} :
    v ∈ distinct same vs ↔ v ∈ vs := by
  refine ⟨mem_of_mem_distinct, fun h => ?_⟩
  induction vs using List.reverseRecOn with
  | nil => exact h
  | append_singleton vs w ih =>
    have hkeep : v ∈ vs → v ∈ distinct same vs := ih fun a ha b hb =>
      heq a (List.mem_append_left _ ha) b (List.mem_append_left _ hb)
    rw [distinct_concat]
    rcases List.mem_append.1 h with hv | hv
    · split
      · exact hkeep hv
      · exact List.mem_append_left _ (hkeep hv)
    · rw [List.mem_singleton.1 hv]
      split
      · next hany =>
        obtain ⟨a, ha, haw⟩ := List.any_eq_true.1 hany
        have hmem := List.mem_append_left [w] (mem_of_mem_distinct ha)
        rwa [← (heq a hmem w (by simp)).1 haw]
      · simp

/-- Where `same` is equality the values kept are in the order of their first places. -/
theorem pairwise_distinct (heq : ∀ v ∈ vs, ∀ w ∈ vs, same v w = true ↔ v = w) :
    (distinct same vs).Pairwise fun v w => vs.findIdx (same v) < vs.findIdx (same w) := by
  induction vs using List.reverseRecOn with
  | nil => exact .nil
  | append_singleton vs w ih =>
    have heq' : ∀ a ∈ vs, ∀ b ∈ vs, same a b = true ↔ a = b := fun a ha b hb =>
      heq a (List.mem_append_left _ ha) b (List.mem_append_left _ hb)
    -- the first place of a value that was there before does not move
    have hplace : ∀ a ∈ vs, vs.findIdx (same a) < vs.length ∧
        (vs ++ [w]).findIdx (same a) = vs.findIdx (same a) := fun a ha => by
      have hlt := List.findIdx_lt_length_of_exists ⟨a, ha, (heq' a ha a ha).2 rfl⟩
      exact ⟨hlt, by rw [List.findIdx_append, if_pos hlt]⟩
    have hold : (distinct same vs).Pairwise fun a b =>
        (vs ++ [w]).findIdx (same a) < (vs ++ [w]).findIdx (same b) :=
      (ih heq').imp_of_mem fun {a b} ha hb hab => by
        rw [(hplace a (mem_of_mem_distinct ha)).2, (hplace b (mem_of_mem_distinct hb)).2]
        exact hab
    rw [distinct_concat]
    split
    · exact hold
    · next hnew =>
      refine List.pairwise_append.2 ⟨hold, List.pairwise_singleton .., fun a ha b hb => ?_⟩
      rw [List.mem_singleton.1 hb]
      have hw : ¬ vs.findIdx (same w) < vs.length := fun hlt => hnew <| by
        obtain ⟨a, ha, hwa⟩ := List.findIdx_lt_length.1 hlt
        have haw : w = a :=
          (heq w (by simp) a (List.mem_append_left _ ha)).1 hwa
        subst haw
        exact List.any_eq_true.2 ⟨w, (mem_distinct heq').2 ha, (heq' w ha w ha).2 rfl⟩
      obtain ⟨hlt, heqa⟩ := hplace a (mem_of_mem_distinct ha)
      rw [heqa, List.findIdx_append, if_neg hw]
      omega

end

end Value

end ViewFinder
