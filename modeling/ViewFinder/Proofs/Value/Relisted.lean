import Mathlib.Data.List.Nodup
import ViewFinder.Proofs.Sorting.Runs
import ViewFinder.Proofs.Text.Identifier
import ViewFinder.Proofs.Value.Atom
import ViewFinder.Query.Compiled

/-!
# Sets that are listed in another order

A set has no order, but a value that holds one lists its members somehow. `Value.Relisted` relates two
values that list the same set, of texts or of integers, in whatever orders. They are the same values
(`Relisted.sameItem`), and as conditions they list the same choices in the same order
(`Relisted.choices_eq`), for the members are sorted, and no two of them tie.
-/

namespace ViewFinder

namespace Value

/-! ## A value is the same as itself -/

/-- A number equals itself, or is the very same NaN. -/
theorem agrees_self_of_float (loose : Bool) (x : Binary64) :
    (isSameNaN (.float x) (.float x) || agree loose (.float x) (.float x)) = true := by
  cases x with
  | nan p => simp [isSameNaN]
  | infinity n =>
    simp [agree, agree.numberAgrees, quantity?, Quantity.ofBinary64, Quantity.equal, Quantity.compare?]
  | finite n m e =>
    simp [agree, agree.numberAgrees, quantity?, Quantity.ofBinary64, Quantity.equal_self_of_dyadic]

mutual

/-- Every value equals itself, or is the very same NaN. -/
theorem agrees_self (loose : Bool) : ∀ v : Value, (isSameNaN v v || agree loose v v) = true
  | .null => by simp [agree, isNull]
  | .bool b => by
    simp [agree, agree.numberAgrees, quantity?, Quantity.ofInt, Quantity.equal_self_of_dyadic]
  | .int n => by
    simp [agree, agree.numberAgrees, quantity?, Quantity.ofInt, Quantity.equal_self_of_dyadic]
  | .float x => agrees_self_of_float loose x
  | .str s => by simp [agree]
  | .list vs => by simp [agree, agreeAll_self loose vs]
  | .tuple vs => by simp [agree, agreeAll_self loose vs]
  | .set vs => by simp [agree, allAmong_of_subset vs (List.Subset.refl vs)]
  | .frozenset vs => by simp [agree, allAmong_of_subset vs (List.Subset.refl vs)]
  | .range low high => by simp [agree, agrees_self loose low, agrees_self loose high]
  | .version v => by simp [agree]
  | .dict es => by simp [agree, allHeld_of_subset es (List.Subset.refl es)]

/-- `agrees_self` for the items of a list. -/
theorem agreeAll_self (loose : Bool) : ∀ vs : List Value, agreeAll loose vs vs = true
  | [] => by rw [agreeAll]
  | v :: vs => by
    rw [agreeAll, agrees_self loose v, agreeAll_self loose vs]
    rfl

/-- `agrees_self` for the members of a set. -/
theorem allAmong_of_subset : ∀ (vs : List Value) {ws : List Value}, vs ⊆ ws → allAmong vs ws = true
  | [], _, _ => by rw [allAmong]
  | v :: vs, ws, h => by
    obtain ⟨hv, hvs⟩ := List.cons_subset.1 h
    rw [allAmong, allAmong_of_subset vs hvs, Bool.and_true, List.any_eq_true]
    exact ⟨v, hv, agrees_self false v⟩

/-- `agrees_self` for the entries of a dictionary. -/
theorem allHeld_of_subset :
    ∀ (es : List (Value × Value)) {fs : List (Value × Value)}, es ⊆ fs → allHeld es fs = true
  | [], _, _ => by rw [allHeld]
  | (k, v) :: es, fs, h => by
    obtain ⟨he, hes⟩ := List.cons_subset.1 h
    rw [allHeld, allHeld_of_subset es hes, Bool.and_true, List.any_eq_true]
    exact ⟨(k, v), he, Bool.and_eq_true_iff.2 ⟨agrees_self false k, agrees_self true v⟩⟩

end

theorem sameItem_self (v : Value) : v.sameItem v = true := agrees_self true v

theorem sameItem_str (s t : String) : (Value.str s).sameItem (.str t) = (s == t) := by
  simp [sameItem, isSameNaN, equal, agree]

/-! ## Sets of texts and of integers -/

/-- The integer that a value is; a truth value is one of two. -/
def whole? : Value → Option Int
  | .int n => some n
  | .bool b => some (if b then 1 else 0)
  | _ => none

/-- The members of a set are all texts, or all integers of which no two are the same. -/
inductive Orderly (vs : List Value) : Prop where
  | texts (h : ∀ v ∈ vs, ∃ s, v = .str s ∧ Text.isKept s = true)
  | wholes (h : ∀ v ∈ vs, v.whole?.isSome = true)
      (distinct : (vs.map whole?).Nodup)

/-- Integers are in a strict order. -/
theorem weak_lt : Sorting.Weak fun m n : Int => decide (m < n) := by
  refine ⟨fun {a b} hab => ?_, fun {a b c} hba hcb => ?_⟩
  · simp only [decide_eq_true_eq, decide_eq_false_iff_not] at hab ⊢
    omega
  · simp only [decide_eq_false_iff_not] at hba hcb ⊢
    omega

theorem quantity?_of_whole? {v : Value} {n : Int} (h : v.whole? = some n) :
    v.quantity? = some (.ofInt n) := by
  cases v with
  | int m => cases h; rfl
  | bool b => cases h; rfl
  | _ => cases h

/-- Integers are compared. -/
theorem less?_of_whole? {v w : Value} {m n : Int} (hv : v.whole? = some m) (hw : w.whole? = some n) :
    v.less? w = some (decide (m < n)) := by
  have hnumber : numberLess? v w = some (decide (m < n)) := by
    rw [numberLess?, quantity?_of_whole? hv, quantity?_of_whole? hw]
    exact congrArg some (Quantity.less_ofInt m n)
  cases v with
  | int | bool =>
    cases w with
    | int | bool =>
      simp only [less?]
      exact hnumber
    | _ => cases hw
  | _ => cases hv

section
variable {vs ws : List Value}

/-- Values that are all compared, and of which no two tie, are sorted alike in whatever order they are
given. -/
theorem sorted?_eq_of_perm {before : Value → Value → Bool} (hw : Sorting.Weak before)
    (hless : ∀ v ∈ vs, ∀ w ∈ vs, v.less? w = some (before v w))
    (htie : ∀ v ∈ vs, ∀ w ∈ vs, before w v = false → before v w = false → v = w)
    (hperm : vs.Perm ws) : ∃ sorted, sorted? vs = some sorted ∧ sorted? ws = some sorted := by
  have hless' : ∀ v ∈ ws, ∀ w ∈ ws, v.less? w = some (before v w) := fun v hv w hw =>
    hless v (hperm.mem_iff.2 hv) w (hperm.mem_iff.2 hw)
  refine ⟨Sorting.sort before vs, Sorting.byRuns?_eq hw hless, ?_⟩
  rw [Sorting.sort_eq_of_perm hw hperm htie]
  exact Sorting.byRuns?_eq hw hless'

theorem Orderly.exists_sorted? (h : Orderly vs) (hperm : vs.Perm ws) :
    ∃ sorted, sorted? vs = some sorted ∧ sorted? ws = some sorted := by
  cases h with
  | texts h =>
    refine sorted?_eq_of_perm (Text.weak_before.comp Value.text) (fun v hv w hw => ?_)
      (fun v hv w hw hwv hvw => ?_) hperm
    · obtain ⟨s, rfl, -⟩ := h v hv
      obtain ⟨t, rfl, -⟩ := h w hw
      rw [less?]
      rfl
    · obtain ⟨s, rfl, hs⟩ := h v hv
      obtain ⟨t, rfl, ht⟩ := h w hw
      exact congrArg Value.str (Text.eq_of_not_before hs ht hvw hwv)
  | wholes h distinct =>
    refine sorted?_eq_of_perm (weak_lt.comp fun v : Value => v.whole?.getD 0) (fun v hv w hw => ?_)
      (fun v hv w hw hwv hvw => ?_) hperm
    · obtain ⟨m, hm⟩ := Option.isSome_iff_exists.1 (h v hv)
      obtain ⟨n, hn⟩ := Option.isSome_iff_exists.1 (h w hw)
      rw [less?_of_whole? hm hn, hm, hn]
      rfl
    · obtain ⟨m, hm⟩ := Option.isSome_iff_exists.1 (h v hv)
      obtain ⟨n, hn⟩ := Option.isSome_iff_exists.1 (h w hw)
      simp only [hm, hn, Option.getD_some, decide_eq_false_iff_not] at hwv hvw
      refine List.inj_on_of_nodup_map distinct hv hw ?_
      rw [hm, hn, show m = n by omega]

/-- The members of a set are put in one order. -/
theorem Orderly.orderedMembers_eq (h : Orderly vs) (hperm : vs.Perm ws) :
    Condition.orderedMembers vs = Condition.orderedMembers ws := by
  obtain ⟨sorted, hvs, hws⟩ := h.exists_sorted? hperm
  rw [Condition.orderedMembers, Condition.orderedMembers, hvs, hws]
  rfl

end

/-! ## Values that list a set -/

/-- Two values that are the same, or list the same set. -/
inductive Relisted : Value → Value → Prop
  | same (v : Value) : Relisted v v
  | set {vs ws : List Value} (h : Orderly vs) (hperm : vs.Perm ws) : Relisted (.set vs) (.set ws)
  | frozenset {vs ws : List Value} (h : Orderly vs) (hperm : vs.Perm ws) :
    Relisted (.frozenset vs) (.frozenset ws)

section
variable {v w : Value} (h : Relisted v w)
include h

/-- They are equal. -/
theorem Relisted.sameItem : v.sameItem w = true := by
  cases h with
  | same v => exact sameItem_self v
  | set h hperm | frozenset h hperm =>
    simp [Value.sameItem, equal, agree, hperm.length_eq, allAmong_of_subset _ hperm.subset]

theorem Relisted.isRange_eq : Condition.isRange v = Condition.isRange w := by
  cases h <;> rfl

theorem Relisted.isDiscrete_eq : Condition.isDiscrete v = Condition.isDiscrete w := by
  cases h <;> rfl

/-- They are the same conditions on a field. -/
theorem Relisted.choices_eq : Query.choices v = Query.choices w := by
  cases h with
  | same v => rfl
  | set h hperm | frozenset h hperm =>
    exact congrArg Except.ok (h.orderedMembers_eq hperm)

theorem Relisted.lowBound : Relisted (Query.lowBound v) (Query.lowBound w) := by
  cases h with
  | same v => exact .same _
  | set h hperm => exact .set h hperm
  | frozenset h hperm => exact .frozenset h hperm

theorem Relisted.highBound : Relisted (Query.highBound v) (Query.highBound w) := by
  cases h with
  | same v => exact .same _
  | set h hperm => exact .set h hperm
  | frozenset h hperm => exact .frozenset h hperm

end

theorem agreeAll_of_forall₂ {vs ws : List Value} (h : List.Forall₂ Relisted vs ws) :
    agreeAll true vs ws = true := by
  induction h with
  | nil => rw [agreeAll]
  | cons hv _ ih =>
    rw [agreeAll, ih, Bool.and_true]
    exact hv.sameItem

end Value

end ViewFinder
