import Mathlib.Algebra.BigOperators.Group.List.Basic
import Mathlib.Data.List.Dedup
import ViewFinder.Proofs.Query.Keys
import ViewFinder.Proofs.Value.Equality

/-!
# Keys as a product

The keys of a query are what is left of the product of what the conditions list once keys that equal an
earlier one are dropped. Dropping them from the product comes to dropping repeated values from each list
before (`Query.distinct_product`), so there are as many keys as the product of the numbers of
different values, and they come in the lexicographic order of the places of these
(`Query.expandKeys_product`).
-/

namespace ViewFinder

namespace Value

/-! ## Without repetition -/

section
variable {same : Value → Value → Bool} {vs ws : List Value}

/-- No two of the values kept are the same. -/
theorem pairwise_distinct_apart : (distinct same vs).Pairwise fun v w => same v w = false := by
  induction vs using List.reverseRecOn with
  | nil => exact .nil
  | append_singleton vs w ih =>
    rw [distinct_concat]
    split
    · exact ih
    · next hnew =>
      refine List.pairwise_append.2 ⟨ih, List.pairwise_singleton .., fun v hv u hu => ?_⟩
      rw [List.mem_singleton.1 hu]
      exact Bool.eq_false_iff.2 fun hsame => hnew (List.any_eq_true.2 ⟨v, hv, hsame⟩)

/-- Every value is the same as one that is kept. -/
theorem any_distinct (hrefl : ∀ v ∈ vs, same v v = true) {v : Value} (hv : v ∈ vs) :
    (distinct same vs).any (same · v) = true := by
  induction vs using List.reverseRecOn with
  | nil => cases hv
  | append_singleton vs w ih =>
    have hold := ih fun v hv => hrefl v (List.mem_append_left _ hv)
    rw [distinct_concat]
    rcases List.mem_append.1 hv with hv | hv
    · split
      · exact hold hv
      · rw [List.any_append, hold hv, Bool.true_or]
    · rw [List.mem_singleton.1 hv]
      split
      · next hany => exact hany
      · simp [hrefl w (by simp)]

/-- Values that are the same as some kept before add nothing. -/
theorem distinct_append_of_known (h : ∀ w ∈ ws, (distinct same vs).any (same · w) = true) :
    distinct same (vs ++ ws) = distinct same vs := by
  induction ws using List.reverseRecOn with
  | nil => rw [List.append_nil]
  | append_singleton ws w ih =>
    have hws := ih fun u hu => h u (List.mem_append_left _ hu)
    rw [← List.append_assoc, distinct_concat, hws, if_pos (h w (by simp))]

/-- Values that are not the same as any kept before are taken by themselves. -/
theorem distinct_append_of_new (h : ∀ w ∈ ws, (distinct same vs).any (same · w) = false) :
    distinct same (vs ++ ws) = distinct same vs ++ distinct same ws := by
  induction ws using List.reverseRecOn with
  | nil =>
    rw [List.append_nil]
    exact (List.append_nil _).symm
  | append_singleton ws w ih =>
    have hws := ih fun u hu => h u (List.mem_append_left _ hu)
    rw [← List.append_assoc, distinct_concat, hws, distinct_concat, List.any_append,
      h w (by simp), Bool.false_or]
    split
    · rfl
    · rw [List.append_assoc]

/-- A function that keeps apart what is apart can be applied before or after. -/
theorem distinct_map_of_same {f : Value → Value}
    (hf : ∀ v ∈ vs, ∀ w ∈ vs, same (f v) (f w) = same v w) :
    distinct same (vs.map f) = (distinct same vs).map f := by
  induction vs using List.reverseRecOn with
  | nil => rfl
  | append_singleton vs w ih =>
    have hany : ((distinct same vs).map f).any (same · (f w)) =
        (distinct same vs).any (same · w) := by
      rw [List.any_map, Bool.eq_iff_iff, List.any_eq_true, List.any_eq_true]
      refine exists_congr fun v => and_congr_right fun hv => ?_
      rw [Function.comp, hf v (List.mem_append_left _ (mem_of_mem_distinct hv)) w (by simp)]
    rw [List.map_append, List.map_singleton, distinct_concat, distinct_concat,
      ih fun u hu v hv => hf u (List.mem_append_left _ hu) v (List.mem_append_left _ hv), hany]
    split
    · rfl
    · rw [List.map_append, List.map_singleton]

end

/-! ## Values that are different -/

section
variable {vs : List Value} (hvs : ∀ v ∈ vs, v.isJson = true)
include hvs

/-- Of JSON values, some equals a kept one if and only if it equals one of all. -/
theorem exists_mem_distinct_iff {u : Value} (hu : u.isJson = true) :
    (∃ v ∈ distinct sameItem vs, u.equal v = true) ↔ ∃ v ∈ vs, u.equal v = true := by
  constructor
  · rintro ⟨v, hv, huv⟩
    exact ⟨v, mem_of_mem_distinct hv, huv⟩
  · rintro ⟨v, hv, huv⟩
    obtain ⟨w, hw, hwv⟩ := List.any_eq_true.1 (any_distinct (fun v _ => sameItem_self v) hv)
    have hwjson := hvs w (mem_of_mem_distinct hw)
    rw [sameItem_eq_equal w (hvs v hv)] at hwv
    exact ⟨w, hw, equal_trans hu (hvs v hv) hwjson huv (equal_symm hwjson (hvs v hv) hwv)⟩

/-- The JSON values kept are in the order of their first places. -/
theorem pairwise_distinct_findIdx : (distinct sameItem vs).Pairwise fun v w =>
    vs.findIdx (v.equal ·) < vs.findIdx (w.equal ·) := by
  induction vs using List.reverseRecOn with
  | nil => exact .nil
  | append_singleton vs w ih =>
    obtain ⟨hvs, hw⟩ := List.forall_mem_append.1 hvs
    have hwjson := hw w (List.mem_singleton_self w)
    -- the first place of a value that was there before does not move
    have hplace : ∀ v ∈ vs, vs.findIdx (v.equal ·) < vs.length ∧
        (vs ++ [w]).findIdx (v.equal ·) = vs.findIdx (v.equal ·) := fun v hv => by
      have hlt := List.findIdx_lt_length_of_exists ⟨v, hv, equal_self (hvs v hv)⟩
      exact ⟨hlt, by rw [List.findIdx_append, if_pos hlt]⟩
    have hold : (distinct sameItem vs).Pairwise fun u v =>
        (vs ++ [w]).findIdx (u.equal ·) < (vs ++ [w]).findIdx (v.equal ·) :=
      (ih hvs).imp_of_mem fun {u v} hu hv huv => by
        rw [(hplace u (mem_of_mem_distinct hu)).2, (hplace v (mem_of_mem_distinct hv)).2]
        exact huv
    rw [distinct_concat]
    split
    · exact hold
    · next hnew =>
      refine List.pairwise_append.2 ⟨hold, List.pairwise_singleton .., fun v hv u hu => ?_⟩
      rw [List.mem_singleton.1 hu]
      have hfresh : ¬ vs.findIdx (w.equal ·) < vs.length := fun hlt => hnew <| by
        obtain ⟨u, hu, hwu⟩ := (exists_mem_distinct_iff hvs hwjson).2 (List.findIdx_lt_length.1 hlt)
        have hujson := hvs u (mem_of_mem_distinct hu)
        refine List.any_eq_true.2 ⟨u, hu, ?_⟩
        rw [sameItem_eq_equal u hwjson]
        exact equal_symm hwjson hujson hwu
      obtain ⟨hlt, heq⟩ := hplace v (mem_of_mem_distinct hv)
      rw [heq, List.findIdx_append, if_neg hfresh]
      omega

/-- The first places of JSON values are those of the kept ones. -/
theorem mem_map_findIdx_iff {n : Nat} :
    n ∈ (distinct sameItem vs).map (fun v => vs.findIdx (v.equal ·)) ↔
      n ∈ vs.map fun v => vs.findIdx (v.equal ·) := by
  rw [List.mem_map, List.mem_map]
  constructor
  · rintro ⟨v, hv, rfl⟩
    exact ⟨v, mem_of_mem_distinct hv, rfl⟩
  · rintro ⟨v, hv, rfl⟩
    obtain ⟨w, hw, hvw⟩ := (exists_mem_distinct_iff hvs (hvs v hv)).2 ⟨v, hv, equal_self (hvs v hv)⟩
    have hwjson := hvs w (mem_of_mem_distinct hw)
    refine ⟨w, hw, ?_⟩
    -- equal values equal the same ones
    refine Nat.le_antisymm (List.findIdx_le_findIdx fun u hu hvu => ?_)
      (List.findIdx_le_findIdx fun u hu hwu => ?_)
    · exact equal_trans hwjson (hvs v hv) (hvs u hu) (equal_symm (hvs v hv) hwjson hvw) hvu
    · exact equal_trans (hvs v hv) hwjson (hvs u hu) hvw hwu

/-- As many JSON values are kept as there are different first places. -/
theorem length_distinct : (distinct sameItem vs).length =
    (vs.map fun v => vs.findIdx (v.equal ·)).dedup.length := by
  have hnodup : ((distinct sameItem vs).map fun v => vs.findIdx (v.equal ·)).Nodup :=
    List.pairwise_map.2 ((pairwise_distinct_findIdx hvs).imp Nat.ne_of_lt)
  have hperm : ((distinct sameItem vs).map fun v => vs.findIdx (v.equal ·)).Perm
      (vs.map fun v => vs.findIdx (v.equal ·)).dedup :=
    (List.perm_ext_iff_of_nodup hnodup (List.nodup_dedup _)).2 fun n => by
      rw [List.mem_dedup, mem_map_findIdx_iff hvs]
  rw [← hperm.length_eq, List.length_map]

end

end Value

namespace Condition

/-- How many different values a condition accepts. Those with the same first place among all that it
lists are one. -/
def variety (condition : Value) : Nat := ((accepted condition).map (place condition)).dedup.length

theorem isJson_of_mem_accepted {condition v : Value} (h : condition.isJson = true)
    (hv : v ∈ accepted condition) : v.isJson = true := by
  cases condition with
  | list vs =>
    rw [Value.isJson, Value.allJson_iff] at h
    exact h v hv
  | _ =>
    rw [List.mem_singleton.1 hv]
    exact h

end Condition

namespace Query

open Condition

/-- What a JSON value accepts as a condition can be listed. -/
theorem choices_of_isJson {condition : Value} (h : condition.isJson = true) :
    choices condition = .ok (accepted condition) := by
  cases condition <;> first | rfl | simp [Value.isJson] at h

/-! ## The product -/

/-- Puts a value in front of a list. -/
def prepend (v : Value) : Value → Value
  | .list vs => .list (v :: vs)
  | w => w

/-- The keys of all combinations. -/
def product (options : List (List Value)) : List Value := (combinations options).map .list

/-- Lists are the same item if their items are, one by one. -/
theorem sameItem_prepend {options others : List (List Value)} {k l : Value} (hk : k ∈ product options)
    (hl : l ∈ product others) (v w : Value) :
    (prepend v k).sameItem (prepend w l) = (v.sameItem w && k.sameItem l) := by
  obtain ⟨ks, -, rfl⟩ := List.mem_map.1 hk
  obtain ⟨ls, -, rfl⟩ := List.mem_map.1 hl
  simp [prepend, Value.sameItem, Value.isSameNaN, Value.equal, Value.agree, Value.agreeAll]

/-- The keys that start with an option, for each option in turn. -/
theorem product_cons (some : List Value) (rest : List (List Value)) :
    product (some :: rest) = some.flatMap fun v => (product rest).map (prepend v) := by
  simp only [product, combinations, List.map_flatMap, List.map_map]
  rfl

/-- Dropping repeated keys comes to dropping repeated options from each list. -/
theorem distinct_product (options : List (List Value)) :
    Value.distinct Value.sameItem (product options) =
      product (options.map (Value.distinct Value.sameItem)) := by
  induction options with
  | nil => rfl
  | cons some rest ih =>
    rw [List.map_cons, product_cons, product_cons, ← ih]
    have hkept {k : Value} (hk : k ∈ Value.distinct Value.sameItem (product rest)) :
        k ∈ product rest := Value.mem_of_mem_distinct hk
    induction some using List.reverseRecOn with
    | nil => rfl
    | append_singleton some v ihsome =>
      rw [List.flatMap_append, List.flatMap_singleton, Value.distinct_concat]
      split
      · next hknown =>
        -- an earlier option is the same, and so are the keys that start with it
        obtain ⟨u, hu, huv⟩ := List.any_eq_true.1 hknown
        rw [Value.distinct_append_of_known, ihsome]
        rw [ihsome, List.forall_mem_map]
        intro l hl
        obtain ⟨k, hk, hkl⟩ := List.any_eq_true.1
          (Value.any_distinct (fun k _ => Value.sameItem_self k) hl)
        refine List.any_eq_true.2 ⟨prepend u k,
          List.mem_flatMap.2 ⟨u, hu, List.mem_map_of_mem hk⟩, ?_⟩
        rw [sameItem_prepend (hkept hk) hl, huv, hkl]
        rfl
      · next hnew =>
        rw [Value.distinct_append_of_new, ihsome, List.flatMap_append, List.flatMap_singleton,
          Value.distinct_map_of_same]
        · intro k hk l hl
          rw [sameItem_prepend hk hl, Value.sameItem_self, Bool.true_and]
        · rw [ihsome, List.forall_mem_map]
          intro l hl
          refine Bool.eq_false_iff.2 fun hany => hnew ?_
          obtain ⟨key, hkey, hkl⟩ := List.any_eq_true.1 hany
          obtain ⟨u, hu, hkey⟩ := List.mem_flatMap.1 hkey
          obtain ⟨k, hk, rfl⟩ := List.mem_map.1 hkey
          rw [sameItem_prepend (hkept hk) hl, Bool.and_eq_true] at hkl
          exact List.any_eq_true.2 ⟨u, hu, hkl.1⟩

/-- There are as many combinations as the product of the numbers of options. -/
theorem length_combinations {α : Type} (options : List (List α)) :
    (combinations options).length = (options.map List.length).prod := by
  induction options with
  | nil => rfl
  | cons some rest ih =>
    rw [List.map_cons, List.prod_cons, ← ih, combinations]
    simp [List.length_flatMap]

/-- If the options for each condition are in the order of their places, combinations are in the
lexicographic order of these. -/
theorem pairwise_combinations {conditions : List Value} {options : Value → List Value}
    (h : ∀ c ∈ conditions, (options c).Pairwise fun v w => place c v < place c w) :
    (combinations (conditions.map options)).Pairwise fun ks ls =>
      places conditions ks < places conditions ls := by
  induction conditions with
  | nil => exact List.pairwise_singleton ..
  | cons c conditions ih =>
    obtain ⟨hc, hrest⟩ := List.forall_mem_cons.1 h
    rw [List.map_cons, combinations, List.pairwise_flatMap]
    constructor
    · intro v _
      refine List.pairwise_map.2 ((ih hrest).imp fun hlt => ?_)
      exact List.cons_lt_cons_iff.2 (.inr ⟨rfl, hlt⟩)
    · refine hc.imp fun hlt k hk l hl => ?_
      obtain ⟨ks, -, rfl⟩ := List.mem_map.1 hk
      obtain ⟨ls, -, rfl⟩ := List.mem_map.1 hl
      exact List.cons_lt_cons_iff.2 (.inl hlt)

/-! ## The keys -/

/-- The different values that each condition accepts. -/
def differentValues (conditions : List Value) : List (List Value) :=
  conditions.map fun c => Value.distinct Value.sameItem (accepted c)

section
variable {conditions : List Value} (h : ∀ c ∈ conditions, c.isJson = true)
include h

/-- The keys are all combinations of different values. -/
theorem expandKeys_eq_product :
    expandKeys conditions = .ok ((combinations (differentValues conditions)).map .list) := by
  rw [expandKeys, Fault.mapM_eq_ok fun c hc => choices_of_isJson (h c hc)]
  refine congrArg Except.ok ((distinct_product _).trans ?_)
  rw [product, List.map_map]
  rfl

/-- The values of a combination are JSON. -/
theorem isJson_of_mem_differentValues {ks : List Value}
    (hks : ks ∈ combinations (differentValues conditions)) : ∀ k ∈ ks, k.isJson = true := by
  rw [mem_combinations, differentValues, List.forall₂_map_right_iff] at hks
  induction hks with
  | nil => nofun
  | cons hk _ ih =>
    obtain ⟨hc, hrest⟩ := List.forall_mem_cons.1 h
    exact List.forall_mem_cons.2
      ⟨isJson_of_mem_accepted hc (Value.mem_of_mem_distinct hk), ih hrest⟩

/-- JSON values are accepted one by one if and only if each equals one of the different ones. -/
theorem forall₂_accepts_iff {vs : List Value} (hvs : ∀ v ∈ vs, v.isJson = true) :
    List.Forall₂ (fun v some => ∃ k ∈ some, v.equal k = true) vs (differentValues conditions) ↔
      List.Forall₂ (fun v c => accepts c v = true) vs conditions := by
  rw [differentValues, List.forall₂_map_right_iff]
  induction conditions generalizing vs with
  | nil => rw [List.forall₂_nil_right_iff, List.forall₂_nil_right_iff]
  | cons c conditions ih =>
    obtain ⟨hc, hrest⟩ := List.forall_mem_cons.1 h
    cases vs with
    | nil => simp
    | cons v vs =>
      obtain ⟨hv, hvs⟩ := List.forall_mem_cons.1 hvs
      rw [List.forall₂_cons, List.forall₂_cons, ih hrest hvs, accepts, List.any_eq_true,
        Value.exists_mem_distinct_iff (fun k => isJson_of_mem_accepted hc) hv]

/-- A JSON value equals a key if and only if it is a list of accepted values, one for each condition. -/
theorem exists_equal_key_iff {k : Value} (hk : k.isJson = true) :
    (∃ ks ∈ combinations (differentValues conditions), k.equal (.list ks) = true) ↔
      ∃ vs, k = .list vs ∧ List.Forall₂ (fun v c => accepts c v = true) vs conditions := by
  have hlist {vs : List Value} (hvs : ∀ v ∈ vs, v.isJson = true) :
      (∃ ks ∈ combinations (differentValues conditions), (Value.list vs).equal (.list ks) = true) ↔
        List.Forall₂ (fun v c => accepts c v = true) vs conditions := by
    rw [← forall₂_accepts_iff h hvs, ← exists_combination_iff]
    refine exists_congr fun ks => and_congr_right fun hks => ?_
    rw [Value.equal_list_iff (isJson_of_mem_differentValues h hks), List.all₂_eq_true]
  constructor
  · rintro ⟨ks, hks, heq⟩
    have hjson : (Value.list ks).isJson = true := by
      rw [Value.isJson, Value.allJson_iff]
      exact isJson_of_mem_differentValues h hks
    cases (Value.equal_iff_byKind hk hjson).1 heq with
    | number _ hr => cases hr
    | @list vs =>
      rw [Value.isJson, Value.allJson_iff] at hk
      exact ⟨vs, rfl, (hlist hk).1 ⟨ks, hks, heq⟩⟩
  · rintro ⟨vs, rfl, hvs⟩
    rw [Value.isJson, Value.allJson_iff] at hk
    exact (hlist hk).2 hvs

/-- Conditions that are JSON values, where a list stands for any of its items, are expanded to keys of
which no two are equal. A JSON value equals one of them if and only if it is a list of values that equal
an accepted one, condition by condition. They are in the lexicographic order of the places of their values
among the accepted ones, and their number is the product of the numbers of different values that the
conditions accept. -/
theorem expandKeys_product : ∃ keys : List (List Value),
    expandKeys conditions = .ok (keys.map .list) ∧
    keys.Pairwise (fun ks ls => (Value.list ks).equal (.list ls) = false ∧
      (Value.list ls).equal (.list ks) = false) ∧
    (∀ k : Value, k.isJson = true → ((∃ ks ∈ keys, k.equal (.list ks) = true) ↔
      ∃ vs, k = .list vs ∧ List.Forall₂ (fun v c => accepts c v = true) vs conditions)) ∧
    keys.Pairwise (fun ks ls => places conditions ks < places conditions ls) ∧
    keys.length = (conditions.map variety).prod := by
  have hvalues {c : Value} (hc : c ∈ conditions) : ∀ v ∈ accepted c, v.isJson = true :=
    fun v => isJson_of_mem_accepted (h c hc)
  refine ⟨combinations (differentValues conditions), expandKeys_eq_product h, ?_,
    fun k hk => exists_equal_key_iff h hk, ?_, ?_⟩
  · have hjson {ks : List Value} (hks : ks ∈ combinations (differentValues conditions)) :
        (Value.list ks).isJson = true := by
      rw [Value.isJson, Value.allJson_iff]
      exact isJson_of_mem_differentValues h hks
    have hapart : (product (differentValues conditions)).Pairwise
        fun k l => k.sameItem l = false := by
      have hdistinct := distinct_product (conditions.map accepted)
      rw [List.map_map] at hdistinct
      exact hdistinct ▸ Value.pairwise_distinct_apart
    refine (List.pairwise_map.1 hapart).imp_of_mem fun {ks ls} hks hls hkl => ?_
    rw [Value.sameItem_eq_equal _ (hjson hls)] at hkl
    refine ⟨hkl, Bool.eq_false_iff.2 fun hlk => ?_⟩
    rw [Value.equal_symm (hjson hls) (hjson hks) hlk] at hkl
    cases hkl
  · exact pairwise_combinations fun c hc => Value.pairwise_distinct_findIdx (hvalues hc)
  · rw [length_combinations, differentValues, List.map_map]
    exact congrArg List.prod (List.map_congr_left fun c hc => Value.length_distinct (hvalues hc))

end

/-- A grade of which one is listed as three kinds of number, one school, and a name that is listed
twice. -/
def repeatedChoices : List Value :=
  [.list [.int 1, .float (.ofInt 1), .bool true, .int 2], .str "North",
    .list [.str "Alice", .str "Bob", .str "Alice"]]

theorem expandKeys_repeatedChoices : ∃ keys : List (List Value),
    expandKeys repeatedChoices = .ok (keys.map .list) ∧
    keys.Pairwise (fun ks ls => (Value.list ks).equal (.list ls) = false ∧
      (Value.list ls).equal (.list ks) = false) ∧
    (∀ k : Value, k.isJson = true → ((∃ ks ∈ keys, k.equal (.list ks) = true) ↔
      ∃ vs, k = .list vs ∧
        List.Forall₂ (fun v c => accepts c v = true) vs repeatedChoices)) ∧
    keys.Pairwise (fun ks ls => places repeatedChoices ks < places repeatedChoices ls) ∧
    keys.length = (repeatedChoices.map variety).prod :=
  expandKeys_product (by decide)

/-- The first of the equal values stays: four keys, for two grades and two names. -/
example : (expandKeys repeatedChoices).toOption.map List.length = some 4 := by decide +kernel

end Query

end ViewFinder
