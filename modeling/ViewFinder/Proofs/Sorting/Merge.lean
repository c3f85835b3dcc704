import ViewFinder.Sorting.Runs
import ViewFinder.Proofs.Sorting.Merged

/-!
# Merging two runs

`merge?` leaves alone what stays where it is at either end of two runs, and merges the rest from the
start or from the end, one element at a time or several. Whichever it does, the outcome is `merged`
(`merge?_eq`), if the comparison is decided for all elements and the runs are in ascending order. Each
way of going on is a step (`MergesUp.steps`, `MergesUp.leaps`, and the same downwards), and needs that
one run never gives out before the other: its last element, or its first one, lies beyond all of that.
-/

namespace ViewFinder.Sorting

variable {α : Type}

/-! ## Leaps -/

/-- A test that holds of the first elements of a run, as many as a number says, and of no other. -/
structure Splits (test : α → Option Bool) (a : Array α) (k : Nat) : Prop where
  le : k ≤ a.size
  test : ∀ i < a.size, (do test (← a[i]?)) = some (decide (i < k))

section
variable {test : α → Option Bool} {a : Array α} {k : Nat} (h : Splits test a k)
include h

/-- Halving finds where a test ceases to hold. -/
theorem Splits.boundary?_eq {fuel low high : Nat} (hlow : low ≤ k) (hhigh : k ≤ high)
    (hsize : high ≤ a.size) (hfuel : high - low ≤ fuel) :
    boundary? test a fuel low high = some k := by
  induction fuel generalizing low high with
  | zero => rw [boundary?, show high = k by omega]
  | succ fuel ih =>
    rw [boundary?]
    by_cases hlt : low < high
    · have hmiddle := h.test (low + (high - low) / 2) (by omega)
      rw [if_pos hlt]
      simp only [← bind_assoc, hmiddle]
      by_cases hk : low + (high - low) / 2 < k
      · simp only [hk]
        exact ih (by omega) hhigh hsize (by omega)
      · simp only [hk]
        exact ih hlow (by omega) (by omega) (by omega)
    · rw [if_neg hlt, show high = k by omega]
      rfl

/-- Leaps upwards end where the test ceases to hold between the last two places. -/
theorem Splits.leapUp?_eq {hint fuel last leap : Nat} (hlast : hint + last < k)
    (hfuel : a.size - hint - leap < fuel) :
    ∃ low high, leapUp? test a hint (a.size - hint) fuel last leap = some (low, high) ∧
      hint + low < k ∧ k ≤ hint + high ∧ hint + high ≤ a.size := by
  have hle := h.le
  induction fuel generalizing last leap with
  | zero => exact absurd hfuel (Nat.not_lt_zero _)
  | succ fuel ih =>
    rw [leapUp?]
    by_cases hlt : leap < a.size - hint
    · have htest := h.test (hint + leap) (by omega)
      rw [if_pos hlt]
      simp only [← bind_assoc, htest]
      by_cases hk : hint + leap < k
      · simp only [hk]
        exact ih hk (by omega)
      · simp only [hk]
        exact ⟨last, leap, rfl, hlast, by omega, by omega⟩
    · rw [if_neg hlt]
      exact ⟨last, min leap (a.size - hint), rfl, hlast, by omega, by omega⟩

/-- So do leaps downwards. -/
theorem Splits.leapDown?_eq {hint fuel last leap : Nat} (hhint : hint < a.size)
    (hlast : k + last ≤ hint) (hfuel : hint + 1 - leap < fuel) :
    ∃ high low, leapDown? test a hint (hint + 1) fuel last leap = some (high, low) ∧
      k + high ≤ hint ∧ hint + 1 ≤ k + low ∧ low ≤ hint + 1 := by
  induction fuel generalizing last leap with
  | zero => exact absurd hfuel (Nat.not_lt_zero _)
  | succ fuel ih =>
    rw [leapDown?]
    by_cases hlt : leap < hint + 1
    · have htest := h.test (hint - leap) (by omega)
      rw [if_pos hlt]
      simp only [← bind_assoc, htest]
      by_cases hk : hint - leap < k
      · simp only [hk]
        exact ⟨last, leap, rfl, hlast, by omega, by omega⟩
      · simp only [hk]
        exact ih (by omega) (by omega)
    · rw [if_neg hlt]
      exact ⟨last, min leap (hint + 1), rfl, hlast, by omega, by omega⟩

/-- Where the search for the place starts makes no difference. -/
theorem Splits.leap?_eq {hint : Nat} (hhint : hint < a.size) : leap? test a hint = some k := by
  have hle := h.le
  rw [leap?]
  simp only [← bind_assoc, h.test hint hhint]
  by_cases hk : hint < k
  · have hfuel : a.size - hint - 1 < a.size + 1 := by omega
    have hstart : hint + 0 < k := hk
    obtain ⟨low, high, hleap, hlow, hhigh, hsize⟩ := h.leapUp?_eq hstart hfuel
    simp only [hk, decide_true, Option.bind_eq_bind, Option.bind_some, if_true, hleap]
    exact h.boundary?_eq hlow hhigh hsize (by omega)
  · have hfuel : hint + 1 - 1 < a.size + 1 := by omega
    have hstart : k + 0 ≤ hint := Nat.not_lt.1 hk
    obtain ⟨high, low, hleap, hhigh, hlow, hsize⟩ := h.leapDown?_eq hhint hstart hfuel
    simp only [hk, decide_false, Option.bind_eq_bind, Option.bind_some, Bool.false_eq_true, if_false,
      hleap]
    exact h.boundary?_eq (by omega) (by omega) (by omega) (by omega)

end

/-- A run is split by a test that holds of its first part and not of the other one. -/
theorem splits_append {test : α → Option Bool} {xs ys : List α} (hxs : ∀ x ∈ xs, test x = some true)
    (hys : ∀ y ∈ ys, test y = some false) : Splits test (xs ++ ys).toArray xs.length := by
  refine ⟨by simp, fun i hi => ?_⟩
  rw [List.getElem?_toArray, List.getElem?_append]
  split
  · next hlt =>
    rw [List.getElem?_eq_getElem hlt, decide_eq_true hlt]
    exact hxs _ (List.getElem_mem hlt)
  · next hlt =>
    have hrest : i - xs.length < ys.length := by
      simp only [List.size_toArray, List.length_append] at hi
      omega
    rw [List.getElem?_eq_getElem hrest, decide_eq_false hlt]
    exact hys _ (List.getElem_mem hrest)

/-! ## Comparisons that are decided -/

/-- A comparison that is decided for any two elements of a kind. -/
structure Decides (before? : α → α → Option Bool) (before : α → α → Bool) (kind : α → Prop) :
    Prop where
  weak : Weak before
  eq : ∀ {a b}, kind a → kind b → before? a b = some (before a b)

/-- A list of elements of a kind, in ascending order. -/
structure Ascending (before : α → α → Bool) (kind : α → Prop) (l : List α) : Prop where
  kind : ∀ a ∈ l, kind a
  sorted : l.Pairwise fun a b => before b a = false

section
variable {before : α → α → Bool} {kind : α → Prop} {xs ys : List α}

theorem Ascending.append_left (h : Ascending before kind (xs ++ ys)) : Ascending before kind xs :=
  ⟨fun a ha => h.kind a (List.mem_append_left _ ha), (List.pairwise_append.1 h.sorted).1⟩

theorem Ascending.append_right (h : Ascending before kind (xs ++ ys)) : Ascending before kind ys :=
  ⟨fun a ha => h.kind a (List.mem_append_right _ ha), (List.pairwise_append.1 h.sorted).2.1⟩

theorem Ascending.tail {x : α} (h : Ascending before kind (x :: xs)) : Ascending before kind xs :=
  ⟨(List.forall_mem_cons.1 h.kind).2, (List.pairwise_cons.1 h.sorted).2⟩

/-- Nothing comes before the first element. -/
theorem Ascending.not_before_cons (hw : Weak before) {x : α} (h : Ascending before kind (x :: xs)) :
    ∀ y ∈ x :: xs, before y x = false :=
  List.forall_mem_cons.2 ⟨hw.not_before_self x, (List.pairwise_cons.1 h.sorted).1⟩

/-- The last element comes before none. -/
theorem Ascending.last_not_before (hw : Weak before) {x : α} (h : Ascending before kind (xs ++ [x])) :
    ∀ y ∈ xs ++ [x], before x y = false :=
  List.forall_mem_append.2
    ⟨fun y hy => (List.pairwise_append.1 h.sorted).2.2 y hy x (List.mem_cons_self ..),
      List.forall_mem_singleton.2 (hw.not_before_self x)⟩

theorem Ascending.not_before (h : Ascending before kind (xs ++ ys)) :
    ∀ x ∈ xs, ∀ y ∈ ys, before y x = false := (List.pairwise_append.1 h.sorted).2.2

end

section
variable {before? : α → α → Option Bool} {before : α → α → Bool} {kind : α → Prop}
  (hd : Decides before? before kind) {a : α} (ha : kind a) {xs ys : List α}
  (hkind : ∀ b ∈ xs ++ ys, kind b) {hint : Nat} (hhint : hint < (xs ++ ys).length)
include hd ha hkind

/-- A run is split by what comes no later than an element. -/
theorem splits_notAfter (hxs : ∀ x ∈ xs, before a x = false) (hys : ∀ y ∈ ys, before a y = true) :
    Splits (fun x => (before? a x).map (!·)) (xs ++ ys).toArray xs.length := by
  refine splits_append (fun x hx => ?_) (fun y hy => ?_)
  · rw [hd.eq ha (hkind x (List.mem_append_left _ hx)), hxs x hx]
    rfl
  · rw [hd.eq ha (hkind y (List.mem_append_right _ hy)), hys y hy]
    rfl

include hhint

/-- The elements that come no later than another one are counted. -/
theorem notAfter?_eq (hxs : ∀ x ∈ xs, before a x = false) (hys : ∀ y ∈ ys, before a y = true) :
    notAfter? before? a (xs ++ ys).toArray hint = some xs.length :=
  (splits_notAfter hd ha hkind hxs hys).leap?_eq (by simpa using hhint)

/-- The elements that come before another one are counted. -/
theorem earlier?_eq (hxs : ∀ x ∈ xs, before x a = true) (hys : ∀ y ∈ ys, before y a = false) :
    earlier? before? a (xs ++ ys).toArray hint = some xs.length := by
  refine (splits_append (fun x hx => ?_) (fun y hy => ?_)).leap?_eq (by simpa using hhint)
  · rw [hd.eq (hkind x (List.mem_append_left _ hx)) ha, hxs x hx]
  · rw [hd.eq (hkind y (List.mem_append_right _ hy)) ha, hys y hy]

end

/-- An ascending list falls into what a test holds of and what it does not hold of, if it holds of all
that comes before what it holds of. -/
theorem exists_split {before : α → α → Bool} {l : List α}
    (hl : l.Pairwise fun a b => before b a = false) {p : α → Bool}
    (hp : ∀ {a b}, before b a = false → p b = true → p a = true) :
    ∃ xs ys, l = xs ++ ys ∧ (∀ x ∈ xs, p x = true) ∧ ∀ y ∈ ys, p y = false := by
  induction l with
  | nil => exact ⟨[], [], rfl, List.forall_mem_nil _, List.forall_mem_nil _⟩
  | cons a l ih =>
    obtain ⟨ha, hl⟩ := List.pairwise_cons.1 hl
    cases hpa : p a with
    | true =>
      obtain ⟨xs, ys, rfl, hxs, hys⟩ := ih hl
      exact ⟨a :: xs, ys, rfl, List.forall_mem_cons.2 ⟨hpa, hxs⟩, hys⟩
    | false =>
      refine ⟨[], a :: l, rfl, List.forall_mem_nil _, List.forall_mem_cons.2 ⟨hpa, fun b hb => ?_⟩⟩
      refine Bool.eq_false_iff.2 fun hpb => ?_
      rw [hp (ha b hb) hpb] at hpa
      cases hpa

section
variable {before : α → α → Bool} {kind : α → Prop} (hw : Weak before) {l : List α}
  (hl : Ascending before kind l) (a : α)
include hw hl

theorem Ascending.exists_notAfter :
    ∃ xs ys, l = xs ++ ys ∧ (∀ x ∈ xs, before a x = false) ∧ ∀ y ∈ ys, before a y = true := by
  have hlater {b c : α} (hbc : before c b = false) (hc : (!before a c) = true) :
      (!before a b) = true := by
    rw [Bool.not_eq_true'] at hc ⊢
    exact hw.trans hbc hc
  simpa using exists_split hl.sorted hlater

theorem Ascending.exists_earlier :
    ∃ xs ys, l = xs ++ ys ∧ (∀ x ∈ xs, before x a = true) ∧ ∀ y ∈ ys, before y a = false := by
  refine exists_split hl.sorted fun {b c} hbc hc => ?_
  by_contra hb
  rw [hw.trans (Bool.eq_false_iff.2 hb) hbc] at hc
  cases hc

end

/-! ## Merging from the start -/

section
variable (x : α) (xs ys : List α)

theorem extract_tail : (x :: xs).toArray.extract 1 (x :: xs).toArray.size = xs.toArray := by simp

theorem extract_front : (xs ++ ys).toArray.extract 0 xs.length = xs.toArray := by simp

theorem extract_back : (xs ++ ys).toArray.extract xs.length (xs ++ ys).toArray.size = ys.toArray := by
  simp

end

/-- Two runs of which the first one ends with an element that all of the second one come before. -/
structure LastBeyond (before : α → α → Bool) (kind : α → Prop) (xs : List α) (z : α) (ys : List α) :
    Prop where
  first : Ascending before kind (xs ++ [z])
  second : Ascending before kind ys
  first_ne : xs ≠ []
  second_ne : ys ≠ []
  last : ∀ y ∈ ys, before y z = true

/-- Such runs are merged from the start. -/
def MergesUp (before? : α → α → Option Bool) (before : α → α → Bool) (kind : α → Prop) (fuel : Nat) :
    Prop :=
  ∀ (pace : Pace) (streak : Nat) (done : Array α) {xs : List α} {z : α} {ys : List α},
    LastBeyond before kind xs z ys → xs.length + ys.length < fuel →
      (mergeUp? before? fuel pace streak done (xs ++ [z]).toArray ys.toArray).map (·.1) =
        some (done ++ (merged before (xs ++ [z]) ys).toArray)

section
variable {before? : α → α → Option Bool} {before : α → α → Bool} {kind : α → Prop}
  (hd : Decides before? before kind) {fuel : Nat} (ih : MergesUp before? before kind fuel)
  {streak : Nat} {done : Array α} {xs : List α} {z : α} {ys : List α}
  (h : LastBeyond before kind xs z ys) (hfuel : xs.length + ys.length < fuel + 1)
include hd ih h hfuel

/-- Taking one element is a step. -/
theorem MergesUp.steps (first second : Nat) :
    (mergeUp? before? (fuel + 1) (.steps first second) streak done (xs ++ [z]).toArray
      ys.toArray).map (·.1) = some (done ++ (merged before (xs ++ [z]) ys).toArray) := by
  obtain ⟨hx, hy, hxs, hys, hz⟩ := h
  obtain ⟨x, xs, rfl⟩ := List.exists_cons_of_ne_nil hxs
  obtain ⟨y, ys, rfl⟩ := List.exists_cons_of_ne_nil hys
  have hcompare : before? y x = some (before y x) :=
    hd.eq (hy.kind y (List.mem_cons_self ..)) (hx.kind x (List.mem_cons_self ..))
  simp only [List.length_cons] at hfuel
  rw [mergeUp?, List.cons_append, extract_tail, extract_tail, cons_merged_cons]
  simp only [List.getElem?_toArray, List.getElem?_cons_zero, Option.bind_eq_bind,
    Option.bind_some, hcompare, List.isEmpty_toArray]
  cases hyx : before y x with
  | true =>
    rw [if_pos rfl, if_pos rfl]
    cases ys with
    | nil => simp
    | cons y' ys =>
      have hnext : LastBeyond before kind (x :: xs) z (y' :: ys) :=
        ⟨hx, hy.tail, hxs, List.cons_ne_nil y' ys,
          fun b hb => hz b (List.mem_cons_of_mem y hb)⟩
      have hrest (pace : Pace) (streak : Nat) := ih pace streak
        (done.push y) hnext (by simp only [List.length_cons] at hfuel ⊢; omega)
      simp only [List.cons_append, List.push_append_toArray] at hrest
      rw [List.isEmpty_cons, if_neg Bool.false_ne_true]
      split
      · exact hrest ..
      · exact hrest ..
  | false =>
    rw [if_neg Bool.false_ne_true, if_neg Bool.false_ne_true]
    cases xs with
    | nil =>
      rw [List.nil_append, merged_eq_swapped (List.forall_mem_singleton.2 hz)]
      simp
    | cons x' xs =>
      have hnext : LastBeyond before kind (x' :: xs) z (y :: ys) :=
        ⟨hx.tail, hy, List.cons_ne_nil x' xs, hys, hz⟩
      have hrest (pace : Pace) (streak : Nat) := ih pace streak
        (done.push x) hnext (by simp only [List.length_cons] at hfuel ⊢; omega)
      simp only [List.cons_append, List.push_append_toArray] at hrest
      have hsize : ((x' :: xs ++ [z]).toArray.size == 1) = false := by simp
      rw [hsize, if_neg Bool.false_ne_true]
      split
      · exact hrest ..
      · exact hrest ..

/-- So is taking all that come first of either run. -/
theorem MergesUp.leaps :
    (mergeUp? before? (fuel + 1) .leaps streak done (xs ++ [z]).toArray ys.toArray).map (·.1) =
      some (done ++ (merged before (xs ++ [z]) ys).toArray) := by
  obtain ⟨hx, hy, hxs, hys, hz⟩ := h
  obtain ⟨y, ys, rfl⟩ := List.exists_cons_of_ne_nil hys
  obtain ⟨ps, qs, rfl, hps, hqs⟩ := hx.append_left.exists_notAfter hd.weak y
  rw [List.append_assoc] at hx
  have hqs : ∀ q ∈ qs ++ [z], before y q = true :=
    List.forall_mem_append.2 ⟨hqs, List.forall_mem_singleton.2 (hz y (List.mem_cons_self ..))⟩
  have hfirst : notAfter? before? y (ps ++ (qs ++ [z])).toArray 0 = some ps.length :=
    notAfter?_eq hd (hy.kind y (List.mem_cons_self ..)) hx.kind
      (List.length_pos_of_ne_nil (by simp)) hps hqs
  have hyfirst : ∀ b ∈ ys, before b y = false := (List.pairwise_cons.1 hy.sorted).1
  rw [mergeUp?, List.append_assoc, merged_append_cons hd.weak hps hqs hyfirst]
  simp only [List.getElem?_toArray, List.getElem?_cons_zero, Option.bind_eq_bind,
    Option.bind_some, hfirst, extract_front, extract_back, extract_tail]
  cases qs with
  | nil =>
    -- the first run had other elements than the last one, and they have all been taken
    have hps : 0 < ps.length := List.length_pos_of_ne_nil (by simpa using hxs)
    have hlast : merged before [z] ys = ys ++ [z] :=
      merged_eq_swapped (List.forall_mem_singleton.2 fun b hb => hz b (List.mem_cons_of_mem y hb))
    simp [hps, hlast]
  | cons x qs =>
    have hsize : ((x :: qs ++ [z]).toArray.size == 1) = false := by simp
    rw [hsize, Bool.and_false, if_neg Bool.false_ne_true]
    simp only [List.cons_append, extract_tail]
    obtain ⟨rs, ss, rfl, hrs, hss⟩ := hy.tail.exists_earlier hd.weak x
    by_cases hnil : rs ++ ss = []
    · simp [hnil]
    · have hsecond : earlier? before? x (rs ++ ss).toArray 0 = some rs.length :=
        earlier?_eq hd (hx.append_right.kind x (List.mem_cons_self ..)) hy.tail.kind
          (List.length_pos_of_ne_nil hnil) hrs hss
      simp only [List.getElem?_cons_zero, Option.bind_some, hsecond, extract_front, extract_back]
      have hxfirst : ∀ a ∈ qs ++ [z], before a x = false :=
        (List.pairwise_cons.1 hx.append_right.sorted).1
      rw [merged_cons_append hd.weak hxfirst hrs hss]
      cases ss with
      | nil =>
        have hrsne : rs ≠ [] := by simpa using hnil
        simp [hrsne]
      | cons s ss =>
        have hnext {b : α} (hb : b ∈ s :: ss) : b ∈ y :: (rs ++ s :: ss) :=
          List.mem_cons_of_mem y (List.mem_append_right rs hb)
        cases qs with
        | nil =>
          have hlast : ∀ a ∈ [z], ∀ b ∈ s :: ss, before b a = true :=
            List.forall_mem_singleton.2 fun b hb => hz b (hnext hb)
          rw [List.nil_append, merged_eq_swapped hlast]
          simp
        | cons x' qs =>
          have hready : LastBeyond before kind (x' :: qs) z (s :: ss) :=
            ⟨hx.append_right.tail, hy.tail.append_right,
              List.cons_ne_nil x' qs, List.cons_ne_nil s ss, fun b hb => hz b (hnext hb)⟩
          have hrest (pace : Pace) (streak : Nat) := ih pace streak
            (((done ++ ps.toArray).push y ++ rs.toArray).push x) hready (by
              simp only [List.length_cons, List.length_append] at hfuel ⊢
              omega)
          have htaken (m : List α) : done ++ (ps ++ y :: (rs ++ x :: m)).toArray =
              ((done ++ ps.toArray).push y ++ rs.toArray).push x ++ m.toArray := by simp
          have hsize : ((x' :: qs ++ [z]).toArray.size == 1) = false := by simp
          have hrs : (rs ++ s :: ss).toArray.isEmpty = false := by simp
          rw [hsize, hrs]
          simp only [List.isEmpty_toArray, List.isEmpty_cons, Bool.false_eq_true, if_false, htaken]
          split
          · exact hrest ..
          · exact hrest ..

end

theorem mergesUp {before? : α → α → Option Bool} {before : α → α → Bool} {kind : α → Prop}
    (hd : Decides before? before kind) (fuel : Nat) : MergesUp before? before kind fuel := by
  induction fuel with
  | zero => exact fun _ _ _ _ _ _ _ hfuel => absurd hfuel (Nat.not_lt_zero _)
  | succ fuel ih =>
    intro pace streak done xs z ys h hfuel
    cases pace with
    | steps first second => exact ih.steps hd h hfuel first second
    | leaps => exact ih.leaps hd h hfuel

/-! ## Merging from the end -/

section
variable (x : α) (xs : List α)

theorem back?_concat : (xs ++ [x]).toArray.back? = some x := by simp

theorem pop_concat : (xs ++ [x]).toArray.pop = xs.toArray := by simp

theorem append_toArray_append (ys : List α) (done : Array α) :
    (xs ++ ys).toArray ++ done = xs.toArray ++ (ys.toArray ++ done) := by
  rw [← Array.append_assoc, ← List.append_toArray xs ys]

end

/-- Two runs of which the second one begins with an element that comes before all of the first one. -/
structure FirstAhead (before : α → α → Bool) (kind : α → Prop) (xs : List α) (z : α) (ys : List α) :
    Prop where
  first : Ascending before kind xs
  second : Ascending before kind (z :: ys)
  first_ne : xs ≠ []
  second_ne : ys ≠ []
  ahead : ∀ x ∈ xs, before z x = true

/-- Such runs are merged from the end. -/
def MergesDown (before? : α → α → Option Bool) (before : α → α → Bool) (kind : α → Prop)
    (fuel : Nat) : Prop :=
  ∀ (pace : Pace) (streak : Nat) (done : Array α) {xs : List α} {z : α} {ys : List α},
    FirstAhead before kind xs z ys → xs.length + ys.length < fuel →
      (mergeDown? before? fuel pace streak done xs.toArray (z :: ys).toArray).map (·.1) =
        some ((merged before xs (z :: ys)).toArray ++ done)

section
variable {before? : α → α → Option Bool} {before : α → α → Bool} {kind : α → Prop}
  (hd : Decides before? before kind) {fuel : Nat} (ih : MergesDown before? before kind fuel)
  {streak : Nat} {done : Array α} {xs : List α} {z : α} {ys : List α}
  (h : FirstAhead before kind xs z ys) (hfuel : xs.length + ys.length < fuel + 1)
include hd ih h hfuel

/-- Taking one element is a step. -/
theorem MergesDown.steps (first second : Nat) :
    (mergeDown? before? (fuel + 1) (.steps first second) streak done xs.toArray
      (z :: ys).toArray).map (·.1) = some ((merged before xs (z :: ys)).toArray ++ done) := by
  obtain ⟨hx, hy, hxs, hys, hz⟩ := h
  obtain ⟨xs, x, rfl⟩ := (List.eq_nil_or_concat' xs).resolve_left hxs
  obtain ⟨ys, y, rfl⟩ := (List.eq_nil_or_concat' ys).resolve_left hys
  rw [← List.cons_append] at hy ⊢
  have hcompare : before? y x = some (before y x) :=
    hd.eq (hy.append_right.kind y (List.mem_cons_self ..))
      (hx.append_right.kind x (List.mem_cons_self ..))
  simp only [List.length_append, List.length_singleton] at hfuel
  rw [mergeDown?, back?_concat, back?_concat, pop_concat, pop_concat]
  simp only [Option.bind_eq_bind, Option.bind_some, hcompare, List.isEmpty_toArray]
  cases hyx : before y x with
  | true =>
    have hlast : ∀ b ∈ z :: ys ++ [y], ∀ c ∈ [x], before b c = true := fun b hb =>
      List.forall_mem_singleton.2 (hd.weak.before_of_before (hy.last_not_before hd.weak b hb) hyx)
    rw [if_pos rfl, merged_append_left hlast]
    cases xs with
    | nil => simp
    | cons x' xs =>
      have hready : FirstAhead before kind (x' :: xs) z (ys ++ [y]) :=
        ⟨hx.append_left, hy, List.cons_ne_nil x' xs, hys,
          fun c hc => hz c (List.mem_append_left _ hc)⟩
      have hrest (pace : Pace) (streak : Nat) := ih pace streak
        (#[x] ++ done) hready (by
          simp only [List.length_cons, List.length_append, List.length_nil] at hfuel ⊢
          omega)
      rw [List.isEmpty_cons, if_neg Bool.false_ne_true, append_toArray_append]
      split
      · exact hrest ..
      · exact hrest ..
  | false =>
    have hlast : ∀ c ∈ xs ++ [x], ∀ b ∈ [y], before b c = false := fun c hc =>
      List.forall_mem_singleton.2 (hd.weak.trans (hx.last_not_before hd.weak c hc) hyx)
    rw [if_neg Bool.false_ne_true, merged_append_right hlast]
    cases ys with
    | nil =>
      have hahead : ∀ c ∈ xs ++ [x], ∀ b ∈ [z], before b c = true := fun c hc =>
        List.forall_mem_singleton.2 (hz c hc)
      rw [merged_eq_swapped hahead]
      simp
    | cons y' ys =>
      have hready : FirstAhead before kind (xs ++ [x]) z (y' :: ys) :=
        ⟨hx, hy.append_left, hxs, List.cons_ne_nil y' ys, hz⟩
      have hrest (pace : Pace) (streak : Nat) := ih pace streak
        (#[y] ++ done) hready (by
          simp only [List.length_cons, List.length_append, List.length_nil] at hfuel ⊢
          omega)
      have hsize : ((z :: y' :: ys).toArray.size == 1) = false := by simp
      rw [hsize, if_neg Bool.false_ne_true, append_toArray_append]
      split
      · exact hrest ..
      · exact hrest ..

/-- So is taking all that come last of either run. -/
theorem MergesDown.leaps :
    (mergeDown? before? (fuel + 1) .leaps streak done xs.toArray (z :: ys).toArray).map (·.1) =
      some ((merged before xs (z :: ys)).toArray ++ done) := by
  obtain ⟨hx, hy, hxs, hys, hz⟩ := h
  obtain ⟨ys, y, rfl⟩ := (List.eq_nil_or_concat' ys).resolve_left hys
  rw [← List.cons_append] at hy ⊢
  obtain ⟨ps, qs, rfl, hps, hqs⟩ := hx.exists_notAfter hd.weak y
  have hfirst : notAfter? before? y (ps ++ qs).toArray ((ps ++ qs).toArray.size - 1) =
      some ps.length :=
    notAfter?_eq hd (hy.append_right.kind y (List.mem_cons_self ..)) hx.kind
      (by have := List.length_pos_of_ne_nil hxs; simp only [List.size_toArray]; omega) hps hqs
  have hylast : ∀ b ∈ z :: ys, before y b = false := fun b hb =>
    hy.not_before b hb y (List.mem_singleton_self y)
  rw [mergeDown?, merged_append_concat hd.weak hps hqs hylast]
  simp only [back?_concat, pop_concat, Option.bind_eq_bind, Option.bind_some, hfirst, extract_front,
    extract_back]
  rw [append_toArray_append (merged ..), append_toArray_append [y]]
  rcases List.eq_nil_or_concat' ps with rfl | ⟨ps, x, rfl⟩
  · rw [nil_merged, append_toArray_append, Array.append_assoc]
    rfl
  have hahead : ∀ p ∈ ps ++ [x], before z p = true := fun p hp => hz p (List.mem_append_left qs hp)
  have hzx : before z x = true := hahead x (List.mem_append_right ps (List.mem_singleton_self x))
  have hpsne : (ps ++ [x]).toArray.isEmpty = false := by simp
  rw [hpsne, if_neg Bool.false_ne_true]
  by_cases hnil : ys = []
  · have hfirst : ∀ p ∈ ps ++ [x], ∀ b ∈ [z], before b p = true := fun p hp =>
      List.forall_mem_singleton.2 (hahead p hp)
    subst hnil
    rw [merged_eq_swapped hfirst]
    simp
  have hsize : ((z :: ys).toArray.size == 1) = false := by simpa using hnil
  obtain ⟨rs, ss, rfl, hrs, hss⟩ := hy.append_left.tail.exists_earlier hd.weak x
  have hsecond : earlier? before? x (z :: rs ++ ss).toArray ((z :: rs ++ ss).toArray.size - 1) =
      some (z :: rs).length :=
    earlier?_eq hd (hx.kind x (by simp)) hy.append_left.kind (by simp)
      (List.forall_mem_cons.2 ⟨hzx, hrs⟩) hss
  have hxlast : ∀ p ∈ ps, before x p = false := fun p hp =>
    hx.append_left.not_before p hp x (List.mem_singleton_self x)
  have hmerged : merged before (ps ++ [x]) (z :: rs ++ ss) =
      merged before ps (z :: rs) ++ ([x] ++ ss) :=
    merged_concat_append hd.weak hxlast (List.forall_mem_cons.2 ⟨hzx, hrs⟩) hss
  rw [hsize, if_neg Bool.false_ne_true, ← List.cons_append, hmerged,
    append_toArray_append (merged ..), append_toArray_append [x]]
  simp only [back?_concat, pop_concat, Option.bind_some, hsecond, extract_front, extract_back]
  cases rs with
  | nil =>
    -- the second run had other elements than the first one, and they have all been taken
    have hssne : 0 < ss.length := List.length_pos_of_ne_nil (by simpa using hnil)
    have hfirst : ∀ p ∈ ps, ∀ b ∈ [z], before b p = true := fun p hp =>
      List.forall_mem_singleton.2 (hahead p (List.mem_append_left [x] hp))
    rw [merged_eq_swapped hfirst]
    simp [hssne]
  | cons r rs =>
    have hrsize : ((z :: r :: rs).toArray.size == 1) = false := by simp
    rw [hrsize, Bool.and_false, if_neg Bool.false_ne_true, List.isEmpty_toArray, List.isEmpty_cons,
      if_neg Bool.false_ne_true]
    cases ps with
    | nil =>
      rw [nil_merged]
      rfl
    | cons p ps =>
      have hkept : Ascending before kind (z :: r :: rs ++ ss) := hy.append_left
      have hready : FirstAhead before kind (p :: ps) z (r :: rs) :=
        ⟨hx.append_left.append_left, hkept.append_left, List.cons_ne_nil p ps,
          List.cons_ne_nil r rs, fun c hc => hahead c (List.mem_append_left [x] hc)⟩
      have hnext (pace : Pace) (streak : Nat) := ih pace streak
        (#[x] ++ (ss.toArray ++ (#[y] ++ (qs.toArray ++ done)))) hready (by
          simp only [List.length_cons, List.length_append, List.length_nil] at hfuel ⊢
          omega)
      rw [List.isEmpty_toArray, List.isEmpty_cons, if_neg Bool.false_ne_true]
      split
      · exact hnext ..
      · exact hnext ..

end

theorem mergesDown {before? : α → α → Option Bool} {before : α → α → Bool} {kind : α → Prop}
    (hd : Decides before? before kind) (fuel : Nat) : MergesDown before? before kind fuel := by
  induction fuel with
  | zero => exact fun _ _ _ _ _ _ _ hfuel => absurd hfuel (Nat.not_lt_zero _)
  | succ fuel ih =>
    intro pace streak done xs z ys h hfuel
    cases pace with
    | steps first second => exact ih.steps hd h hfuel first second
    | leaps => exact ih.leaps hd h hfuel

/-! ## Merging two runs -/

theorem ite_bind {β γ : Type} (c : Prop) [Decidable c] (r s : Option β) (f : β → Option γ) :
    (if c then r else s).bind f = if c then r.bind f else s.bind f := apply_ite (Option.bind · f) c r s

/-- Two runs of which the second one begins with an element that comes before all of the first one, and
the first one ends with an element that all of the second one come before. -/
structure Facing (before : α → α → Bool) (kind : α → Prop) (xs : List α) (x y : α) (ys : List α) :
    Prop where
  first : Ascending before kind (xs ++ [x])
  second : Ascending before kind (y :: ys)
  ahead : ∀ a ∈ xs ++ [x], before y a = true
  beyond : ∀ b ∈ y :: ys, before b x = true

section
variable {before? : α → α → Option Bool} {before : α → α → Bool} {kind : α → Prop}
  (hd : Decides before? before kind) {xs : List α} {x y : α} {ys : List α}
  (h : Facing before kind xs x y ys) {fuel : Nat} (hfuel : xs.length + ys.length < fuel)
  (streak : Nat)
include hd h hfuel

/-- With the first element of the second run taken, the rest is merged from the start. -/
theorem Facing.mergeUp?_eq : Option.map (·.1)
    (if ys.toArray.isEmpty then pure (#[y] ++ (xs ++ [x]).toArray, streak)
      else if (xs ++ [x]).toArray.size == 1 then
        pure (#[y] ++ ys.toArray ++ (xs ++ [x]).toArray, streak)
      else mergeUp? before? fuel (.steps 0 0) streak #[y] (xs ++ [x]).toArray ys.toArray) =
      some (merged before (xs ++ [x]) (y :: ys)).toArray := by
  have hhead : ∀ a ∈ xs ++ [x], ∀ b ∈ [y], before b a = true := fun a ha =>
    List.forall_mem_singleton.2 (h.ahead a ha)
  have hmerged : merged before (xs ++ [x]) (y :: ys) = [y] ++ merged before (xs ++ [x]) ys :=
    merged_append hhead ys
  have hbeyond : ∀ b ∈ ys, before b x = true := (List.forall_mem_cons.1 h.beyond).2
  rw [hmerged]
  cases ys with
  | nil => simp
  | cons b ys =>
    rw [List.isEmpty_toArray, List.isEmpty_cons, if_neg Bool.false_ne_true]
    cases xs with
    | nil =>
      have hlast : merged before [x] (b :: ys) = b :: ys ++ [x] :=
        merged_eq_swapped (List.forall_mem_singleton.2 hbeyond)
      rw [List.nil_append, hlast]
      simp
    | cons a xs =>
      have hready : LastBeyond before kind (a :: xs) x (b :: ys) :=
        ⟨h.first, h.second.tail, List.cons_ne_nil a xs, List.cons_ne_nil b ys, hbeyond⟩
      have hsize : ((a :: xs ++ [x]).toArray.size == 1) = false := by simp
      rw [hsize, if_neg Bool.false_ne_true, mergesUp hd _ _ _ _ hready hfuel, List.append_toArray]

/-- With the last element of the first run taken, the rest is merged from the end. -/
theorem Facing.mergeDown?_eq : Option.map (·.1)
    (if xs.toArray.isEmpty then pure ((y :: ys).toArray ++ #[x], streak)
      else if (y :: ys).toArray.size == 1 then pure ((y :: ys).toArray ++ xs.toArray ++ #[x], streak)
      else mergeDown? before? fuel (.steps 0 0) streak #[x] xs.toArray (y :: ys).toArray) =
      some (merged before (xs ++ [x]) (y :: ys)).toArray := by
  have hlast : ∀ b ∈ y :: ys, ∀ a ∈ [x], before b a = true := fun b hb =>
    List.forall_mem_singleton.2 (h.beyond b hb)
  have hahead : ∀ a ∈ xs, before y a = true := fun a ha => h.ahead a (List.mem_append_left [x] ha)
  rw [merged_append_left hlast]
  cases xs with
  | nil => simp
  | cons a xs =>
    rw [List.isEmpty_toArray, List.isEmpty_cons, if_neg Bool.false_ne_true]
    cases ys with
    | nil =>
      have hfirst : merged before (a :: xs) [y] = [y] ++ (a :: xs) :=
        merged_eq_swapped fun c hc => List.forall_mem_singleton.2 (hahead c hc)
      rw [hfirst]
      simp
    | cons b ys =>
      have hready : FirstAhead before kind (a :: xs) y (b :: ys) :=
        ⟨h.first.append_left, h.second, List.cons_ne_nil a xs, List.cons_ne_nil b ys, hahead⟩
      have hsize : ((y :: b :: ys).toArray.size == 1) = false := by simp
      rw [hsize, if_neg Bool.false_ne_true, mergesDown hd _ _ _ _ hready hfuel, List.append_toArray]

end

section
variable {before? : α → α → Option Bool} {before : α → α → Bool} {kind : α → Prop}
  (hd : Decides before? before kind) {xs ys : List α}
include hd

/-- Two runs that are in order and lie between what stays where it is. -/
theorem merge?_eq (hx : Ascending before kind xs) (hy : Ascending before kind ys) (hxs : xs ≠ [])
    (hys : ys ≠ []) (streak : Nat) : (merge? before? streak xs.toArray ys.toArray).map (·.1) =
      some (merged before xs ys).toArray := by
  obtain ⟨y, ys, rfl⟩ := List.exists_cons_of_ne_nil hys
  obtain ⟨ps, qs, rfl, hps, hqs⟩ := hx.exists_notAfter hd.weak y
  have hskip : notAfter? before? y (ps ++ qs).toArray 0 = some ps.length :=
    notAfter?_eq hd (hy.kind y (List.mem_cons_self ..)) hx.kind (List.length_pos_of_ne_nil hxs) hps hqs
  have hkept : ∀ p ∈ ps, ∀ b ∈ y :: ys, before b p = false := fun p hp b hb =>
    hd.weak.trans (hps p hp) (hy.not_before_cons hd.weak b hb)
  rw [merge?, append_merged hkept]
  simp only [List.getElem?_toArray, List.getElem?_cons_zero, Option.bind_eq_bind, Option.bind_some,
    hskip, extract_front, extract_back]
  rcases List.eq_nil_or_concat' qs with rfl | ⟨qs, x, rfl⟩
  · simp
  have hyx : before y x = true := hqs x (by simp)
  obtain ⟨rs, ss, rfl, hrs, hss⟩ := hy.tail.exists_earlier hd.weak x
  have hcounted : earlier? before? x (y :: rs ++ ss).toArray ((y :: rs ++ ss).toArray.size - 1) =
      some (y :: rs).length :=
    earlier?_eq hd (hx.kind x (by simp)) hy.kind (by simp) (List.forall_mem_cons.2 ⟨hyx, hrs⟩) hss
  have hrest : ∀ q ∈ qs ++ [x], ∀ s ∈ ss, before s q = false := fun q hq s hs =>
    hd.weak.trans (hx.append_right.last_not_before hd.weak q hq) (hss s hs)
  have hnonempty : (qs ++ [x]).toArray.isEmpty = false := by simp
  rw [← List.cons_append, merged_append_right hrest, hnonempty, if_neg Bool.false_ne_true]
  simp only [back?_concat, pop_concat, Option.bind_some, hcounted, extract_front, extract_back,
    extract_tail]
  rw [List.isEmpty_toArray, List.isEmpty_cons, if_neg Bool.false_ne_true]
  have hput {r : Option (Array α × Nat)}
      (h : r.map (·.1) = some (merged before (qs ++ [x]) (y :: rs)).toArray) :
      (r.bind fun p => pure (ps.toArray ++ p.1 ++ ss.toArray, p.2)).map (·.1) =
        some (ps ++ (merged before (qs ++ [x]) (y :: rs) ++ ss)).toArray := by
    obtain ⟨⟨m, s⟩, rfl, rfl⟩ := Option.map_eq_some_iff.1 h
    simp
  have hsecond : Ascending before kind (y :: rs ++ ss) := hy
  have hfacing : Facing before kind qs x y rs :=
    ⟨hx.append_right, hsecond.append_left, hqs, List.forall_mem_cons.2 ⟨hyx, hrs⟩⟩
  have hfuel : qs.length + rs.length < 2 * ((ps ++ (qs ++ [x])).toArray.size +
      (y :: (rs ++ ss)).toArray.size) + 2 := by
    simp only [List.size_toArray, List.length_append, List.length_cons]
    omega
  split
  · refine Eq.trans ?_ (hput (hfacing.mergeUp?_eq hd hfuel streak))
    rw [List.getElem?_toArray, List.getElem?_cons_zero, Option.bind_some, ite_bind, ite_bind]
    rfl
  · refine Eq.trans ?_ (hput (hfacing.mergeDown?_eq hd hfuel streak))
    rw [ite_bind, ite_bind]
    rfl

end

end ViewFinder.Sorting
