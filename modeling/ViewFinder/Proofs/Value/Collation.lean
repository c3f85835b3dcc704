import ViewFinder.Condition
import ViewFinder.Proofs.Text.Identifier
import ViewFinder.Proofs.Value.Atom

/-!
# Places in an index

Exchanging two places turns their order round (`Collation.compare?_swap`), so places at most as great
as each other are the same (`Collation.compare?_eq_of_atMost`). Lists of places are ordered by the
first items that differ: `Collation.between_tail` takes the first items off a list between two others.
Values at the same place are equal, lists apart (`Value.coincides_of_compare?`).
-/

namespace ViewFinder

namespace Quantity

theorem isSameNaN_comm (q r : Quantity) : q.isSameNaN r = r.isSameNaN q := by
  cases q <;> cases r <;> first | rfl | exact Bool.beq_comm

theorem compareDyadic_swap (m e m' e' : Int) :
    compareDyadic m' e' m e = (compareDyadic m e m' e').swap := by
  rw [compareDyadic, compareDyadic, Int.min_comm e' e]
  exact Std.OrientedCmp.eq_swap

theorem compare?_swap (q r : Quantity) : r.compare? q = (q.compare? r).map Ordering.swap := by
  cases q <;> cases r
  case infinity.infinity a b => cases a <;> cases b <;> rfl
  case infinity.dyadic a m e => cases a <;> rfl
  case dyadic.infinity m e b => cases b <;> rfl
  case dyadic.dyadic m e m' e' => exact congrArg some (compareDyadic_swap m e m' e')
  all_goals rfl

theorem compare_mul_right (a b : Int) {c : Int} (hc : 0 < c) :
    compare (a * c) (b * c) = compare a b := by
  rcases Int.lt_trichotomy a b with h | h | h
  · rw [Int.compare_eq_lt.2 h, Int.compare_eq_lt.2 (Int.mul_lt_mul_of_pos_right h hc)]
  · rw [h, Int.compare_eq_eq.2 rfl, Int.compare_eq_eq.2 rfl]
  · rw [Int.compare_eq_gt.2 h, Int.compare_eq_gt.2 (Int.mul_lt_mul_of_pos_right h hc)]

/-- The order of dyadic numbers over any common power of two. -/
theorem compareDyadic_eq {m e m' e' k : Int} (h : k ≤ e) (h' : k ≤ e') :
    compareDyadic m e m' e' =
      compare (m * power 2 (e - k).toNat) (m' * power 2 (e' - k).toNat) := by
  have hscale {n f : Int} (hf : min e e' ≤ f) : n * power 2 (f - k).toNat =
      n * power 2 (f - min e e').toNat * power 2 (min e e' - k).toNat := by
    have hsum : (f - k).toNat = (f - min e e').toNat + (min e e' - k).toNat := by omega
    have hpower := Nat.pow_add 2 (f - min e e').toNat (min e e' - k).toNat
    rw [Int.mul_assoc, hsum, ← Int.natCast_mul]
    exact congrArg (fun x : Nat => n * (x : Int)) hpower
  rw [hscale (Int.min_le_left ..), hscale (Int.min_le_right ..),
    compare_mul_right _ _ (show 0 < ((power 2 _ : Nat) : Int) from
      Int.natCast_pos.2 (Nat.two_pow_pos _))]
  rfl

/-- Equal values are ordered alike against every other one. -/
theorem compare?_congr {q r : Quantity} (h : q.compare? r = some .eq) (t : Quantity) :
    q.compare? t = r.compare? t := by
  cases q <;> cases r <;> try cases h
  case infinity.infinity a b =>
    have hab : a = b := by cases a <;> cases b <;> first | rfl | cases h
    rw [hab]
  case infinity.dyadic a m e => cases a <;> cases h
  case dyadic.infinity m e b => cases b <;> cases h
  case dyadic.dyadic m e m' e' =>
    cases t with
    | dyadic m'' e'' =>
      have heq := Option.some.inj h
      rw [compareDyadic_eq (k := min e (min e' e'')) (by omega) (by omega),
        Int.compare_eq_eq] at heq
      rw [compare?, compare?, compareDyadic_eq (k := min e (min e' e'')) (by omega) (by omega), heq,
        ← compareDyadic_eq (by omega) (by omega)]
    | nan | infinity => rfl

/-- The order of values is transitive. -/
theorem compare?_trans {q r t : Quantity} (h : q.compare? r = some .lt)
    (h' : r.compare? t = some .lt) : q.compare? t = some .lt := by
  cases r with
  | nan p => cases q <;> cases h
  | infinity b =>
    cases b with
    | true => cases q <;> first | cases h | (rename_i a; cases a <;> cases h)
    | false => cases t <;> first | cases h' | (rename_i a; cases a <;> cases h')
  | dyadic m' e' =>
    cases q with
    | nan p => cases h
    | infinity a =>
      cases a with
      | false => cases h
      | true =>
        cases t with
        | nan p => cases h'
        | infinity b => cases b <;> first | rfl | cases h'
        | dyadic m'' e'' => rfl
    | dyadic m e =>
      cases t with
      | nan p => cases h'
      | infinity b => exact h'
      | dyadic m'' e'' =>
        have hlt := Option.some.inj h
        have hlt' := Option.some.inj h'
        rw [compareDyadic_eq (k := min e (min e' e'')) (by omega) (by omega),
          Int.compare_eq_lt] at hlt hlt'
        rw [compare?, compareDyadic_eq (k := min e (min e' e'')) (by omega) (by omega),
          Int.compare_eq_lt.2 (Int.lt_trans hlt hlt')]

end Quantity

namespace Collation

/-! ## The order turned round -/

mutual

/-- Exchanging two places turns their order round. -/
theorem compare?_swap : ∀ a b : Collation, b.compare? a = (a.compare? b).map Ordering.swap
  | .null, b => by cases b <;> rfl
  | .truth a, b => by
    cases b with
    | truth b => cases a <;> cases b <;> rfl
    | _ => rfl
  | .number q, b => by
    cases b with
    | number r =>
      rw [compare?, compare?, Quantity.isSameNaN_comm, Quantity.compare?_swap q r]
      split <;> rfl
    | _ => rfl
  | .text s, b => by
    cases b with
    | text t => exact congrArg some (Text.order_swap t s)
    | _ => rfl
  | .list xs, b => by
    cases b with
    | list ys =>
      rw [compare?, compare?]
      exact compareItems?_swap xs ys
    | _ => rfl
  | .other s, b => by
    cases b with
    | other t => exact congrArg some (Text.order_swap t s)
    | _ => rfl

/-- `compare?_swap` over lists. -/
theorem compareItems?_swap : ∀ xs ys : List Collation,
    compareItems? ys xs = (compareItems? xs ys).map Ordering.swap
  | [], [] | [], _ :: _ | _ :: _, [] => rfl
  | x :: xs, y :: ys => by
    rw [compareItems?, compareItems?, compare?_swap x y, compareItems?_swap xs ys]
    cases x.compare? y with
    | none => rfl
    | some o => cases o <;> rfl

end

/-! ## At most as great -/

section
variable {a b x y v : Collation} {xs ys vs : List Collation}

theorem atMost_iff : a.atMost b = true ↔ a.compare? b = some .lt ∨ a.compare? b = some .eq := by
  rw [atMost]
  rcases a.compare? b with - | (- | - | -) <;> simp

/-- Places at most as great as each other are the same. -/
theorem compare?_eq_of_atMost (hab : a.atMost b = true) (hba : b.atMost a = true) :
    a.compare? b = some .eq := by
  rw [atMost_iff] at hab
  rw [atMost_iff, compare?_swap a b] at hba
  rcases hab with h | h
  · simp [h] at hba
  · exact h

/-- The first items decide on the order of lists, unless they are at the same place. -/
theorem compare?_cons : (list (x :: xs)).compare? (list (y :: ys)) =
    match x.compare? y with
    | some .eq => (list xs).compare? (list ys)
    | decided => decided := rfl

theorem compare?_cons_eq_iff : (list (x :: xs)).compare? (list (y :: ys)) = some .eq ↔
    x.compare? y = some .eq ∧ (list xs).compare? (list ys) = some .eq := by
  rw [compare?_cons]
  rcases x.compare? y with - | (- | - | -) <;> simp

theorem compare?_cons_lt_iff : (list (x :: xs)).compare? (list (y :: ys)) = some .lt ↔
    x.compare? y = some .lt ∨
      x.compare? y = some .eq ∧ (list xs).compare? (list ys) = some .lt := by
  rw [compare?_cons]
  rcases x.compare? y with - | (- | - | -) <;> simp

theorem atMost_cons : (list (x :: xs)).atMost (list (y :: ys)) = true ↔
    x.compare? y = some .lt ∨ x.compare? y = some .eq ∧ (list xs).atMost (list ys) = true := by
  rw [atMost_iff, atMost_iff, compare?_cons_lt_iff, compare?_cons_eq_iff, or_assoc, ← and_or_left]

end

/-! ## The order is transitive -/

/-- The rank of a place, if it is not that of another one, decides on their order. -/
theorem compare?_of_rank_ne {a b : Collation} (h : a.rank ≠ b.rank) :
    a.compare? b = some (compare a.rank b.rank) := by
  cases a <;> cases b <;> first | rfl | exact absurd rfl h

/-- How a place is ordered against a third one, if it is at the place of a second one or before it. -/
def Chains (a b c : Collation) : Prop :=
  (a.compare? b = some .eq → a.compare? c = b.compare? c) ∧
    (a.compare? b = some .lt → b.atMost c = true → a.compare? c = some .lt)

/-- The same place has the same rank. -/
theorem rank_eq_of_compare? {a b : Collation} (h : a.compare? b = some .eq) : a.rank = b.rank := by
  by_contra hne
  rw [compare?_of_rank_ne hne, Option.some.injEq, Nat.compare_eq_eq] at h
  exact hne h

theorem rank_le_of_atMost {a b : Collation} (h : a.atMost b = true) : a.rank ≤ b.rank := by
  by_contra hlt
  have hne : a.rank ≠ b.rank := by omega
  rw [atMost_iff, compare?_of_rank_ne hne, Nat.compare_eq_gt.2 (by omega)] at h
  simp at h

theorem chains_of_rank_ne {a b c : Collation} (h : a.rank ≠ b.rank ∨ b.rank ≠ c.rank) :
    Chains a b c := by
  refine ⟨fun heq => ?_, fun hlt hle => ?_⟩
  · have hab := rank_eq_of_compare? heq
    have hbc : b.rank ≠ c.rank := h.resolve_left fun hne => hne hab
    rw [compare?_of_rank_ne (hab ▸ hbc), compare?_of_rank_ne hbc, hab]
  · have hab := rank_le_of_atMost (atMost_iff.2 (.inl hlt))
    have hbc := rank_le_of_atMost hle
    have hac : a.rank < c.rank := by omega
    rw [compare?_of_rank_ne (Nat.ne_of_lt hac), Nat.compare_eq_lt.2 hac]

theorem chains_of_transCmp {α : Type} {cmp : α → α → Ordering} [Std.TransCmp cmp]
    {a b c : Collation} {x y z : α} (hab : a.compare? b = some (cmp x y))
    (hbc : b.compare? c = some (cmp y z)) (hac : a.compare? c = some (cmp x z)) : Chains a b c := by
  rw [Chains, atMost_iff, hab, hbc, hac]
  simp only [Option.some.injEq]
  refine ⟨Std.TransCmp.congr_left, fun hlt hle => ?_⟩
  exact Std.TransCmp.lt_of_lt_of_isLE hlt (Ordering.isLE_iff_eq_lt_or_eq_eq.2 hle)

theorem chains_number (q r t : Quantity) : Chains (.number q) (.number r) (.number t) := by
  have hproper {q r : Quantity} {o : Ordering} (h : q.compare? r = some o) (t : Quantity) :
      (number q).compare? (.number t) = q.compare? t := by
    cases q with
    | nan p => cases h
    | infinity | dyadic => rfl
  cases hnan : q.isSameNaN r with
  | true =>
    have hqr : q = r := by
      cases q <;> cases r <;> simp [Quantity.isSameNaN] at hnan
      rw [hnan]
    refine ⟨fun _ => by rw [hqr], fun hlt => ?_⟩
    rw [compare?, hnan, if_pos rfl] at hlt
    cases hlt
  | false =>
    have hdecided : (number q).compare? (.number r) = q.compare? r := by
      rw [compare?, hnan, if_neg Bool.false_ne_true]
    refine ⟨fun heq => ?_, fun hlt hle => ?_⟩
    · rw [hdecided] at heq
      rw [hproper heq, Quantity.compare?_congr heq]
      have hswap : r.compare? q = some .eq := by rw [Quantity.compare?_swap, heq]; rfl
      rw [hproper hswap]
    · rw [hdecided] at hlt
      have hswap : r.compare? q = some .gt := by rw [Quantity.compare?_swap, hlt]; rfl
      rw [hproper hlt]
      rw [atMost_iff, hproper hswap] at hle
      rcases hle with hle | hle
      · exact Quantity.compare?_trans hlt hle
      · rw [Quantity.compare?_swap t q, ← Quantity.compare?_congr hle q, hswap]
        rfl

mutual

/-- The order of places is transitive. -/
theorem chains : ∀ a b c : Collation, Chains a b c
  | .null, b, c => by
    cases b with
    | null => exact ⟨fun _ => rfl, nofun⟩
    | _ => exact chains_of_rank_ne (.inl nofun)
  | .truth x, b, c => by
    cases b with
    | truth y =>
      cases c with
      | truth z => exact chains_of_transCmp (x := x) (y := y) (z := z) rfl rfl rfl
      | _ => exact chains_of_rank_ne (.inr nofun)
    | _ => exact chains_of_rank_ne (.inl nofun)
  | .number q, b, c => by
    cases b with
    | number r =>
      cases c with
      | number t => exact chains_number q r t
      | _ => exact chains_of_rank_ne (.inr nofun)
    | _ => exact chains_of_rank_ne (.inl nofun)
  | .text s, b, c => by
    cases b with
    | text t =>
      cases c with
      | text u => exact chains_of_transCmp (x := s) (y := t) (z := u) rfl rfl rfl
      | _ => exact chains_of_rank_ne (.inr nofun)
    | _ => exact chains_of_rank_ne (.inl nofun)
  | .list xs, b, c => by
    cases b with
    | list ys =>
      cases c with
      | list zs => exact chains_list xs ys zs
      | _ => exact chains_of_rank_ne (.inr nofun)
    | _ => exact chains_of_rank_ne (.inl nofun)
  | .other s, b, c => by
    cases b with
    | other t =>
      cases c with
      | other u => exact chains_of_transCmp (x := s) (y := t) (z := u) rfl rfl rfl
      | _ => exact chains_of_rank_ne (.inr nofun)
    | _ => exact chains_of_rank_ne (.inl nofun)

/-- `chains` for lists. -/
theorem chains_list : ∀ xs ys zs : List Collation, Chains (.list xs) (.list ys) (.list zs)
  | [], [], zs => ⟨fun _ => rfl, nofun⟩
  | [], y :: ys, zs => by
    refine ⟨nofun, fun _ hle => ?_⟩
    cases zs with
    | nil => cases hle
    | cons z zs => rfl
  | x :: xs, [], zs => ⟨nofun, nofun⟩
  | x :: xs, y :: ys, [] => ⟨fun _ => rfl, fun _ => nofun⟩
  | x :: xs, y :: ys, z :: zs => by
    obtain ⟨hcongr, htrans⟩ := chains x y z
    obtain ⟨hcongrs, htranss⟩ := chains_list xs ys zs
    refine ⟨fun heq => ?_, fun hlt hle => ?_⟩
    · obtain ⟨hxy, hys⟩ := compare?_cons_eq_iff.1 heq
      rw [compare?_cons, compare?_cons, hcongr hxy, hcongrs hys]
    · rw [atMost_cons] at hle
      rw [compare?_cons]
      rcases compare?_cons_lt_iff.1 hlt with hxy | ⟨hxy, hys⟩
      · rw [htrans hxy (atMost_iff.2 (hle.imp_right And.left))]
      · rcases hle with hyz | ⟨hyz, hzs⟩
        · rw [hcongr hxy, hyz]
        · rw [hcongr hxy, hyz]
          exact htranss hys hzs

end

mutual

/-- Every place is at itself. -/
theorem compare?_self : ∀ a : Collation, a.compare? a = some .eq
  | .null => rfl
  | .truth x => congrArg some Std.ReflCmp.compare_self
  | .number q => by
    cases q with
    | nan p => simp [compare?, Quantity.isSameNaN]
    | infinity x => exact congrArg some Std.ReflCmp.compare_self
    | dyadic m e =>
      refine congrArg some ?_
      rw [Quantity.compareDyadic]
      exact Std.ReflCmp.compare_self
  | .text s | .other s => congrArg some Std.ReflCmp.compare_self
  | .list xs => by
    rw [compare?]
    exact compareItems?_self xs

/-- `compare?_self` for lists. -/
theorem compareItems?_self : ∀ xs : List Collation, compareItems? xs xs = some .eq
  | [] => rfl
  | x :: xs => by
    rw [compareItems?, compare?_self x]
    exact compareItems?_self xs

end

mutual

/-- Two places neither of which holds a NaN are ordered. -/
theorem isSome_compare? : ∀ a b : Collation, a.isOrdered = true → b.isOrdered = true →
    (a.compare? b).isSome = true
  | .null, b, _, _ => by cases b <;> rfl
  | .truth _, b, _, _ => by cases b <;> rfl
  | .number q, b, ha, hb => by
    cases b with
    | number r =>
      rw [compare?]
      split
      · rfl
      · cases q with
        | nan => cases ha
        | infinity | dyadic =>
          cases r with
          | nan => cases hb
          | infinity | dyadic => rfl
    | _ => rfl
  | .text _, b, _, _ => by cases b <;> rfl
  | .list xs, b, ha, hb => by
    cases b with
    | list ys =>
      rw [isOrdered] at ha hb
      rw [compare?]
      exact isSome_compareItems? xs ys ha hb
    | _ => rfl
  | .other _, b, _, _ => by cases b <;> rfl

/-- `isSome_compare?` for lists. -/
theorem isSome_compareItems? : ∀ xs ys : List Collation, allOrdered xs = true →
    allOrdered ys = true → (compareItems? xs ys).isSome = true
  | [], [], _, _ | [], _ :: _, _, _ | _ :: _, [], _, _ => rfl
  | x :: xs, y :: ys, hxs, hys => by
    rw [allOrdered, Bool.and_eq_true] at hxs hys
    obtain ⟨o, ho⟩ := Option.isSome_iff_exists.1 (isSome_compare? x y hxs.1 hys.1)
    rw [compareItems?, ho]
    cases o with
    | eq => exact isSome_compareItems? xs ys hxs.2 hys.2
    | lt | gt => rfl

end

/-! ## Between two places -/

section
variable {a b c x y v : Collation} {xs ys vs : List Collation}

/-- Of two places neither of which holds a NaN the one that is not before the other is at least as
great. -/
theorem atMost_of_compare?_ne_lt (ha : a.isOrdered = true) (hb : b.isOrdered = true)
    (h : a.compare? b ≠ some .lt) : b.atMost a = true := by
  obtain ⟨o, ho⟩ := Option.isSome_iff_exists.1 (isSome_compare? a b ha hb)
  rw [atMost_iff, compare?_swap a b, ho]
  cases o with
  | lt => exact absurd ho h
  | eq => exact .inr rfl
  | gt => exact .inl rfl

theorem atMost_self (a : Collation) : a.atMost a = true := atMost_iff.2 (.inr (compare?_self a))

theorem atMost_trans (hab : a.atMost b = true) (hbc : b.atMost c = true) : a.atMost c = true := by
  obtain ⟨hcongr, htrans⟩ := chains a b c
  rcases atMost_iff.1 hab with hlt | heq
  · exact atMost_iff.2 (.inl (htrans hlt hbc))
  · rw [atMost_iff, hcongr heq, ← atMost_iff]
    exact hbc

/-- Is a place between two others, ends included? -/
def between (low high place : Collation) : Bool := low.atMost place && place.atMost high

theorem between_iff : between x y v = true ↔ x.atMost v = true ∧ v.atMost y = true := by
  rw [between, Bool.and_eq_true]

/-- A list is between two others if its items are, the first one and the other ones. -/
theorem between_cons (h : between x y v = true)
    (hs : between (list xs) (list ys) (list vs) = true) :
    between (list (x :: xs)) (list (y :: ys)) (list (v :: vs)) = true := by
  rw [between_iff, atMost_iff, atMost_iff] at h
  rw [between_iff] at hs
  rw [between_iff, atMost_cons, atMost_cons]
  exact ⟨h.1.imp_right fun heq => ⟨heq, hs.1⟩, h.2.imp_right fun heq => ⟨heq, hs.2⟩⟩

/-- The first item of a list between two others is between their first items. -/
theorem between_of_between_cons
    (h : between (list (x :: xs)) (list (y :: ys)) (list (v :: vs)) = true) :
    between x y v = true := by
  rw [between_iff, atMost_cons, atMost_cons] at h
  rw [between_iff, atMost_iff, atMost_iff]
  exact ⟨h.1.imp_right And.left, h.2.imp_right And.left⟩

/-- If the first items of two lists are at the same place, the other items of a list between them are
between the other items. -/
theorem between_tail (hxy : x.compare? y = some .eq)
    (h : between (list (x :: xs)) (list (y :: ys)) (list (v :: vs)) = true) :
    between (list xs) (list ys) (list vs) = true := by
  obtain ⟨hxv, hvy⟩ := between_iff.1 (between_of_between_cons h)
  have hyx : y.atMost x = true := by rw [atMost_iff, compare?_swap x y, hxy]; exact .inr rfl
  have hxveq := compare?_eq_of_atMost hxv (atMost_trans hvy hyx)
  have hvyeq := compare?_eq_of_atMost hvy (atMost_trans hyx hxv)
  rw [between_iff, atMost_cons, atMost_cons, hxveq, hvyeq] at h
  simpa [between_iff] using h

end

/-! ## The places of values -/

/-- The place of a value, that of null if it has none. -/
def placeOf (v : Value) : Collation := (ofValue v).toOption.getD .null

/-- A JSON value has a place. -/
theorem ofValue_eq {v : Value} (h : v.isJson = true) : ofValue v = .ok (placeOf v) := by
  obtain ⟨c, hc, -⟩ := exists_ofValue v h
  rw [placeOf, hc]
  rfl

theorem ofValues_eq {vs : List Value} (h : ∀ v ∈ vs, v.isJson = true) :
    ofValues vs = .ok (vs.map placeOf) := by
  induction vs with
  | nil => rfl
  | cons v vs ih =>
    obtain ⟨hv, hvs⟩ := List.forall_mem_cons.1 h
    rw [ofValues, ofValue_eq hv, ih hvs]
    rfl

/-- The place of a list is that of the places of its items. -/
theorem placeOf_list {vs : List Value} (h : ∀ v ∈ vs, v.isJson = true) :
    placeOf (.list vs) = .list (vs.map placeOf) := by
  rw [placeOf, ofValue, ofValues_eq h]
  rfl

theorem exists_placeOf_dict {es : Entries} (h : (Value.dict es).isJson = true) :
    ∃ text, placeOf (.dict es) = .other text := by
  obtain ⟨text, htext⟩ := Json.exists_printSorted h
  refine ⟨text, ?_⟩
  rw [placeOf, ofValue, htext]
  · rfl
  all_goals nofun

/-- The rank of the place of a JSON value. -/
def rankOf : Value → Nat
  | .null => 0
  | .bool _ => 1
  | .int _ | .float _ => 2
  | .str _ => 3
  | .list _ => 4
  | _ => 5

theorem rank_placeOf {v : Value} (h : v.isJson = true) : (placeOf v).rank = rankOf v := by
  cases v with
  | list vs =>
    rw [placeOf_list (Value.allJson_iff.1 h)]
    rfl
  | dict es =>
    obtain ⟨text, htext⟩ := exists_placeOf_dict h
    rw [htext]
    rfl
  | null | bool | int | float | str => rfl
  | _ => cases h

end Collation

/-! ## Values at the same place -/

namespace Value

/-- Are two values equal? Texts are if they have the same code points, and objects also if they have
the same JSON text. -/
def coincides : Value → Value → Bool
  | .str s, .str t => Text.order s t == .eq
  | .dict es, .dict fs => (Value.dict es).equal (.dict fs) ||
    (Collation.placeOf (.dict es)).compare? (Collation.placeOf (.dict fs)) == some .eq
  | v, w => v.equal w

/-- Equal values coincide. -/
theorem coincides_of_equal {v w : Value} (h : v.equal w = true) : v.coincides w = true := by
  unfold coincides
  split
  · next s t =>
    rw [equal, agree, beq_iff_eq] at h
    rw [h, beq_iff_eq]
    exact Std.ReflCmp.compare_self
  · rw [h, Bool.true_or]
  · exact h

/-- Numbers at the same place are equal. -/
theorem numberAgrees_of_compare? {v w : Value} {q r : Quantity} (hv : v.quantity? = some q)
    (hw : w.quantity? = some r) (hr : q.isSameNaN r = false)
    (h : (Collation.number q).compare? (.number r) = some .eq) :
    agree.numberAgrees true v w = true := by
  rw [Collation.compare?, hr] at h
  unfold agree.numberAgrees
  rw [hv]
  cases w <;> cases hw <;> simpa [Quantity.equal, quantity?] using h

/-- A JSON value that is no list coincides with the values at its place. -/
theorem coincides_of_compare? {v w : Value} (hv : v.isJson = true) (hw : w.isJson = true)
    (hdiscrete : Condition.isDiscrete w = false)
    (h : (Collation.placeOf v).compare? (Collation.placeOf w) = some .eq) :
    v.coincides w = true := by
  have hrank := Collation.rank_eq_of_compare? h
  rw [Collation.rank_placeOf hv, Collation.rank_placeOf hw] at hrank
  cases v with
  | null =>
    cases w with
    | null => simp [coincides, equal, agree, isNull]
    | _ => cases hrank
  | bool a =>
    cases w with
    | bool b =>
      have hab : a = b := by cases a <;> cases b <;> first | rfl | cases h
      rw [hab]
      cases b <;> simp [coincides, equal, agree, agree.numberAgrees, quantity?]
    | _ => cases hrank
  | int m =>
    cases w with
    | int n | float y =>
      simp only [coincides, equal, agree]
      exact numberAgrees_of_compare? rfl rfl rfl h
    | _ => cases hrank
  | float x =>
    cases w with
    | int n | float y =>
      simp only [coincides, equal, agree]
      exact numberAgrees_of_compare? rfl rfl (by cases x <;> first | rfl | cases hv) h
    | _ => cases hrank
  | str s =>
    cases w with
    | str t => exact beq_iff_eq.2 (Option.some.inj h)
    | _ => cases hrank
  | list vs =>
    cases w with
    | list ws => cases hdiscrete
    | _ => cases hrank
  | dict es =>
    cases w with
    | dict fs => simp [coincides, h]
    | null | bool | int | float | str | list => cases hrank
    | _ => cases hw
  | _ => cases hv

end Value

end ViewFinder
