import ViewFinder.Proofs.Fault
import ViewFinder.Proofs.Value.Atom
import ViewFinder.Query.Compiled

/-!
# The keys of a query

A condition that asks for atoms accepts some values (`Condition.accepted`), and a query asks for one
key for each way to choose one accepted value of every condition (`Query.keysOf`). A document's
fields equal such a key exactly if each field is accepted (`Query.any_keysOf_iff`), and equal one
key at most (`Query.eq_of_mem_keysOf`). The keys are in the lexicographic order of the places that
the chosen values have among the accepted ones (`Query.findIdx_combinations_lt`).
-/

namespace ViewFinder

/-! ## What a condition accepts -/

namespace Condition

/-- Is the value one that a condition on atoms may have: an atom, or a list of some atoms? -/
def isChoice : Value → Bool
  | .list vs => !vs.isEmpty && vs.all Value.isAtom
  | v => v.isAtom

/-- The values that a condition accepts: those listed, or just the one. -/
def accepted : Value → List Value
  | .list vs => vs
  | v => [v]

/-- An exact value accepts only itself. -/
theorem accepted_of_exact {v : Value} (h : isDiscrete v = false) : accepted v = [v] := by
  cases v <;> first | rfl | cases h

/-- Does a condition accept the value of a field? -/
def accepts (condition v : Value) : Bool := (accepted condition).any (v.equal ·)

/-- The place of the value of a field among those that a condition accepts. -/
def place (condition v : Value) : Nat := (accepted condition).findIdx (v.equal ·)

/-- The places that fields have among what conditions accept, condition by condition. -/
def places (conditions vs : List Value) : List Nat := List.zipWith place conditions vs

theorem isAtom_of_mem_accepted {condition v : Value} (h : isChoice condition = true)
    (hv : v ∈ accepted condition) : v.isAtom = true := by
  cases condition with
  | list vs =>
    rw [isChoice, Bool.and_eq_true, List.all_eq_true] at h
    exact h.2 v hv
  | _ =>
    rw [List.mem_singleton.1 hv]
    exact h

theorem accepted_ne_nil {condition : Value} (h : isChoice condition = true) :
    accepted condition ≠ [] := by
  cases condition with
  | list vs =>
    rw [isChoice, Bool.and_eq_true] at h
    simpa [accepted] using h.1
  | _ => exact List.cons_ne_nil _ _

theorem isRange_of_isChoice {condition : Value} (h : isChoice condition = true) :
    isRange condition = false := by
  cases condition <;> first | rfl | cases h

end Condition

namespace Query

open Condition

theorem choices_eq {condition : Value} (h : isChoice condition = true) :
    choices condition = .ok (accepted condition) := by
  cases condition <;> first | rfl | cases h

/-- What a condition accepts can always be listed. -/
theorem choices_eq_ok (v : Value) : choices v = .ok ((choices v).toOption.getD []) := by
  have hlisted : ∃ vs, choices v = .ok vs := by
    rw [choices]
    split
    · next hdiscrete => cases v <;> first | exact ⟨_, rfl⟩ | cases hdiscrete
    · exact ⟨_, rfl⟩
  obtain ⟨vs, hvs⟩ := hlisted
  rw [hvs]
  rfl

/-- The keys of all combinations can always be listed. -/
theorem exists_expandKeys (values : List Value) : ∃ keys, expandKeys values = .ok keys := by
  rw [expandKeys, Fault.mapM_eq_ok fun v (_ : v ∈ values) => choices_eq_ok v]
  exact ⟨_, rfl⟩

/-! ## Combinations -/

section
variable {α β : Type} {p : β → α → Bool}

/-- A combination takes one of each list of options. -/
theorem mem_combinations {options : List (List α)} {choice : List α} :
    choice ∈ combinations options ↔ List.Forall₂ (· ∈ ·) choice options := by
  induction options generalizing choice with
  | nil => simp [combinations]
  | cons some rest ih =>
    simp only [combinations, List.mem_flatMap, List.mem_map, ih]
    constructor
    · rintro ⟨c, hc, cs, hcs, rfl⟩
      exact .cons hc hcs
    · rintro (_ | ⟨hc, hcs⟩)
      exact ⟨_, hc, _, hcs, rfl⟩

/-- Some combination passes if and only if each list has an option that does. -/
theorem exists_combination_iff {vs : List β} {options : List (List α)} :
    (∃ choice ∈ combinations options, List.all₂ p vs choice = true) ↔
      List.Forall₂ (fun v some => ∃ c ∈ some, p v c = true) vs options := by
  simp only [mem_combinations, List.all₂_eq_true]
  induction options generalizing vs with
  | nil => cases vs <;> simp
  | cons some rest ih =>
    cases vs with
    | nil => simp
    | cons v vs =>
      rw [List.forall₂_cons, ← ih]
      constructor
      · rintro ⟨choice, hchoice, hpass⟩
        obtain _ | ⟨hc, hcs⟩ := hchoice
        obtain _ | ⟨hv, hvs⟩ := hpass
        exact ⟨⟨_, hc, hv⟩, _, hcs, hvs⟩
      · rintro ⟨⟨c, hc, hv⟩, cs, hcs, hvs⟩
        exact ⟨c :: cs, .cons hc hcs, .cons hv hvs⟩

/-- The first combination that passes is found by the first option of each list that does, the last
list counting least. -/
theorem findIdx_combinations_cons {v : β} {vs : List β} {some : List α} {rest : List (List α)}
    (hv : ∃ c ∈ some, p v c = true) (hvs : ∃ cs ∈ combinations rest, List.all₂ p vs cs = true) :
    (combinations (some :: rest)).findIdx (List.all₂ p (v :: vs)) =
      some.findIdx (p v) * (combinations rest).length +
        (combinations rest).findIdx (List.all₂ p vs) := by
  have hlt := List.findIdx_lt_length_of_exists hvs
  rw [combinations]
  induction some with
  | nil => simp at hv
  | cons c some ih =>
    rw [List.flatMap_cons, List.findIdx_append, List.findIdx_map, List.length_map,
      List.findIdx_cons]
    cases hc : p v c with
    | true =>
      have htest : List.all₂ p (v :: vs) ∘ (c :: ·) = List.all₂ p vs := by
        funext cs
        simp [List.all₂, hc]
      rw [htest, if_pos hlt]
      simp
    | false =>
      have htest : ∀ cs ∈ combinations rest, (List.all₂ p (v :: vs) ∘ (c :: ·)) cs = false := by
        simp [List.all₂, hc]
      have hv' : ∃ c ∈ some, p v c = true := by simpa [hc] using hv
      rw [List.findIdx_eq_length_of_false htest, if_neg (Nat.lt_irrefl _), ih hv']
      simp only [cond_false, Nat.succ_mul]
      omega

/-- Combinations come in the lexicographic order of the places of the chosen options. -/
theorem findIdx_combinations_lt {options : List (List α)} {vs ws : List β}
    (hvs : ∃ choice ∈ combinations options, List.all₂ p vs choice = true)
    (hws : ∃ choice ∈ combinations options, List.all₂ p ws choice = true)
    (hlt : List.zipWith (fun v some => some.findIdx (p v)) vs options <
      List.zipWith (fun w some => some.findIdx (p w)) ws options) :
    (combinations options).findIdx (List.all₂ p vs) <
      (combinations options).findIdx (List.all₂ p ws) := by
  induction options generalizing vs ws with
  | nil => cases vs <;> cases ws <;> simp at hlt
  | cons some rest ih =>
    obtain _ | ⟨hv, hvs⟩ := exists_combination_iff.1 hvs
    obtain _ | ⟨hw, hws⟩ := exists_combination_iff.1 hws
    rw [← exists_combination_iff] at hvs hws
    rw [findIdx_combinations_cons hv hvs, findIdx_combinations_cons hw hws]
    have hbound := List.findIdx_lt_length_of_exists hvs
    rw [List.zipWith_cons_cons, List.zipWith_cons_cons, List.cons_lt_cons_iff] at hlt
    rcases hlt with hlt | ⟨heq, hlt⟩
    · have hmul := Nat.mul_le_mul_right (combinations rest).length (Nat.succ_le_of_lt hlt)
      rw [Nat.succ_mul] at hmul
      omega
    · rw [heq]
      exact Nat.add_lt_add_left (ih hvs hws hlt) _

end

/-! ## Keys -/

/-- The keys of a query for some conditions, one for each combination of accepted values. -/
def keysOf (conditions : List Value) : List Value :=
  Value.distinct Value.sameItem ((combinations (conditions.map accepted)).map .list)

/-- The first place of a key among all combinations of accepted values. -/
def firstPlace (conditions : List Value) (k : Value) : Nat :=
  ((combinations (conditions.map accepted)).map Value.list).findIdx k.sameItem

section
variable {conditions : List Value} (h : ∀ c ∈ conditions, isChoice c = true)
include h

theorem expandKeys_eq : expandKeys conditions = .ok (keysOf conditions) := by
  rw [expandKeys, Fault.mapM_eq_ok fun c hc => choices_eq (h c hc)]
  rfl

/-- A combination of accepted values is one of atoms. -/
theorem isAtom_of_mem_combinations {choice : List Value}
    (hc : choice ∈ combinations (conditions.map accepted)) : ∀ v ∈ choice, v.isAtom = true := by
  rw [mem_combinations, List.forall₂_map_right_iff] at hc
  induction hc with
  | nil => simp
  | cons hv _ ih =>
    obtain ⟨hc, hcs⟩ := List.forall_mem_cons.1 h
    exact List.forall_mem_cons.2 ⟨isAtom_of_mem_accepted hc hv, ih hcs⟩

/-- Keys are the same item only if they are the same. -/
theorem sameItem_iff_of_mem : ∀ k ∈ (combinations (conditions.map accepted)).map Value.list,
    ∀ l ∈ (combinations (conditions.map accepted)).map Value.list,
      k.sameItem l = true ↔ k = l := by
  intro k hk l hl
  obtain ⟨ks, hks, rfl⟩ := List.mem_map.1 hk
  obtain ⟨ls, hls, rfl⟩ := List.mem_map.1 hl
  rw [Value.sameItem_list_iff (isAtom_of_mem_combinations h hks)
    (isAtom_of_mem_combinations h hls), Value.list.injEq]

theorem mem_keysOf {k : Value} :
    k ∈ keysOf conditions ↔ ∃ ks ∈ combinations (conditions.map accepted), k = .list ks := by
  rw [keysOf, Value.mem_distinct (sameItem_iff_of_mem h), List.mem_map]
  exact exists_congr fun ks => and_congr_right fun _ => eq_comm

/-- Conditions that accept something have a key. -/
theorem keysOf_ne_nil : keysOf conditions ≠ [] := by
  have hsome : ∃ ks, ks ∈ combinations (conditions.map accepted) := by
    simp only [mem_combinations, List.forall₂_map_right_iff]
    induction conditions with
    | nil => exact ⟨[], .nil⟩
    | cons c cs ih =>
      obtain ⟨hc, hcs⟩ := List.forall_mem_cons.1 h
      obtain ⟨ks, hks⟩ := ih hcs
      obtain ⟨k, hk⟩ := List.exists_mem_of_ne_nil _ (accepted_ne_nil hc)
      exact ⟨k :: ks, .cons hk hks⟩
  obtain ⟨ks, hks⟩ := hsome
  exact List.ne_nil_of_mem ((mem_keysOf h).2 ⟨ks, hks, rfl⟩)

variable {vs ws : List Value}

/-- Fields equal a combination of atoms one by one. -/
theorem equal_combination {ks : List Value} (hks : ks ∈ combinations (conditions.map accepted)) :
    (Value.list vs).equal (.list ks) = List.all₂ Value.equal vs ks := by
  have hjson : ∀ k ∈ ks, k.isJson = true := fun k hk =>
    Value.isJson_of_isAtom (isAtom_of_mem_combinations h hks k hk)
  rw [Bool.eq_iff_iff, Value.equal_list_iff hjson, List.all₂_eq_true]

/-- Fields equal a key if and only if each one is accepted. -/
theorem any_keysOf_iff : (keysOf conditions).any (fun k => (Value.list vs).equal k) = true ↔
    List.Forall₂ (fun v c => accepts c v = true) vs conditions := by
  have hiff : (∃ k ∈ keysOf conditions, (Value.list vs).equal k = true) ↔
      ∃ ks ∈ combinations (conditions.map accepted), List.all₂ Value.equal vs ks = true := by
    constructor
    · rintro ⟨k, hk, hvk⟩
      obtain ⟨ks, hks, rfl⟩ := (mem_keysOf h).1 hk
      exact ⟨ks, hks, by rwa [← equal_combination h hks]⟩
    · rintro ⟨ks, hks, hvk⟩
      exact ⟨.list ks, (mem_keysOf h).2 ⟨ks, hks, rfl⟩, by rwa [equal_combination h hks]⟩
  rw [List.any_eq_true, hiff, exists_combination_iff, List.forall₂_map_right_iff]
  simp only [accepts, List.any_eq_true]

/-- Fields equal one key at most. -/
theorem eq_of_mem_keysOf (hvs : ∀ v ∈ vs, v.isJson = true) {k l : Value}
    (hk : k ∈ keysOf conditions) (hl : l ∈ keysOf conditions)
    (hvk : (Value.list vs).equal k = true) (hvl : (Value.list vs).equal l = true) : k = l := by
  obtain ⟨ks, hks, rfl⟩ := (mem_keysOf h).1 hk
  obtain ⟨ls, hls, rfl⟩ := (mem_keysOf h).1 hl
  rw [Value.eq_of_equal_list hvs (isAtom_of_mem_combinations h hks)
    (isAtom_of_mem_combinations h hls) hvk hvl]

/-- The first place of a key among all combinations is that of the fields that equal it. -/
theorem firstPlace_eq (hvs : ∀ v ∈ vs, v.isJson = true) {k : Value}
    (hk : k ∈ keysOf conditions) (hvk : (Value.list vs).equal k = true) :
    firstPlace conditions k =
      (combinations (conditions.map accepted)).findIdx (List.all₂ Value.equal vs) := by
  have hmem : k ∈ (combinations (conditions.map accepted)).map Value.list :=
    Value.mem_of_mem_distinct hk
  rw [firstPlace, List.findIdx_map]
  refine Nat.le_antisymm (List.findIdx_le_findIdx fun ls hls heq => ?_)
    (List.findIdx_le_findIdx fun ls hls hsame => ?_)
  · have hl : Value.list ls ∈ keysOf conditions := (mem_keysOf h).2 ⟨ls, hls, rfl⟩
    rw [← equal_combination h hls] at heq
    exact (sameItem_iff_of_mem h k hmem _ (List.mem_map_of_mem hls)).2
      (eq_of_mem_keysOf h hvs hk hl hvk heq)
  · have hkl := (sameItem_iff_of_mem h k hmem _ (List.mem_map_of_mem hls)).1 hsame
    rwa [← equal_combination h hls, ← hkl]

omit h in
theorem places_eq : places conditions vs = List.zipWith (fun v some => some.findIdx (v.equal ·)) vs
    (conditions.map accepted) := by
  rw [List.zipWith_map_right, places, List.zipWith_comm]
  rfl

/-- Fields that equal an earlier key, or the same, do not have greater places. -/
theorem not_places_lt (hvs : ∀ v ∈ vs, v.isJson = true) (hws : ∀ w ∈ ws, w.isJson = true)
    {k l : Value} (hk : k ∈ keysOf conditions) (hl : l ∈ keysOf conditions)
    (hvk : (Value.list vs).equal k = true) (hwl : (Value.list ws).equal l = true)
    (hle : firstPlace conditions k ≤ firstPlace conditions l) :
    ¬ places conditions ws < places conditions vs := by
  intro hlt
  have hcomb {us : List Value} {k : Value} (hk : k ∈ keysOf conditions)
      (huk : (Value.list us).equal k = true) :
      ∃ ks ∈ combinations (conditions.map accepted), List.all₂ Value.equal us ks = true := by
    obtain ⟨ks, hks, rfl⟩ := (mem_keysOf h).1 hk
    exact ⟨ks, hks, by rwa [← equal_combination h hks]⟩
  rw [firstPlace_eq h hvs hk hvk, firstPlace_eq h hws hl hwl] at hle
  rw [places_eq, places_eq] at hlt
  exact Nat.not_lt.2 hle (findIdx_combinations_lt (hcomb hl hwl) (hcomb hk hvk) hlt)

/-- The keys are in the order of their first places among all combinations. -/
theorem pairwise_keysOf :
    (keysOf conditions).Pairwise fun k l => firstPlace conditions k < firstPlace conditions l :=
  Value.pairwise_distinct (sameItem_iff_of_mem h)

theorem nodup_keysOf : (keysOf conditions).Nodup :=
  (pairwise_keysOf h).imp fun hlt heq => by
    rw [heq] at hlt
    exact Nat.lt_irrefl _ hlt

end

end Query

end ViewFinder
