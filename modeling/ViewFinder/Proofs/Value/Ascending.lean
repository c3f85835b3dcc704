import ViewFinder.Proofs.Record

/-!
# The order of JSON values

Values are ordered by kind first: null, truth values, numbers, texts, lists, and objects last. Of one kind
the value decides, and of lists the first items that differ (`Value.Precedes`, `Value.Ties`). Of two JSON
values one comes before the other, or they tie (`Value.precedes_or_ties`), and their places among records
are ordered likewise (`Value.Precedes.place_lt`, `Value.Ties.place_eq`).
-/

namespace ViewFinder

namespace Value

/-- The exact value of a number; a truth value is none. -/
def number? : Value → Option Quantity
  | .int n => some (.ofInt n)
  | .float x => some (.ofBinary64 x)
  | _ => none

/-- Values that are at the same place: of one kind, and of the same value. -/
inductive Ties : Value → Value → Prop
  | null : Ties .null .null
  | truth (b : Bool) : Ties (.bool b) (.bool b)
  | number {v w : Value} {q r : Quantity} (hv : v.number? = some q) (hw : w.number? = some r)
    (h : q.compare? r = some .eq) : Ties v w
  | text {s t : String} (h : Text.order s t = .eq) : Ties (.str s) (.str t)
  | nil : Ties (.list []) (.list [])
  | cons {v w : Value} {vs ws : List Value} (h : Ties v w) (hrest : Ties (.list vs) (.list ws)) :
    Ties (.list (v :: vs)) (.list (w :: ws))
  | object {es fs : Entries}
    (h : Text.order (Value.dict es).literal (Value.dict fs).literal = .eq) : Ties (.dict es) (.dict fs)

/-- The first value comes before the second one: its kind does, or it is of the same kind and smaller. A
list is smaller than another one if the first item that differs is, or if it ends there. Objects go by
their literal texts. -/
inductive Precedes : Value → Value → Prop
  | kind {v w : Value} (h : Collation.rankOf v < Collation.rankOf w) : Precedes v w
  | truth : Precedes (.bool false) (.bool true)
  | number {v w : Value} {q r : Quantity} (hv : v.number? = some q) (hw : w.number? = some r)
    (h : q.compare? r = some .lt) : Precedes v w
  | text {s t : String} (h : Text.before s t = true) : Precedes (.str s) (.str t)
  | nil {w : Value} {ws : List Value} : Precedes (.list []) (.list (w :: ws))
  | head {v w : Value} {vs ws : List Value} (h : Precedes v w) :
    Precedes (.list (v :: vs)) (.list (w :: ws))
  | tail {v w : Value} {vs ws : List Value} (h : Ties v w) (hrest : Precedes (.list vs) (.list ws)) :
    Precedes (.list (v :: vs)) (.list (w :: ws))
  | object {es fs : Entries}
    (h : Text.before (Value.dict es).literal (Value.dict fs).literal = true) :
    Precedes (.dict es) (.dict fs)

/-! ## Places -/

theorem rank_place {v : Value} (h : v.isJson = true) : (Record.place v).rank = Collation.rankOf v := by
  cases v <;> first | rfl | cases h

theorem place_of_number? {v : Value} {q : Quantity} (h : v.number? = some q) :
    Record.place v = .number q := by
  cases v <;> cases h <;> rfl

/-- Numbers that can be compared are not the same NaN. -/
theorem compare?_number {q r : Quantity} {o : Ordering} (h : q.compare? r = some o) :
    (Collation.number q).compare? (.number r) = some o := by
  cases q with
  | nan p => cases h
  | infinity | dyadic => exact h

theorem Ties.symm {v w : Value} (h : v.Ties w) : w.Ties v := by
  induction h with
  | null => exact .null
  | truth b => exact .truth b
  | @number v w q r hv hw h =>
    exact .number hw hv (by rw [Quantity.compare?_swap q r, h]; rfl)
  | @text s t h => exact .text (by rw [Text.order_swap, h]; rfl)
  | nil => exact .nil
  | cons _ _ ih ihrest => exact .cons ih ihrest
  | object h => exact .object (by rw [Text.order_swap, h]; rfl)

/-- Values that tie are at the same place. -/
theorem Ties.place_eq {v w : Value} (h : v.Ties w) :
    (Record.place v).compare? (Record.place w) = some .eq := by
  induction h with
  | null => rfl
  | truth b => exact Collation.compare?_self _
  | number hv hw h => rw [place_of_number? hv, place_of_number? hw, compare?_number h]
  | text h | object h => exact congrArg some h
  | nil => rfl
  | cons _ _ ih ihrest => exact Collation.compare?_cons_eq_iff.2 ⟨ih, ihrest⟩

/-- A value that comes before another one has an earlier place. -/
theorem Precedes.place_lt {v w : Value} (h : v.Precedes w) (hv : v.isJson = true)
    (hw : w.isJson = true) : (Record.place v).compare? (Record.place w) = some .lt := by
  induction h with
  | kind h =>
    rw [← rank_place hv, ← rank_place hw] at h
    rw [Collation.compare?_of_rank_ne (Nat.ne_of_lt h), Nat.compare_eq_lt.2 h]
  | truth => rfl
  | number hq hr h => rw [place_of_number? hq, place_of_number? hr, compare?_number h]
  | text h | object h => exact congrArg some (beq_iff_eq.1 h)
  | nil => rfl
  | head _ ih =>
    simp only [isJson, allJson, Bool.and_eq_true] at hv hw
    exact Collation.compare?_cons_lt_iff.2 (.inl (ih hv.1 hw.1))
  | tail h _ ih =>
    simp only [isJson, allJson, Bool.and_eq_true] at hv hw
    exact Collation.compare?_cons_lt_iff.2 (.inr ⟨h.place_eq, ih hv.2 hw.2⟩)

/-! ## Of two values one comes first, or they tie -/

/-- Texts that decide on the order of what has them do so in one of three ways. -/
theorem order_cases (s t : String) :
    Text.before s t = true ∨ Text.order s t = .eq ∨ Text.before t s = true := by
  rw [Text.before, Text.before, Text.order_swap t s]
  cases Text.order s t <;> simp

/-- So do numbers. -/
theorem number_cases {v w : Value} {q r : Quantity} (hv : v.number? = some q) (hw : w.number? = some r)
    (hjv : v.isJson = true) (hjw : w.isJson = true) : v.Precedes w ∨ v.Ties w ∨ w.Precedes v := by
  obtain ⟨o, ho⟩ := Option.isSome_iff_exists.1 (Collation.isSome_compare? _ _
    (Record.isOrdered_place v hjv) (Record.isOrdered_place w hjw))
  rw [place_of_number? hv, place_of_number? hw, Collation.compare?] at ho
  have hproper : q.isSameNaN r = false := by
    cases v with
    | float x => cases x <;> cases hv <;> first | rfl | cases hjv
    | _ => cases hv <;> rfl
  rw [hproper, if_neg Bool.false_ne_true] at ho
  cases o with
  | lt => exact .inl (.number hv hw ho)
  | eq => exact .inr (.inl (.number hv hw ho))
  | gt => exact .inr (.inr (.number hw hv (by rw [Quantity.compare?_swap q r, ho]; rfl)))

mutual

/-- Of two JSON values one comes before the other, or they tie. -/
theorem precedes_or_ties : ∀ v w : Value, v.isJson = true → w.isJson = true →
    v.Precedes w ∨ v.Ties w ∨ w.Precedes v
  | v, w, hv, hw => by
    rcases Nat.lt_trichotomy (Collation.rankOf v) (Collation.rankOf w) with hlt | heq | hlt
    · exact .inl (.kind hlt)
    · cases v with
      | null => cases w <;> first | exact .inr (.inl .null) | cases heq
      | bool a =>
        cases w with
        | bool b =>
          cases a <;> cases b
          · exact .inr (.inl (.truth _))
          · exact .inl .truth
          · exact .inr (.inr .truth)
          · exact .inr (.inl (.truth _))
        | _ => cases heq
      | int m =>
        cases w with
        | int n | float y => exact number_cases rfl rfl hv hw
        | _ => cases heq
      | float x =>
        cases w with
        | int n | float y => exact number_cases rfl rfl hv hw
        | _ => cases heq
      | str s =>
        cases w with
        | str t => exact (order_cases s t).imp .text (.imp .text .text)
        | _ => cases heq
      | list vs =>
        cases w with
        | list ws =>
          rw [isJson] at hv hw
          exact lists_precede_or_tie vs ws hv hw
        | _ => cases heq
      | dict es =>
        cases w with
        | dict fs => exact (order_cases _ _).imp .object (.imp .object .object)
        | null | bool | int | float | str | list => cases heq
        | _ => cases hw
      | _ => cases hv
    · exact .inr (.inr (.kind hlt))

/-- `precedes_or_ties` for lists. -/
theorem lists_precede_or_tie : ∀ vs ws : List Value, allJson vs = true → allJson ws = true →
    Precedes (.list vs) (.list ws) ∨ Ties (.list vs) (.list ws) ∨ Precedes (.list ws) (.list vs)
  | [], [], _, _ => .inr (.inl .nil)
  | [], _ :: _, _, _ => .inl .nil
  | _ :: _, [], _, _ => .inr (.inr .nil)
  | v :: vs, w :: ws, hvs, hws => by
    simp only [allJson, Bool.and_eq_true] at hvs hws
    rcases precedes_or_ties v w hvs.1 hws.1 with h | h | h
    · exact .inl (.head h)
    · exact (lists_precede_or_tie vs ws hvs.2 hws.2).imp (.tail h) (.imp (.cons h) (.tail h.symm))
    · exact .inr (.inr (.head h))

end

/-- A JSON value whose place is at most as great as that of another one comes before it, or they tie. -/
theorem precedes_or_ties_of_atMost {v w : Value} (hv : v.isJson = true) (hw : w.isJson = true)
    (h : (Record.place v).atMost (Record.place w) = true) : v.Precedes w ∨ v.Ties w := by
  rcases precedes_or_ties v w hv hw with hlt | htie | hgt
  · exact .inl hlt
  · exact .inr htie
  · rw [Collation.atMost_iff, Collation.compare?_swap (Record.place w), hgt.place_lt hw hv] at h
    rcases h with h | h <;> cases h

end Value

end ViewFinder
