import ViewFinder.Count
import ViewFinder.Proofs.Query.Paging

/-!
# Counts

The rows of a response are counted, or the output of a reduce step is added up. The number is then
seen through the window of the options: offset and limit come off it (`Count.capped_int`). Unless the
window counts from the end, that leaves as many rows as the window leaves of a list
(`Count.seen_length`).
-/

namespace ViewFinder

/-! ## Windows that do not count from the end -/

/-- Options whose limit and offset are null or not negative. -/
structure Options.HasForwardWindow (o : Options) : Prop where
  limit : o.limit = .null ∨ ∃ n : Nat, o.limit = .int n
  offset : o.offset = .null ∨ ∃ n : Nat, o.offset = .int n

theorem Options.HasForwardWindow.hasWindow {o : Options} (h : o.HasForwardWindow) : o.HasWindow :=
  ⟨h.limit.imp_right fun ⟨n, hn⟩ => ⟨n, hn⟩, h.offset.imp_right fun ⟨n, hn⟩ => ⟨n, hn⟩⟩

namespace Window

theorem position_natCast (length k : Nat) : position length k = min k length := by
  rw [position, if_neg (by omega), Int.toNat_natCast]

/-- A window that does not count from the end leaves items out and takes others. -/
theorem cut_natCast {α : Type} (l : List α) (skip n : Nat) :
    cut skip (some (n : Int)) l = (l.drop skip).take n := by
  rw [cut, slice, ← Int.natCast_add, position_natCast, position_natCast, ← List.take_eq_take_min,
    List.drop_take]
  rcases Nat.le_total skip l.length with h | h
  · rw [Nat.min_eq_left h, Nat.add_sub_cancel_left]
  · rw [Nat.min_eq_right h, List.drop_length, List.take_nil, List.drop_of_length_le h, List.take_nil]

theorem length_cut_none {α : Type} (l : List α) (skip : Nat) :
    (cut skip none l).length = l.length - skip := by
  rw [cut, position_natCast, List.length_drop]
  omega

theorem length_cut_some {α : Type} (l : List α) (skip n : Nat) :
    (cut skip (some (n : Int)) l).length = min n (l.length - skip) := by
  rw [cut, slice, ← Int.natCast_add, position_natCast, position_natCast, List.length_drop,
    List.length_take]
  omega

end Window

namespace Count

/-! ## The number in a response -/

/-- The rows of a response that holds a list of them. -/
theorem rowsOf_eq {response : Value} {rows : List Value}
    (h : response.member "rows" = .ok (.list rows)) : rowsOf response = .ok (.list rows) := by
  rw [rowsOf, h]
  cases rows <;> rfl

theorem rowsOf_response (total : Nat) (skip : Int) (rows : List Value) :
    rowsOf (Window.response total skip rows) = .ok (.list rows) :=
  rowsOf_eq (by simp [Window.response, Value.member, Value.entries, Entries.getD, Except.map])

/-- Counting the rows of a window. -/
theorem rows_response (total : Nat) (skip : Int) (rows : List Value) :
    Count.rows (Window.response total skip rows) = .ok rows.length := by
  rw [Count.rows, rowsOf_response]
  rfl

/-- Adding them up. -/
theorem reduced_response (total : Nat) (skip : Int) (rows : List Value) :
    reduced (Window.response total skip rows) = sumRows rows := by
  rw [reduced, rowsOf_response]
  rfl

/-- Adding up the rows of a reduce step. -/
theorem reduced_rows (rows : List Value) :
    reduced (.dict [(.str "rows", .list rows)]) = sumRows rows := by
  have hmember : (Value.dict [(.str "rows", .list rows)]).member "rows" = .ok (.list rows) := by
    simp [Value.member, Value.entries, Entries.getD, Except.map]
  rw [reduced, rowsOf_eq hmember]
  rfl

/-! ## Numbers seen through a window -/

theorem atLeast_int (m n : Int) : atLeast (.int m) n = .int (max m n) := by
  simp only [atLeast, Value.quantity?, Quantity.less_ofInt, decide_eq_true_eq]
  split
  · next h => rw [Int.max_eq_right (Int.le_of_lt h)]
  · next h => rw [Int.max_eq_left (Int.not_lt.1 h)]

theorem atMost_int (m n : Int) : atMost (.int m) n = .int (min n m) := by
  simp only [atMost, Value.quantity?, Quantity.less_ofInt, decide_eq_true_eq]
  split
  · next h => rw [Int.min_eq_left (Int.le_of_lt h)]
  · next h => rw [Int.min_eq_right (Int.not_lt.1 h)]

/-- An offset that is null takes nothing off. -/
theorem toInteger_offset {o : Options} (h : o.HasWindow) :
    (o.offset.orElse (.int 0)).toInteger = .ok o.skip := by
  rcases h.offset with hnull | ⟨skip, hint⟩
  · rw [Options.skip, hnull]
    rfl
  · rw [Options.skip, hint, Value.orElse]
    split
    · rfl
    · next hfalse =>
      have hzero : skip = 0 := by simpa [Value.truthy] using hfalse
      rw [hzero]
      rfl

/-- How many of a number of rows are seen through a window, by its offset and its limit. -/
def seen (o : Options) (n : Int) : Int :=
  if o.limit.isNull && o.offset.isNull then n
  else o.limit?.elim (max (n - o.skip) 0) (min · (max (n - o.skip) 0))

/-- A number of rows can be seen through every window. -/
theorem capped_int {o : Options} (h : o.HasWindow) (n : Int) :
    capped (.int n) o.limit o.offset = .ok (.int (seen o n)) := by
  rw [capped, seen]
  split
  · rfl
  · simp only [toInteger_offset h, minus, atLeast_int, bind, Except.bind]
    rcases h.limit with hnull | ⟨limit, hint⟩
    · rw [Options.limit?, hnull]
      rfl
    · rw [Options.limit?, hint]
      exact congrArg Except.ok (atMost_int _ _)

/-- The number of rows seen through a window is the number of rows in the window. -/
theorem seen_length {α : Type} {o : Options} (h : o.HasForwardWindow) (l : List α) :
    seen o l.length = (Window.cut o.skip o.limit? l).length := by
  obtain ⟨skip, hskip, hzero⟩ :
      ∃ skip : Nat, o.skip = skip ∧ (o.offset.isNull = true → skip = 0) := by
    rcases h.offset with hnull | ⟨n, hint⟩
    · exact ⟨0, by rw [Options.skip, hnull]; rfl, fun _ => rfl⟩
    · refine ⟨n, by rw [Options.skip, hint], fun hnull => ?_⟩
      rw [hint] at hnull
      cases hnull
  have hrest : max ((l.length : Int) - skip) 0 = (l.length - skip : Nat) := by omega
  rw [seen, hskip, hrest]
  rcases h.limit with hnull | ⟨n, hint⟩
  · rw [Options.limit?, hnull, Window.length_cut_none, Option.elim_none]
    split
    · -- nothing is said of a window: all rows are counted, and all are seen
      next hboth =>
      rw [Bool.and_eq_true] at hboth
      rw [hzero hboth.2, Nat.sub_zero]
    · rfl
  · rw [Options.limit?, hint, Window.length_cut_some, Option.elim_some,
      show (Value.int n).isNull = false from rfl, Bool.false_and, if_neg Bool.false_ne_true]
    omega

end Count

end ViewFinder
