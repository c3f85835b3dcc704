import ViewFinder.Proofs.Yaml.Scalars
import ViewFinder.Yaml.Token.Lexer

/-!
# Steps of the lexer

Before each token the lexer moves to where it starts and closes the collections that are indented
further (`Lexer.settle`). Two states that settle in the same state read the same (`Lexer.run_congr`).
`Lexer.Leads` says that the lexer gets from one state to another by reading tokens, each of which has
at least one character, so that a fuel of the length of the text is enough.
-/

namespace ViewFinder.Yaml

/-! ## Places -/

namespace Cursor

variable {p : Cursor}

theorem next_of_solid {c : Char} {rest : List Char} (h : p.rest = c :: rest)
    (hbreak : isBreak c = false) (hmark : c ≠ '\ufeff') :
    p.next = { p with rest, index := p.index + 1, column := p.column + 1 } := by
  simp [next, h, hbreak, hmark]

theorem next_of_feed {rest : List Char} (h : p.rest = '\n' :: rest) :
    p.next = { rest, index := p.index + 1, line := p.line + 1, column := 0 } := by
  rw [next, h]
  rfl

theorem rest_next (p : Cursor) : p.next.rest = p.rest.drop 1 := by
  unfold next
  split
  · next h => rw [h]; rfl
  · next c rest h =>
    rw [h]
    simp only
    split
    · rfl
    · split <;> rfl

theorem length_next {c : Char} {rest : List Char} (h : p.rest = c :: rest) :
    p.next.rest.length < p.rest.length := by
  rw [rest_next, h]
  exact Nat.lt_succ_self _

theorem line_next (p : Cursor) : p.line ≤ p.next.line := by
  unfold next
  split
  · exact Nat.le_refl _
  · simp only
    split
    · exact Nat.le_succ _
    · split <;> exact Nat.le_refl _

theorem rest_skip (n : Nat) (p : Cursor) : (p.skip n).rest = p.rest.drop n := by
  induction n generalizing p with
  | zero => rfl
  | succ n ih => rw [skip, ih, rest_next, List.drop_drop, Nat.add_comm]

theorem line_skip (n : Nat) (p : Cursor) : p.line ≤ (p.skip n).line := by
  induction n generalizing p with
  | zero => exact Nat.le_refl _
  | succ n ih => exact Nat.le_trans (line_next p) (ih _)

theorem skip_add (m n : Nat) (p : Cursor) : p.skip (m + n) = (p.skip m).skip n := by
  induction m generalizing p with
  | zero => rw [Nat.zero_add, skip]
  | succ m ih => rw [Nat.succ_add, skip, ih, skip]

theorem skipTo_eq {s rest : List Char} (h : p.rest = s ++ rest) :
    p.skipTo rest = p.skip s.length := by
  rw [skipTo, h, List.length_append, Nat.add_sub_cancel]

theorem skipTo_append {s t rest : List Char} (h : p.rest = s ++ (t ++ rest)) :
    p.skipTo rest = (p.skipTo (t ++ rest)).skipTo rest := by
  have hrest : (p.skip s.length).rest = t ++ rest := by
    rw [rest_skip, h, List.drop_left]
  rw [skipTo_eq h, skipTo_eq hrest, ← skip_add, ← List.length_append]
  exact skipTo_eq (by rw [h, List.append_assoc])

theorem skipTo_self {rest : List Char} (h : p.rest = rest) : p.skipTo rest = p := by
  rw [skipTo_eq (s := []) h]
  rfl

theorem rest_skipTo {s rest : List Char} (h : p.rest = s ++ rest) : (p.skipTo rest).rest = rest := by
  rw [skipTo_eq h, rest_skip, h, List.drop_left]

/-- On one line the column advances with the characters. -/
theorem skip_line {s rest : List Char} (h : p.rest = s ++ rest)
    (hs : ∀ c ∈ s, isBreak c = false ∧ c ≠ '\ufeff') :
    p.skip s.length =
      { p with rest, index := p.index + s.length, column := p.column + s.length } := by
  induction s generalizing p with
  | nil =>
    obtain ⟨rest', line, column, index⟩ := p
    cases h
    rfl
  | cons c s ih =>
    obtain ⟨⟨hbreak, hmark⟩, hs⟩ := List.forall_mem_cons.1 hs
    rw [List.length_cons, skip, next_of_solid h hbreak hmark, ih rfl hs]
    simp only [Cursor.mk.injEq, true_and]
    omega

/-- After a new line the column is its indentation. -/
theorem skipTo_newLine {s next : List Char} {column : Nat} (h : p.rest = s ++ (newLine column ++ next)) :
    (p.skipTo next).rest = next ∧ (p.skipTo next).column = column ∧ p.line < (p.skipTo next).line := by
  have hfeed : (p.skip s.length).rest = '\n' :: (List.replicate column ' ' ++ next) := by
    rw [rest_skip, h, List.drop_left]
    rfl
  have hblanks : ∀ c ∈ List.replicate column ' ', isBreak c = false ∧ c ≠ '\ufeff' := fun c hc =>
    List.eq_of_mem_replicate hc ▸ ⟨rfl, by decide⟩
  have hnext : p.skipTo next = ((p.skip s.length).next).skip (List.replicate column ' ').length := by
    rw [skipTo_append h, skipTo_eq h,
      skipTo_eq (p := p.skip s.length) (s := newLine column) (by rw [hfeed]; rfl)]
    rfl
  have hline := line_skip s.length p
  rw [hnext, next_of_feed hfeed, skip_line rfl hblanks]
  simp only [List.length_replicate, Nat.zero_add, true_and]
  omega

end Cursor

/-! ## Between two tokens -/

namespace Lexer

/-- The lexer outside of flow collections, with no key that may have started. -/
def block (mayStartKey : Bool) (cursor : Cursor) (tokens : List Token) (indent : Int)
    (outer : List Int) : Lexer :=
  { cursor, tokens, indent, outer, mayStartKey }

/-- Moves to the next token, and closes the block collections that are indented further. -/
def settle (l : Lexer) : Except Fault Lexer :=
  l.toNextToken.dropStaleKeys.map fun l => l.unwind l.cursor.column

theorem run_succ (fuel : Nat) (l : Lexer) :
    run (fuel + 1) l = l.settle >>= fun l =>
      match l.cursor.rest with
      | [] => (l.unwind (-1)).dropKey
      | c :: rest => l.token c rest >>= run fuel := by
  rw [run, settle]
  cases l.toNextToken.dropStaleKeys <;> rfl

/-- Two states that settle in the same state read the same. -/
theorem run_congr {l l' : Lexer} (h : l.settle = l'.settle) (fuel : Nat) :
    run fuel l = run fuel l' := by
  cases fuel with
  | zero => rfl
  | succ fuel => rw [run_succ, run_succ, h]

section
variable {s : List Char} (hs : Starts s)
include hs

theorem lineBreak?_of_starts : lineBreak? s = none := lineBreak?_eq_none fun c hc => (hs.solid c hc).2

theorem skipGap_blanks (n fuel : Nat) :
    skipGap (fuel + 1) (List.replicate n ' ' ++ s) = (s, false) := by
  have hblanks := span_blanks n fun c hc => (hs.solid c hc).1
  rw [List.span_eq_takeWhile_dropWhile] at hblanks
  simp only [skipGap, (Prod.mk.inj hblanks).2, beq_eq_false_iff_ne.2 hs.noComment,
    Bool.false_eq_true, if_false, lineBreak?_of_starts hs]

theorem skipGap_newLine (column fuel : Nat) :
    skipGap (fuel + 2) (newLine column ++ s) = (s, true) := by
  have hdrop : (newLine column ++ s).dropWhile (· == ' ') = newLine column ++ s := rfl
  have hcomment : ((newLine column ++ s).head? == some '#') = false := rfl
  have hbreak : lineBreak? (newLine column ++ s) = some ('\n', List.replicate column ' ' ++ s) := rfl
  rw [skipGap]
  simp only [hdrop, hcomment, Bool.false_eq_true, if_false, hbreak, skipGap_blanks hs]

end

/-- The lexer skips blanks and the ends of lines; a byte order mark at the beginning it skips first. -/
theorem toNextToken_eq {l : Lexer} {rest : List Char} {broken : Bool}
    (hmark : l.cursor.rest.head? ≠ some '\ufeff')
    (hgap : skipGap (l.cursor.rest.length + 1) l.cursor.rest = (rest, broken)) :
    l.toNextToken =
      if broken && l.inBlock then { l.moveTo rest with mayStartKey := true } else l.moveTo rest := by
  rw [toNextToken]
  split
  next h =>
    split at h
    · next hrest => exact absurd (by rw [hrest]; rfl) hmark
    · cases hgap.symm.trans h
      rfl

/-- Possible keys on earlier lines are forgotten. -/
theorem dropStaleKeys_eq {l : Lexer}
    (h : ∀ k ∈ l.possibleKeys, k.required = false ∧ k.start.line < l.cursor.line) :
    l.dropStaleKeys = .ok { l with possibleKeys := [] } := by
  have hfilter : l.possibleKeys.filter (fun k => !(k.start.line != l.cursor.line ||
      decide (l.cursor.index - k.start.index > longestKey))) = [] := by
    refine List.filter_eq_nil_iff.2 fun k hk => ?_
    simp [(h k hk).2.ne]
  rw [dropStaleKeys, if_neg]
  · exact congrArg (fun ks => Except.ok { l with possibleKeys := ks }) hfilter
  · rw [Bool.not_eq_true, List.any_eq_false]
    intro k hk
    simp [(h k hk).1]

/-- Possible keys on the same line that are not too long are kept. -/
theorem dropStaleKeys_self {l : Lexer}
    (h : ∀ k ∈ l.possibleKeys, k.start.line = l.cursor.line ∧
      l.cursor.index - k.start.index ≤ longestKey) : l.dropStaleKeys = .ok l := by
  have hfresh : ∀ k ∈ l.possibleKeys, (k.start.line != l.cursor.line ||
      decide (l.cursor.index - k.start.index > longestKey)) = false := by
    intro k hk
    simp [(h k hk).1, (h k hk).2]
  have hfilter : l.possibleKeys.filter (fun k => !(k.start.line != l.cursor.line ||
      decide (l.cursor.index - k.start.index > longestKey))) = l.possibleKeys := by
    refine List.filter_eq_self.2 fun k hk => ?_
    rw [hfresh k hk]
    rfl
  rw [dropStaleKeys, if_neg]
  · exact congrArg (fun ks => Except.ok { l with possibleKeys := ks }) hfilter
  · rw [Bool.not_eq_true, List.any_eq_false]
    intro k hk
    simp [hfresh k hk]

theorem unwind_of_le {l : Lexer} {column : Int} (h : l.indent ≤ column) : l.unwind column = l := by
  rw [unwind]
  cases l.outer.length with
  | zero => rfl
  | succ n =>
    rw [closeBlocks, decide_eq_false (Int.not_lt.2 h), Bool.and_false]
    rfl

/-- The innermost block collection is closed first. -/
theorem unwind_block {b : Bool} {p : Cursor} {ts : List Token} {inner i column : Int} {o : List Int}
    (h : column < inner) :
    (block b p ts inner (i :: o)).unwind column = (block b p (.blockEnd :: ts) i o).unwind column := by
  rw [unwind, unwind, block, List.length_cons, closeBlocks]
  simp only [inBlock, h]
  rfl

section
variable {l : Lexer} {s : List Char} (hs : Starts s)
include hs

/-- The lexer moves over blanks to the next token. Possible keys are on earlier lines. -/
theorem settle_starts {n : Nat} (hrest : l.cursor.rest = List.replicate n ' ' ++ s)
    (hdepth : l.depth = 0)
    (hkeys : ∀ k ∈ l.possibleKeys, k.required = false ∧ k.start.line < l.cursor.line) :
    l.settle = .ok ((block l.mayStartKey (l.cursor.skipTo s) l.tokens l.indent l.outer).unwind
      (l.cursor.skipTo s).column) := by
  have hmark : l.cursor.rest.head? ≠ some '\ufeff' := by
    rw [hrest]
    cases n with
    | zero => exact hs.noOrderMark
    | succ n => exact nofun
  have hgap : skipGap (l.cursor.rest.length + 1) l.cursor.rest = (s, false) := by
    rw [hrest]
    exact skipGap_blanks hs n _
  rw [settle, toNextToken_eq hmark hgap, Bool.false_and, if_neg Bool.false_ne_true, dropStaleKeys_eq]
  · obtain ⟨p, ts, depth, i, o, b, ks⟩ := l
    obtain rfl : depth = 0 := hdepth
    rfl
  · exact fun k hk => ⟨(hkeys k hk).1, Nat.lt_of_lt_of_le (hkeys k hk).2 (Cursor.line_skip _ _)⟩

/-- A new line is skipped; a key may start after it. -/
theorem settle_newLine {column : Nat} (hrest : l.cursor.rest = newLine column ++ s)
    (hdepth : l.depth = 0)
    (hkeys : ∀ k ∈ l.possibleKeys, k.required = false ∧ k.start.line ≤ l.cursor.line) :
    l.settle = .ok ((block true (l.cursor.skipTo s) l.tokens l.indent l.outer).unwind column) := by
  have hmark : l.cursor.rest.head? ≠ some '\ufeff' := by
    rw [hrest]
    exact nofun
  have hgap : skipGap (l.cursor.rest.length + 1) l.cursor.rest = (s, true) := by
    rw [hrest]
    exact skipGap_newLine hs column _
  have hblock : l.inBlock = true := beq_iff_eq.2 hdepth
  obtain ⟨-, hcolumn, hline⟩ := Cursor.skipTo_newLine (p := l.cursor) (s := []) hrest
  rw [settle, toNextToken_eq hmark hgap, hblock, Bool.and_self, if_pos rfl, dropStaleKeys_eq]
  · obtain ⟨p, ts, depth, i, o, b, ks⟩ := l
    obtain rfl : depth = 0 := hdepth
    rw [← hcolumn]
    rfl
  · exact fun k hk => ⟨(hkeys k hk).1, Nat.lt_of_le_of_lt (hkeys k hk).2 hline⟩

end

theorem unwind_of_flow {l : Lexer} {column : Int} (h : l.inBlock = false) : l.unwind column = l := by
  rw [unwind]
  cases l.outer.length with
  | zero => rfl
  | succ n =>
    rw [closeBlocks, h, Bool.false_and]
    rfl

/-- Where a token starts nothing is to be done, if no collection ends there. -/
theorem settle_self {l : Lexer} (hs : Starts l.cursor.rest)
    (hkeys : ∀ k ∈ l.possibleKeys, k.start.line = l.cursor.line ∧
      l.cursor.index - k.start.index ≤ longestKey)
    (hindent : l.inBlock = false ∨ l.indent ≤ l.cursor.column) : l.settle = .ok l := by
  have hmove : l.toNextToken = l := by
    rw [toNextToken_eq hs.noOrderMark (skipGap_blanks hs 0 _), Bool.false_and,
      if_neg Bool.false_ne_true]
    exact congrArg (fun q => { l with cursor := q }) (Cursor.skipTo_self rfl)
  rw [settle, hmove, dropStaleKeys_self hkeys]
  exact congrArg Except.ok (hindent.elim unwind_of_flow unwind_of_le)

end Lexer

end ViewFinder.Yaml
