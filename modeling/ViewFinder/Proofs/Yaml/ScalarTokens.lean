import ViewFinder.Proofs.Yaml.Lexing

/-!
# The tokens of scalars and keys

`Lexer.Leads` says that the lexer gets from one state to another by reading tokens, each of which has
at least one character, so that a fuel of the length of the text is enough. A scalar leads to its token
(`Lexer.leads_scalar`), and a key to the marker of a key, its token and the marker of its value
(`Lexer.leads_simpleKey`).
-/

namespace ViewFinder.Yaml

namespace Lexer

/-- The lexer gets from one state to the other, by no more tokens than it passes characters. -/
def Leads (l l' : Lexer) : Prop :=
  ∃ n, n + l'.cursor.rest.length ≤ l.cursor.rest.length ∧ ∀ fuel, run (fuel + n) l = run fuel l'

namespace Leads

variable {l l' l'' : Lexer}

theorem trans (h : Leads l l') (h' : Leads l' l'') : Leads l l'' := by
  obtain ⟨n, hn, hrun⟩ := h
  obtain ⟨n', hn', hrun'⟩ := h'
  refine ⟨n' + n, by omega, fun fuel => ?_⟩
  rw [← Nat.add_assoc, hrun, hrun']

/-- Nothing is read between two states that settle in the same one. -/
theorem of_settle (h : l.settle = l'.settle)
    (hlength : l'.cursor.rest.length ≤ l.cursor.rest.length) : Leads l l' :=
  ⟨0, by omega, run_congr h⟩

theorem of_token {m : Lexer} {c : Char} {rest : List Char} (hsettle : l.settle = .ok m)
    (hrest : m.cursor.rest = c :: rest) (htoken : m.token c rest = .ok l')
    (hlength : l'.cursor.rest.length < l.cursor.rest.length) : Leads l l' := by
  refine ⟨1, by omega, fun fuel => ?_⟩
  rw [run_succ, hsettle]
  simp only [bind, Except.bind, hrest, htoken]

end Leads

/-! ## Scalars -/

theorem rememberKey_block (b : Bool) (p : Cursor) (ts : List Token) (i : Int) (o : List Int) :
    (block b p ts i o).rememberKey = .ok { block b p ts i o with
      possibleKeys := if b then [⟨0, ts.length, i == p.column, p⟩] else [] } := by
  cases b <;> rfl

/-- What is not read as an indicator starts a plain scalar. -/
theorem token_plain {l : Lexer} {c : Char} {rest : List Char} (hdepth : l.depth = 0)
    (hmark : (l.cursor.column == 0 && isDocumentMark (c :: rest)) = false) (hsolid : Solid c)
    (hstart : Traits.startIndicates (c :: rest) = false) :
    l.token c rest = l.plainScalar (c :: rest) := by
  obtain ⟨hblank, hbreak⟩ := hsolid
  have hblock : l.inBlock = true := beq_iff_eq.2 hdepth
  obtain ⟨hindicator, hgap⟩ := Bool.or_eq_false_iff.1 hstart
  have hne (d : Char) (hd : "#,[]\x7b\x7d&*!|>'\"%@`".toList.contains d = true) : c ≠ d := by
    rintro rfl
    rw [hindicator] at hd
    cases hd
  -- A hyphen, a question mark or a colon starts a scalar if no gap follows.
  have hnone (d : Char) (hd : "?:-".toList.contains d = true) : (c == d && isGap rest) = false := by
    refine Bool.and_eq_false_imp.2 fun hc => ?_
    rw [beq_iff_eq.1 hc, hd] at hgap
    exact hgap
  have hplain : l.startsPlain (c :: rest) = true := by
    have hlist : "-?:,[]\x7b\x7d#&*!|>'\"%@`".toList.all (fun d => ['-', '?', ':'].contains d ||
        "#,[]\x7b\x7d&*!|>'\"%@`".toList.contains d) = true := by decide
    rw [startsPlain, hblank, hbreak, hblock]
    by_cases hc : c ∈ "-?:,[]\x7b\x7d#&*!|>'\"%@`".toList
    · rcases Bool.or_eq_true_iff.1 (List.all_eq_true.1 hlist c hc) with hc | hc
      · have hc : c = '-' ∨ c = '?' ∨ c = ':' := by simpa using hc
        have hdark : isGap rest = false := by
          rcases hc with rfl | rfl | rfl <;> exact hgap
        rcases hc with rfl | rfl | rfl <;> simp [hdark]
      · exact absurd rfl (hne c hc)
    · rw [List.contains_eq_mem, decide_eq_false hc]
      rfl
  have hdash := hnone '-' rfl
  have hquestion := hnone '?' rfl
  have hcolon := hnone ':' rfl
  simp only [token, hblock, Bool.not_true, Bool.false_or, hmark, hdash, hquestion, hcolon, hplain]
  simp [hne]

theorem token_single {l : Lexer} {rest : List Char} : l.token '\'' rest = l.quotedScalar false rest := by
  have hmark : isDocumentMark ('\'' :: rest) = false := rfl
  simp [token, hmark]

theorem token_double {l : Lexer} {rest : List Char} : l.token '"' rest = l.quotedScalar true rest := by
  have hmark : isDocumentMark ('"' :: rest) = false := rfl
  simp [token, hmark]

section
variable (b : Bool) (p : Cursor) (ts : List Token) (i : Int) (o : List Int)

/-- The lexer after a token that may have started a key. -/
def afterNode (broken : Bool) (after : List Char) (t : Token) : Lexer :=
  { block broken (p.skipTo after) (t :: ts) i o with
    possibleKeys := if b then [⟨0, ts.length, i == p.column, p⟩] else [] }

theorem quotedScalar_block {double : Bool} {s t after : List Char}
    (h : Scalar.Reads double s t after) :
    (block b p ts i o).quotedScalar double s =
      .ok (afterNode b p ts i o false after (.scalar (String.ofList t) false)) := by
  have hread : Scalar.quoted double (s.length + 1) s = .ok (t, after) := h _ (Nat.lt_succ_self _)
  rw [quotedScalar, nodeToken, rememberKey_block, hread]
  rfl

theorem plainScalar_block {s t after : List Char} {broken : Bool}
    (h : Scalar.plain false (i + 1).toNat s.length s = (t, broken, after)) :
    (block b p ts i o).plainScalar s =
      .ok (afterNode b p ts i o broken after (.scalar (String.ofList (Text.ofChars t)) true)) := by
  rw [plainScalar, rememberKey_block]
  simp only [bind, Except.bind, block, inBlock, beq_self_eq_true, Bool.not_true, h]
  rfl

/-- The token of a text as it is read back. -/
def scalarToken (s : List Char) : Token :=
  .scalar (String.ofList (readBack s)) (decide (Style.of s = Style.plain))

/-- What is written for a text is read as its token. The scalar is over before the tail, or where the
next line starts if it is plain. -/
theorem token_scalar {s tail next : List Char} {indent column : Nat} {fold broken : Bool}
    (hleast : (i + 1).toNat ≤ indent) (hindent : 0 < indent) (hwidth : indent + 1 ≤ width)
    (hends : Scalar.Ends (i + 1).toNat tail broken next) {c : Char} {rest : List Char}
    (hrest : scalarIn (Style.of s) indent fold column s ++ tail = c :: rest)
    (hmark : (p.column == 0 && isDocumentMark (c :: rest)) = false) :
    ∃ after broken', (after = tail ∧ broken' = false ∨ after = next ∧ broken' = broken) ∧
      (block b p ts i o).token c rest =
        .ok (afterNode b p ts i o broken' after (scalarToken s)) := by
  have htail : tail.head? ≠ some '\'' := by
    cases hends <;> exact nofun
  rcases Style.of_cases s with ⟨hstyle, htag, hplain⟩ | ⟨hstyle, hsingle⟩ | hstyle
  · refine ⟨next, broken, .inr ⟨rfl, rfl⟩, ?_⟩
    rw [hstyle, scalarIn] at hrest
    have hwords := hplain.words (ne_nil_of_plain htag)
    have hstart := hwords.startIndicates_plainRuns hplain.noStart indent fold column tail
    have hhead := hwords.head_plainRuns indent fold column tail
    have hlength := Nat.le_trans
      ((runs_spec (Nat.le_refl s.length)).length_le_plainRuns indent fold column)
      (List.prefix_append _ tail).length_le
    have hread := Scalar.plain_plainRuns hleast hindent hends hwords hlength fold column
    have hunmarked : Text.ofChars s = s := Text.ofChars_of_unmarked fun d hd => by
      rintro rfl
      cases hplain.ordinary _ hd
    rw [hrest] at hstart hhead hread
    rw [token_plain rfl hmark (hwords.head_solid c hhead.symm) hstart, plainScalar_block _ _ _ _ _ hread,
      hunmarked, scalarToken, readBack, hstyle]
    rfl
  · refine ⟨tail, false, .inl ⟨rfl, rfl⟩, ?_⟩
    have hread := Scalar.reads_singleRuns (runs_spec (Nat.le_refl s.length)) hsingle hindent htail
      fold true (column + 1)
    rw [hstyle, scalarIn, List.cons_append, List.append_assoc] at hrest
    cases hrest
    rw [token_single, scalarToken, readBack, hstyle]
    exact quotedScalar_block b p ts i o hread
  · refine ⟨tail, false, .inl ⟨rfl, rfl⟩, ?_⟩
    have hread := Scalar.reads_doubleChars hindent hwidth fold s tail (column + 1)
    rw [hstyle, scalarIn, List.cons_append, List.append_assoc] at hrest
    cases hrest
    rw [token_double, scalarToken, readBack, hstyle]
    exact quotedScalar_block b p ts i o hread

end

/-! ## Values at the end of a line -/

section
variable {p : Cursor} {ts : List Token} {i : Nat} {o : List Int} {s : List Char}

/-- The lexer moves over a blank to the next token on the line. -/
theorem settle_blank (b : Bool) (ts : List Token) {indent : Int} (o : List Int) (hs : Starts s)
    (hrest : p.rest = ' ' :: s) (hindent : indent ≤ p.column + 1) :
    ∃ q : Cursor, q.rest = s ∧ q.column = p.column + 1 ∧
      (block b p ts indent o).settle = .ok (block b q ts indent o) := by
  have hskip : p.skipTo s = { p with rest := s, index := p.index + 1, column := p.column + 1 } := by
    rw [Cursor.skipTo_eq (s := [' ']) hrest]
    exact Cursor.next_of_solid hrest rfl (by decide)
  have hcolumn : (p.skipTo s).column = p.column + 1 := by rw [hskip]
  have hsettle := settle_starts hs (l := block b p ts indent o) (n := 1) hrest rfl nofun
  refine ⟨p.skipTo s, by rw [hskip], hcolumn, hsettle.trans (congrArg Except.ok (unwind_of_le ?_))⟩
  change indent ≤ ((p.skipTo s).column : Int)
  omega

/-- A state where a token starts at the beginning of a line. -/
theorem settle_block {q : Cursor} {indent : Int} (hs : Starts s) (hrest : q.rest = s) :
    (block true q ts indent o).settle = .ok ((block true q ts indent o).unwind q.column) := by
  have hskip : (block true q ts indent o).cursor.skipTo s = q := Cursor.skipTo_self hrest
  have hsettle := settle_starts hs (l := block true q ts indent o) (n := 0) hrest rfl nofun
  rwa [hskip] at hsettle

/-- At the end of a line the lexer settles at the beginning of the next one. -/
theorem settle_lineEnd {l : Lexer} {next : List Char} {column : Nat} (hnext : Starts next)
    (hrest : l.cursor.rest = newLine column ++ next) (hdepth : l.depth = 0)
    (hkeys : ∀ k ∈ l.possibleKeys, k.required = false ∧ k.start.line ≤ l.cursor.line) :
    l.settle = (block true (l.cursor.skipTo next) l.tokens l.indent l.outer).settle := by
  obtain ⟨hq, hcolumn, -⟩ := Cursor.skipTo_newLine (s := []) hrest
  rw [settle_block hnext hq, hcolumn, settle_newLine hnext hrest hdepth hkeys]

/-- So it does after a scalar, also where the beginning of the next line was passed by a plain one. -/
theorem settle_afterNode {b broken : Bool} {after next : List Char} {t : Token} {column : Nat}
    (hrest : p.rest = s ++ (newLine column ++ next)) (hnext : Starts next) (hindent : i < p.column)
    (hafter : after = newLine column ++ next ∧ broken = false ∨ after = next ∧ broken = true) :
    (afterNode b p ts i o broken after t).settle =
      (block true (p.skipTo next) (t :: ts) i o).settle := by
  obtain ⟨hq, hcolumn, hline⟩ := Cursor.skipTo_newLine hrest
  have hkeys : ∀ k ∈ (afterNode b p ts i o broken after t).possibleKeys,
      k.required = false ∧ k.start.line = p.line := by
    have hrequired : ((i : Int) == (p.column : Int)) = false := by
      rw [beq_eq_false_iff_ne]
      omega
    intro k hk
    cases b with
    | false => cases hk
    | true => exact List.mem_singleton.1 hk ▸ ⟨hrequired, rfl⟩
  rcases hafter with ⟨rfl, rfl⟩ | ⟨rfl, rfl⟩
  · have hsettle := settle_lineEnd hnext (l := afterNode b p ts i o false (newLine column ++ next) t)
      (Cursor.rest_skipTo hrest) rfl fun k hk =>
        ⟨(hkeys k hk).1, (hkeys k hk).2.trans_le (Cursor.line_skip _ _)⟩
    rw [Cursor.skipTo_append hrest]
    exact hsettle
  · rw [settle_block hnext hq, hcolumn]
    have hskip : (p.skipTo after).skipTo after = p.skipTo after := Cursor.skipTo_self hq
    rw [settle_starts hnext (l := afterNode b p ts i o true after t) (n := 0) hq rfl fun k hk =>
      ⟨(hkeys k hk).1, (hkeys k hk).2.trans_lt hline⟩]
    change Except.ok ((block true ((p.skipTo after).skipTo after) (t :: ts) i o).unwind
      (((p.skipTo after).skipTo after).column : Int)) = _
    rw [hskip, hcolumn]

/-- A text after a blank, at the end of a line. -/
theorem leads_scalar {b : Bool} {text next : List Char} {column column' : Nat}
    (hrest : p.rest = ' ' :: (scalarIn (Style.of text) (i + 2) true column text ++
      (newLine column' ++ next)))
    (hcolumn : i ≤ p.column) (hcolumn' : column' ≤ i) (hnext : Starts next)
    (hmark : isDocumentMark (List.replicate column' ' ' ++ next) = false) (hwidth : i + 3 ≤ width) :
    ∃ q : Cursor, q.rest = next ∧ q.column = column' ∧
      Leads (block b p ts i o) (block true q (scalarToken text :: ts) i o) := by
  have hstarts := starts_scalarIn text (i + 2) true column (newLine column' ++ next)
  obtain ⟨q, hq, hqcolumn, hsettle⟩ :=
    settle_blank b ts o hstarts hrest (Int.ofNat_le.2 (Nat.le_succ_of_le hcolumn))
  have hends : Scalar.Ends ((i : Int) + 1).toNat (newLine column' ++ next) true next :=
    .line (by omega) hmark hnext.solid
  obtain ⟨hend, hendcolumn, -⟩ := Cursor.skipTo_newLine hq
  obtain ⟨c, rest, hcons⟩ : ∃ c rest, scalarIn (Style.of text) (i + 2) true column text ++
      (newLine column' ++ next) = c :: rest := by
    refine List.exists_cons_of_ne_nil ?_
    rw [newLine, List.cons_append]
    exact List.append_ne_nil_of_right_ne_nil _ (List.cons_ne_nil _ _)
  have hnotFirst : (q.column == 0 && isDocumentMark (c :: rest)) = false := by
    rw [hqcolumn]
    rfl
  obtain ⟨after, broken, hafter, htoken⟩ :=
    token_scalar b q ts i o (by omega) (by omega) hwidth hends hcons hnotFirst
  have hlength : (q.skipTo after).rest.length ≤ q.rest.length ∧
      next.length ≤ (q.skipTo after).rest.length := by
    rcases hafter with ⟨rfl, -⟩ | ⟨rfl, -⟩
    · rw [Cursor.rest_skipTo hq, hq]
      exact ⟨(List.suffix_append _ _).length_le, (List.suffix_append _ _).length_le⟩
    · rw [hend, hq]
      exact ⟨((List.suffix_append _ _).trans (List.suffix_append _ _)).length_le, Nat.le_refl _⟩
  refine ⟨q.skipTo next, hend, hendcolumn, .trans (.of_token hsettle (hq.trans hcons) htoken ?_)
    (.of_settle (settle_afterNode hq hnext (by omega) hafter) ?_)⟩
  · refine Nat.lt_of_le_of_lt hlength.1 ?_
    change q.rest.length < p.rest.length
    rw [hq, hrest]
    exact Nat.lt_succ_self _
  · exact (congrArg List.length hend).trans_le hlength.2

end

end Lexer

end ViewFinder.Yaml
