import ViewFinder.Proofs.Yaml.ScalarTokens

/-!
# The tokens of keys

A key of one line is recognized by the colon after it: its marker is put before its token then, and if
it is the first one of a mapping so is that of the mapping (`Lexer.leads_simpleKey`). A key after a
question mark has its marker from the beginning (`Lexer.leads_explicitKey`). Both lead to the marker of
the value, inside the mapping (`Lexer.Opens`).
-/

namespace ViewFinder.Yaml

/-! ## Keys of one line -/

theorem not_isBreak_of_isBasic {c : Char} (h : IsBasic c) (hfeed : isLineFeed c = false) :
    isBreak c = false ∧ c ≠ '\ufeff' := by
  have hne {d : Char} (hd : ¬ IsBasic d) : c ≠ d := ne_of_isBasic h hd
  have hreturn : ¬ IsBasic '\r' := by decide
  have hnext : ¬ IsBasic '\x85' := by decide
  have hline : ¬ IsBasic '\u2028' := by decide
  have hparagraph : ¬ IsBasic '\u2029' := by decide
  have horder : ¬ IsBasic '\ufeff' := by decide
  have hnewLine : c ≠ '\n' := by rintro rfl; cases hfeed
  refine ⟨?_, hne horder⟩
  simp [isBreak, hnewLine, hne hreturn, hne hnext, hne hline, hne hparagraph]

theorem adjacent_eq_false {first second : Char → Bool} {s : List Char}
    (h : (∀ c ∈ s, first c = false) ∨ ∀ c ∈ s, second c = false) :
    Traits.adjacent first second s = false := by
  induction s with
  | nil => rfl
  | cons a s ih =>
    cases s with
    | nil => rfl
    | cons b rest =>
      rw [Traits.adjacent, ih (h.imp (fun h => (List.forall_mem_cons.1 h).2)
        fun h => (List.forall_mem_cons.1 h).2), Bool.or_false, Bool.and_eq_false_iff]
      exact h.imp (fun h => h a (List.mem_cons_self ..))
        fun h => h b (List.mem_cons_of_mem _ (List.mem_cons_self ..))

/-- Without folding a text of one line is written between apostrophes as it is, but for its own
apostrophes. -/
theorem singleRuns_eq_doubleApostrophes {indent column : Nat} {first : Bool} {rs : List (List Char)}
    (h : ∀ c ∈ rs.flatten, isLineFeed c = false) :
    singleRuns indent false first column rs = doubleApostrophes rs.flatten := by
  induction rs generalizing first column with
  | nil => rfl
  | cons run rs ih =>
    rw [List.flatten_cons, List.forall_mem_append] at h
    have hfeed : (run.head?.map isLineFeed).getD false = false := by
      cases run with
      | nil => rfl
      | cons c run => exact h.1 c (List.mem_cons_self ..)
    simp only [singleRuns, Bool.and_false, Bool.false_and, Bool.false_eq_true, if_false, hfeed, ih h.2]
    exact (List.flatMap_append ..).symm

theorem length_doubleApostrophes (s : List Char) :
    (doubleApostrophes s).length ≤ 2 * s.length := by
  induction s with
  | nil => exact Nat.le_refl _
  | cons c s ih =>
    rw [doubleApostrophes, List.flatMap_cons, ← doubleApostrophes, List.length_append, List.length_cons]
    split <;> simp only [List.length_cons, List.length_nil] <;> omega

/-- A key of one line has a character for each of the text, or two, and the apostrophes around it. -/
theorem scalarIn_key {s : List Char} (hs : ∀ c ∈ s, IsBasic c) (hline : ∀ c ∈ s, isLineFeed c = false)
    (indent column : Nat) :
    (scalarIn (Style.of s) indent false column s).length ≤ 2 * s.length + 2 ∧
      ∀ c ∈ scalarIn (Style.of s) indent false column s, isBreak c = false ∧ c ≠ '\ufeff' := by
  have hflatten := (runs_spec (Nat.le_refl s.length)).flatten_eq
  have hchars : ∀ c ∈ s, isBreak c = false ∧ c ≠ '\ufeff' := fun c hc =>
    not_isBreak_of_isBasic (hs c hc) (hline c hc)
  have hdouble : Style.of s ≠ .double := by
    have hsingle : (Traits.of s).allowsSingle = true := by
      have hspecial : s.all Traits.isOrdinary = true :=
        List.all_eq_true.2 fun c hc => isOrdinary_of_isBasic (hs c hc)
      simp [Traits.allowsSingle, Traits.of, hspecial, adjacent_eq_false (.inl hline),
        adjacent_eq_false (.inr hline)]
    rw [Style.of]
    split
    · decide
    · decide
  rcases Style.of_cases s with ⟨hstyle, -, -⟩ | ⟨hstyle, -⟩ | hstyle
  · rw [hstyle, scalarIn, plainRuns_eq_flatten, hflatten]
    exact ⟨by omega, hchars⟩
  · have hquote : isBreak '\'' = false ∧ '\'' ≠ '\ufeff' := by decide
    rw [hstyle, scalarIn, singleRuns_eq_doubleApostrophes (by rwa [hflatten]), hflatten]
    refine ⟨?_, List.forall_mem_cons.2 ⟨hquote, List.forall_mem_append.2 ⟨fun c hc => ?_,
      List.forall_mem_singleton.2 hquote⟩⟩⟩
    · have hlength := length_doubleApostrophes s
      rw [List.length_cons, List.length_append, List.length_singleton]
      omega
    · obtain ⟨d, hd, hc⟩ := List.mem_flatMap.1 hc
      split at hc
      · obtain rfl : c = '\'' := by simpa using hc
        exact hquote
      · exact List.mem_singleton.1 hc ▸ hchars d hd
  · exact absurd hstyle hdouble

namespace Lexer

/-- A block mapping at the column, where one may be open already: the indentation and the tokens
before it, and the ones inside it. -/
inductive Opens (column : Nat) (ts : List Token) :
    Int → List Int → List Token → List Int → Prop
  | same {o : List Int} : Opens column ts column o ts o
  | new {i : Int} {o : List Int} (h : i < column) :
    Opens column ts i o (.blockMappingStart :: ts) (i :: o)

namespace Opens

variable {column : Nat} {ts ts' : List Token} {i : Int} {o o' : List Int}

theorem le (h : Opens column ts i o ts' o') : i ≤ column := by
  cases h with
  | same => exact Int.le_refl _
  | new h => exact Int.le_of_lt h

theorem openBlockHere_eq (h : Opens column ts i o ts' o') {p : Cursor} (hp : p.column = column)
    (b : Bool) :
    (block b p ts i o).openBlockHere .blockMappingStart = block b p ts' column o' := by
  subst hp
  cases h with
  | same => simp [openBlockHere, openBlock, block]
  | new h => simp [openBlockHere, openBlock, block, h, push]

end Opens

theorem token_colon {l : Lexer} {rest : List Char} (hgap : isGap rest = true) :
    l.token ':' rest = l.mappingValue := by
  have hmark : isDocumentMark (':' :: rest) = false := rfl
  simp [token, hmark, hgap]

theorem token_question {l : Lexer} {rest : List Char} (hgap : isGap rest = true) :
    l.token '?' rest = l.explicitKey := by
  have hmark : isDocumentMark ('?' :: rest) = false := rfl
  simp [token, hmark, hgap]

section
variable {p : Cursor} {column : Nat} {ts ts' : List Token} {i : Int} {o o' : List Int}

/-- The marker of a value after a key of its own line. -/
theorem mappingValue_afterNode (h : Opens column ts i o ts' o') (hp : p.column = column)
    (after : List Char) (t : Token) :
    (afterNode true p ts i o false after t).mappingValue =
      .ok (block false ((p.skipTo after).skip 1) (.value :: t :: .key :: ts') column o') := by
  subst hp
  have htwo : ts.length + 1 + 1 - ts.length = 2 := by omega
  cases h with
  | same =>
    simp [mappingValue, afterNode, block, makeKey, insertAt, inBlock, openBlock, take, push, pure,
      Except.pure]
  | new h =>
    simp [mappingValue, afterNode, block, makeKey, insertAt, inBlock, openBlock, take, push, pure,
      Except.pure, h, htwo]

/-- A possible key on the line of the cursor is kept, if it is not too far back. -/
theorem settle_possibleKey {s after : List Char} {b broken : Bool} {t : Token}
    (hrest : p.rest = s ++ after) (hafter : Starts after)
    (hs : ∀ c ∈ s, isBreak c = false ∧ c ≠ '\ufeff') (hlength : s.length ≤ longestKey)
    (hi : i ≤ p.column) :
    (afterNode b p ts i o broken after t).settle = .ok (afterNode b p ts i o broken after t) := by
  have hskip : p.skipTo after =
      { p with rest := after, index := p.index + s.length, column := p.column + s.length } := by
    rw [Cursor.skipTo_eq hrest]
    exact Cursor.skip_line hrest hs
  refine settle_self ?_ (fun k hk => ?_) (.inr ?_)
  · change Starts (p.skipTo after).rest
    rwa [Cursor.rest_skipTo hrest]
  · cases b with
    | false => cases hk
    | true =>
      obtain rfl := List.mem_singleton.1 hk
      change p.line = (p.skipTo after).line ∧ (p.skipTo after).index - p.index ≤ longestKey
      rw [hskip]
      exact ⟨rfl, by rwa [Nat.add_sub_cancel_left]⟩
  · change i ≤ ((p.skipTo after).column : Int)
    rw [hskip]
    change i ≤ ((p.column + s.length : Nat) : Int)
    omega

/-- Where a token starts nothing is to be done, if no key may have started before. -/
theorem settle_block_self {b : Bool} {s : List Char} (hs : Starts s) (hrest : p.rest = s)
    (hi : i ≤ p.column) : (block b p ts i o).settle = .ok (block b p ts i o) := by
  subst hrest
  exact settle_self hs nofun (.inr hi)

/-- A key of one line leads to the marker of its value. -/
theorem leads_simpleKey {s after : List Char} (h : Opens column ts i o ts' o') (hp : p.column = column)
    (hs : ∀ c ∈ s, IsBasic c) (hsimple : Layout.isSimpleKey (.ofText s) = true)
    (hgap : isGap after = true)
    (hrest : p.rest = scalarIn (Style.of s) (column + 2) false column s ++ ':' :: after)
    (hwidth : column + 3 ≤ width) :
    ∃ q : Cursor, q.rest = after ∧
      q.column = column + (scalarIn (Style.of s) (column + 2) false column s).length + 1 ∧
      Leads (block true p ts i o)
        (block false q (.value :: scalarToken s :: .key :: ts') column o') := by
  have hcolon : Starts (':' :: after) := starts_cons after ⟨⟨rfl, rfl⟩, by decide, by decide⟩
  have hi := h.le
  simp only [Layout.isSimpleKey, Layout.ofText, Bool.and_eq_true, decide_eq_true_eq,
    Bool.not_eq_true', List.any_eq_false, Bool.not_eq_true] at hsimple
  obtain ⟨⟨hshort, hne⟩, hline⟩ := hsimple
  have hpoints : (Text.points s).length = s.length := by
    have hmark : ¬ IsBasic Text.mark := by decide
    rw [Text.points_of_unmarked fun c hc => ne_of_isBasic (hs c hc) hmark, List.length_map]
  rw [hpoints, Layout.longestKey] at hshort
  obtain ⟨hlength, hchars⟩ := scalarIn_key hs hline (column + 2) column
  have hlong : (scalarIn (Style.of s) (column + 2) false column s).length ≤ longestKey := by
    rw [longestKey]
    omega
  have hstarts := starts_scalarIn s (column + 2) false column (':' :: after)
  have hmark := isDocumentMark_key s (column + 2) column after
  obtain ⟨c, rest, hcons⟩ : ∃ c rest,
      scalarIn (Style.of s) (column + 2) false column s ++ ':' :: after = c :: rest :=
    List.exists_cons_of_ne_nil (List.append_ne_nil_of_right_ne_nil _ (List.cons_ne_nil _ _))
  have hsettle : (block true p ts i o).settle = .ok (block true p ts i o) :=
    settle_block_self hstarts hrest (hp ▸ hi)
  have htoken : (block true p ts i o).token c rest =
      .ok (afterNode true p ts i o false (':' :: after) (scalarToken s)) := by
    obtain ⟨after', broken, hafter, htoken⟩ := token_scalar true p ts i o (by omega) (by omega)
      hwidth (.colon hgap) hcons (by rw [← hcons, hmark, Bool.and_false])
    rcases hafter with ⟨rfl, rfl⟩ | ⟨rfl, rfl⟩ <;> exact htoken
  have hskip := Cursor.skip_line hrest hchars
  rw [← Cursor.skipTo_eq hrest] at hskip
  have hq : (p.skipTo (':' :: after)).rest = ':' :: after := Cursor.rest_skipTo hrest
  have hnext := Cursor.next_of_solid hq rfl (by decide)
  refine ⟨(p.skipTo (':' :: after)).skip 1, ?_, ?_,
    .trans (.of_token hsettle (hrest.trans hcons) htoken ?_)
      (.of_token (settle_possibleKey hrest hcolon hchars hlong (by omega)) hq
        ((token_colon hgap).trans (mappingValue_afterNode h hp _ _)) ?_)⟩
  · exact congrArg Cursor.rest hnext
  · refine (congrArg Cursor.column hnext).trans ?_
    rw [hskip, hp]
  · change (p.skipTo (':' :: after)).rest.length < p.rest.length
    have hkey := List.length_pos_iff.2 (scalarIn_ne_nil s (column + 2) false column)
    rw [hq, hrest, List.length_append]
    omega
  · exact Cursor.length_next hq

/-! ## Keys after a question mark -/

theorem explicitKey_block (h : Opens column ts i o ts' o') (hp : p.column = column) :
    (block true p ts i o).explicitKey = .ok (block true (p.skip 1) (.key :: ts') column o') := by
  rw [explicitKey]
  simp only [h.openBlockHere_eq hp true]
  rfl

theorem mappingValue_block (hp : p.column = column) :
    (block true p ts column o).mappingValue = .ok (block true (p.skip 1) (.value :: ts) column o) := by
  have hopen : Opens column ts column o ts o := .same
  rw [mappingValue]
  simp only [hopen.openBlockHere_eq hp true]
  rfl

/-- A key after a question mark leads to the marker of its value, on a line of its own. -/
theorem leads_explicitKey {s after : List Char} (h : Opens column ts i o ts' o') (hp : p.column = column)
    (hgap : isGap after = true)
    (hrest : p.rest = '?' :: ' ' :: (scalarIn (Style.of s) (column + 2) true (column + 2) s ++
      (newLine column ++ ':' :: after)))
    (hwidth : column + 3 ≤ width) :
    ∃ q : Cursor, q.rest = after ∧ q.column = column + 1 ∧
      Leads (block true p ts i o)
        (block true q (.value :: scalarToken s :: .key :: ts') column o') := by
  have hi := h.le
  have hcolon : Starts (':' :: after) := starts_cons after ⟨⟨rfl, rfl⟩, by decide, by decide⟩
  have hquestion := starts_cons (c := '?') (' ' :: (scalarIn (Style.of s) (column + 2) true (column + 2) s
    ++ (newLine column ++ ':' :: after))) ⟨⟨rfl, rfl⟩, by decide, by decide⟩
  have hsettle : (block true p ts i o).settle = .ok (block true p ts i o) :=
    settle_block_self hquestion hrest (hp ▸ hi)
  have hnext := Cursor.next_of_solid hrest rfl (by decide)
  have hmark : isDocumentMark (List.replicate column ' ' ++ ':' :: after) = false := by
    cases column <;> rfl
  have hskip : (p.skip 1).column = column + 1 := (congrArg Cursor.column hnext).trans (by rw [hp])
  obtain ⟨q, hq, hqcolumn, hscalar⟩ : ∃ q : Cursor, q.rest = ':' :: after ∧ q.column = column ∧
      Leads (block true (p.skip 1) (.key :: ts') column o')
        (block true q (scalarToken s :: .key :: ts') column o') :=
    leads_scalar (congrArg Cursor.rest hnext) (by omega) (Nat.le_refl column) hcolon hmark hwidth
  have hsettle' : (block true q (scalarToken s :: .key :: ts') column o').settle =
      .ok (block true q (scalarToken s :: .key :: ts') column o') :=
    settle_block_self hcolon hq (Int.ofNat_le.2 hqcolumn.ge)
  have hqnext := Cursor.next_of_solid hq rfl (by decide)
  refine ⟨q.skip 1, congrArg Cursor.rest hqnext, ?_, .trans (.of_token hsettle hrest
    ((token_question rfl).trans (explicitKey_block h hp)) ?_) (hscalar.trans (.of_token hsettle' hq
      ((token_colon hgap).trans (mappingValue_block hqcolumn)) ?_))⟩
  · exact (congrArg Cursor.column hqnext).trans (by rw [hqcolumn])
  · exact Cursor.length_next hrest
  · exact Cursor.length_next hq

end

end Lexer

end ViewFinder.Yaml
