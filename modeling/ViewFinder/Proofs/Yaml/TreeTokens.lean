import ViewFinder.Proofs.Yaml.Tree

/-!
# The tokens of trees

The lexer reads the tokens of a tree from its text (`Tree.ofText_printEntries`). Each value leads from
the end of its key or mark to the beginning of the line after it (`Lexer.Lexes`), an entry from its key
to the line after it, and a dictionary is closed by that line, which is indented less.
-/

namespace ViewFinder.Yaml

namespace Lexer

/-! ## Empty dictionaries -/

theorem token_flowStart {l : Lexer} {rest : List Char} :
    l.token '\x7b' rest = l.openFlow .flowMappingStart := by
  have hmark : isDocumentMark ('\x7b' :: rest) = false := rfl
  simp [token, hmark]

theorem token_flowEnd {l : Lexer} {rest : List Char} :
    l.token '\x7d' rest = l.closeFlow .flowMappingEnd := by
  have hmark : isDocumentMark ('\x7d' :: rest) = false := rfl
  simp [token, hmark]

section
variable (b : Bool) (p : Cursor) (ts : List Token) (i : Int) (o : List Int)

/-- The lexer after an opening brace. -/
def inBraces : Lexer :=
  { block true (p.skip 1) (.flowMappingStart :: ts) i o with
    depth := 1, possibleKeys := if b then [⟨0, ts.length, i == p.column, p⟩] else [] }

/-- The lexer after braces. -/
def afterBraces : Lexer :=
  { block false ((p.skip 1).skip 1) (.flowMappingEnd :: .flowMappingStart :: ts) i o with
    possibleKeys := if b then [⟨0, ts.length, i == p.column, p⟩] else [] }

theorem openFlow_block :
    (block b p ts i o).openFlow .flowMappingStart = .ok (inBraces b p ts i o) := by
  rw [openFlow, rememberKey_block]
  rfl

theorem closeFlow_inBraces :
    (inBraces b p ts i o).closeFlow .flowMappingEnd = .ok (afterBraces b p ts i o) := by
  cases b <;> rfl

end

/-- An empty dictionary after a blank, at the end of a line. -/
theorem leads_braces {p : Cursor} {ts : List Token} {i : Nat} {o : List Int} {b : Bool}
    {next : List Char} {column : Nat}
    (hrest : p.rest = ' ' :: '\x7b' :: '\x7d' :: (newLine column ++ next)) (hcolumn : i ≤ p.column)
    (hnext : Starts next) :
    ∃ q : Cursor, q.rest = next ∧ q.column = column ∧ Leads (block b p ts i o)
      (block true q (.flowMappingEnd :: .flowMappingStart :: ts) i o) := by
  have hopen : Starts ('\x7b' :: '\x7d' :: (newLine column ++ next)) :=
    starts_cons _ ⟨⟨rfl, rfl⟩, by decide, by decide⟩
  have hclose : Starts ('\x7d' :: (newLine column ++ next)) :=
    starts_cons _ ⟨⟨rfl, rfl⟩, by decide, by decide⟩
  obtain ⟨q, hq, hqcolumn, hsettle⟩ :=
    settle_blank b ts o hopen hrest (Int.ofNat_le.2 (Nat.le_succ_of_le hcolumn))
  have hq1 := Cursor.next_of_solid hq rfl (by decide)
  have hq1rest : (q.skip 1).rest = '\x7d' :: (newLine column ++ next) := congrArg Cursor.rest hq1
  have hq2 := Cursor.next_of_solid hq1rest rfl (by decide)
  have hq2rest : ((q.skip 1).skip 1).rest = newLine column ++ next := congrArg Cursor.rest hq2
  obtain ⟨hend, hendcolumn, -⟩ := Cursor.skipTo_newLine (s := []) hq2rest
  have hkeys : ∀ k ∈ (inBraces b q ts i o).possibleKeys, k.start = q ∧ k.required = false := by
    have hrequired : ((i : Int) == (q.column : Int)) = false := by
      rw [beq_eq_false_iff_ne]
      omega
    intro k hk
    cases b with
    | false => cases hk
    | true => exact List.mem_singleton.1 hk ▸ ⟨rfl, hrequired⟩
  have hsettle' : (inBraces b q ts i o).settle = .ok (inBraces b q ts i o) := by
    refine settle_self (l := inBraces b q ts i o) ?_ (fun k hk => ?_) (.inl rfl)
    · change Starts (q.skip 1).rest
      rwa [hq1rest]
    · rw [(hkeys k hk).1]
      change q.line = q.next.line ∧ q.next.index - q.index ≤ longestKey
      rw [hq1]
      exact ⟨rfl, by rw [Nat.add_sub_cancel_left]; decide⟩
  have hsettle'' : (afterBraces b q ts i o).settle =
      (block true (((q.skip 1).skip 1).skipTo next) (.flowMappingEnd :: .flowMappingStart :: ts) i
        o).settle := by
    refine settle_lineEnd (l := afterBraces b q ts i o) hnext hq2rest rfl fun k hk => ?_
    refine ⟨(hkeys k hk).2, ?_⟩
    rw [(hkeys k hk).1]
    exact (Cursor.line_next q).trans (Cursor.line_next _)
  refine ⟨((q.skip 1).skip 1).skipTo next, hend, hendcolumn, .trans (.of_token hsettle hq
    (token_flowStart.trans (openFlow_block b q ts i o)) ?_) (.trans (.of_token hsettle' hq1rest
      (token_flowEnd.trans (closeFlow_inBraces b q ts i o)) ?_) (.of_settle hsettle'' ?_))⟩
  · change (q.skip 1).rest.length < p.rest.length
    rw [hq1rest, hrest]
    exact Nat.lt_succ_of_lt (Nat.lt_succ_self _)
  · exact Cursor.length_next hq1rest
  · change (((q.skip 1).skip 1).skipTo next).rest.length ≤ ((q.skip 1).skip 1).rest.length
    rw [hend, hq2rest]
    exact (List.suffix_append _ _).length_le

/-! ## Values and entries -/

/-- A value leads from the end of the key or mark before it to its tokens and the next line, which is
not indented further than the dictionary it is in. After a mark a dictionary starts on the same line,
at the next column but one. -/
def Lexes (v : Layout) (tokens : List Token) (height : Nat) : Prop :=
  ∀ (b : Bool) (p : Cursor) (ts : List Token) (i column column' : Nat) (o : List Int)
    (place : Layout.Place) (next : List Char), place ≠ .item →
    (place = .mark → b = true ∧ p.column = i + 1) → i ≤ p.column → column' ≤ i → Starts next →
    isDocumentMark (List.replicate column' ' ' ++ next) = false → i + 2 * height + 1 ≤ width →
    p.rest = Layout.after i column place v ++ (newLine column' ++ next) →
    ∃ q : Cursor, q.rest = next ∧ q.column = column' ∧
      Leads (block b p ts i o) (block true q (tokens.reverse ++ ts) i o)

theorem lexes_text (s : List Char) : Lexes (.ofText s) [scalarToken s] 1 := by
  intro b p ts i column column' o place next _ _ hcolumn hcolumn' hnext hmark hwidth hrest
  exact leads_scalar hrest hcolumn hcolumn' hnext hmark hwidth

theorem lexes_braces (height : Nat) :
    Lexes (.entries "" []) [.flowMappingStart, .flowMappingEnd] height := by
  intro b p ts i column column' o place next _ _ hcolumn _ hnext _ _ hrest
  exact leads_braces hrest hcolumn hnext

/-- What stands after a key or a mark is a blank or a new line. -/
theorem isGap_after (t : Tree) (indent column : Nat) (place : Layout.Place) (rest : List Char) :
    isGap (Layout.after indent column place (.ofValue t.value) ++ rest) = true := by
  match t with
  | .text s => rfl
  | .mapping [] => rfl
  | .mapping ((k, t) :: entries) =>
    have hstart (sameLine : Bool) (rest : List Char) :
        isGap (Layout.entryStart (indent + 2) sameLine ++ rest) = true := by
      cases sameLine <;> rfl
    change isGap (Layout.entriesFrom (indent + 2) (place != .key && true)
      (Layout.ofEntries (Tree.values ((k, t) :: entries))) ++ rest) = true
    rw [Tree.values, Layout.ofEntries, Tree.entriesFrom_cons, List.append_assoc]
    exact hstart _ _

section
variable {p : Cursor} {column : Nat} {ts ts' : List Token} {i : Int} {o o' : List Int}

/-- An entry leads from its key to the line after it. -/
theorem leads_entry {k : List Char} {t : Tree} {tokens : List Token} {height column' : Nat}
    {next : List Char} (h : Opens column ts i o ts' o') (hp : p.column = column)
    (hk : ∀ c ∈ k, IsBasic c) (ht : Lexes (.ofValue t.value) tokens height)
    (hcolumn' : column' ≤ column) (hnext : Starts next)
    (hmark : isDocumentMark (List.replicate column' ' ' ++ next) = false) (hheight : 0 < height)
    (hwidth : column + 2 * height + 1 ≤ width)
    (hrest : p.rest = Tree.entryText column (.ofText k) (.ofValue t.value) ++
      (newLine column' ++ next)) :
    ∃ q : Cursor, q.rest = next ∧ q.column = column' ∧ Leads (block true p ts i o)
      (block true q ((.key :: scalarToken k :: .value :: tokens).reverse ++ ts') column o') := by
  have hwidth' : column + 3 ≤ width := by omega
  have htokens : (.key :: scalarToken k :: .value :: tokens).reverse ++ ts' =
      tokens.reverse ++ (.value :: scalarToken k :: .key :: ts') := by simp
  rw [htokens]
  rw [Tree.entryText] at hrest
  split at hrest
  · next hsimple =>
    rw [List.append_assoc, List.cons_append] at hrest
    obtain ⟨q, hq, hqcolumn, hkey⟩ :=
      leads_simpleKey h hp hk hsimple (isGap_after t _ _ _ _) hrest hwidth'
    obtain ⟨q', hq', hqcolumn', hvalue⟩ := ht false q (.value :: scalarToken k :: .key :: ts') column _
      column' o' .key next (by intro h; cases h) (by intro h; cases h) (by omega) hcolumn' hnext hmark
      hwidth hq
    exact ⟨q', hq', hqcolumn', hkey.trans hvalue⟩
  · have hrest : p.rest = '?' :: ' ' :: (scalarIn (Style.of k) (column + 2) true (column + 2) k ++
        (newLine column ++ ':' :: (Layout.after column (column + 1) .mark (.ofValue t.value) ++
          (newLine column' ++ next)))) := by
      rw [hrest, Layout.ofText, Layout.after]
      simp only [List.append_assoc, List.cons_append]
    obtain ⟨q, hq, hqcolumn, hkey⟩ :=
      leads_explicitKey h hp (isGap_after t _ _ _ _) hrest hwidth'
    obtain ⟨q', hq', hqcolumn', hvalue⟩ := ht true q (.value :: scalarToken k :: .key :: ts') column _
      column' o' .mark next (by intro h; cases h) (fun _ => ⟨rfl, hqcolumn⟩) (by omega) hcolumn' hnext
      hmark hwidth hq
    exact ⟨q', hq', hqcolumn', hkey.trans hvalue⟩

end

/-- A key starts a token, which does not separate documents. -/
theorem starts_entryText (indent : Nat) (k : List Char) (v : Layout) (rest : List Char) :
    Starts (Tree.entryText indent (.ofText k) v ++ rest) ∧
      isDocumentMark (Tree.entryText indent (.ofText k) v ++ rest) = false := by
  rw [Tree.entryText]
  split
  · rw [List.append_assoc]
    exact ⟨starts_scalarIn k _ _ _ _, isDocumentMark_key k _ _ _⟩
  · exact ⟨starts_cons _ ⟨⟨rfl, rfl⟩, by decide, by decide⟩, rfl⟩

theorem starts_line (indent : Nat) (k : List Char) (v : Layout) (rest : List Char) :
    isDocumentMark (List.replicate indent ' ' ++ (Tree.entryText indent (.ofText k) v ++ rest)) =
      false := by
  cases indent with
  | zero => exact (starts_entryText 0 k v rest).2
  | succ n => exact isDocumentMark_blanks (Nat.succ_pos n)

/-- An entry of a dictionary whose value is read. -/
def LexesEntry (e : String × Tree) : Prop :=
  IsBasicText e.1 ∧ Lexes (.ofValue e.2.value) e.2.tokens e.2.height

/-- The entries of a dictionary lead from the first key to the line after the last value. -/
theorem leads_entries {k : String} {t : Tree} {rest : List (String × Tree)}
    (hentries : ∀ e ∈ (k, t) :: rest, LexesEntry e) {p : Cursor} {column column' : Nat}
    {ts ts' : List Token} {i : Int} {o o' : List Int} {next : List Char}
    (h : Opens column ts i o ts' o') (hp : p.column = column) (hcolumn' : column' ≤ column)
    (hnext : Starts next) (hmark : isDocumentMark (List.replicate column' ' ' ++ next) = false)
    (hwidth : column + 2 * Tree.heightOfEntries ((k, t) :: rest) + 1 ≤ width)
    (hrest : p.rest = Tree.entryText column (.ofText k.toList) (.ofValue t.value) ++
      (Layout.entriesFrom column false (Layout.ofEntries (Tree.values rest)) ++
        (newLine column' ++ next))) :
    ∃ q : Cursor, q.rest = next ∧ q.column = column' ∧ Leads (block true p ts i o)
      (block true q ((Tree.entryTokens ((k, t) :: rest)).reverse ++ ts') column o') := by
  induction rest generalizing k t p ts i o ts' o' with
  | nil =>
    have hwidth' : column + 2 * t.height + 1 ≤ width := by
      rw [Tree.heightOfEntries] at hwidth
      omega
    obtain ⟨hk, ht⟩ := hentries (k, t) (List.mem_singleton_self _)
    rw [Tree.entryTokens, Tree.entryTokens, List.append_nil]
    exact leads_entry h hp hk ht hcolumn' hnext hmark t.height_pos hwidth' hrest
  | cons e rest ih =>
    obtain ⟨k', t'⟩ := e
    obtain ⟨hfirst, hmore⟩ := List.forall_mem_cons.1 hentries
    have hwidth' : column + 2 * t.height + 1 ≤ width ∧
        column + 2 * Tree.heightOfEntries ((k', t') :: rest) + 1 ≤ width := by
      rw [Tree.heightOfEntries] at hwidth
      omega
    rw [Tree.values, Layout.ofEntries, Tree.entriesFrom_cons, List.append_assoc,
      List.append_assoc] at hrest
    obtain ⟨q, hq, hqcolumn, hentry⟩ := leads_entry h hp hfirst.1 hfirst.2 (Nat.le_refl column)
      (starts_entryText ..).1 (starts_line ..) t.height_pos hwidth'.1 hrest
    obtain ⟨q', hq', hqcolumn', hentries⟩ := ih hmore .same hqcolumn hwidth'.2 hq
    refine ⟨q', hq', hqcolumn', ?_⟩
    have htokens : (Tree.entryTokens ((k, t) :: (k', t') :: rest)).reverse ++ ts' =
        (Tree.entryTokens ((k', t') :: rest)).reverse ++
          ((.key :: scalarToken k.toList :: .value :: t.tokens).reverse ++ ts') := by
      rw [Tree.entryTokens]
      simp
    rw [htokens]
    exact hentry.trans hentries

/-- A dictionary starts on a new line after a key, and on the same line after a mark. -/
theorem leads_entryStart {b : Bool} {p : Cursor} {ts : List Token} {i : Nat} {o : List Int}
    {place : Layout.Place} {body : List Char} (hitem : place ≠ .item)
    (hplace : place = .mark → b = true ∧ p.column = i + 1) (hbody : Starts body)
    (hrest : p.rest = Layout.entryStart (i + 2) (place != .key) ++ body) :
    ∃ q : Cursor, q.rest = body ∧ q.column = i + 2 ∧
      Leads (block b p ts i o) (block true q ts i o) := by
  have hlength (q : Cursor) (hq : q.rest = body) : q.rest.length ≤ p.rest.length := by
    rw [hq, hrest]
    exact (List.suffix_append _ _).length_le
  cases place with
  | item => exact absurd rfl hitem
  | key =>
    have hline : (block b p ts i o).cursor.rest = newLine (i + 2) ++ body := hrest
    obtain ⟨hq, hqcolumn, -⟩ := Cursor.skipTo_newLine (s := []) hline
    exact ⟨p.skipTo body, hq, hqcolumn,
      .of_settle (settle_lineEnd hbody hline rfl nofun) (hlength _ hq)⟩
  | mark =>
    obtain ⟨rfl, hpcolumn⟩ := hplace rfl
    have hindent : (i : Int) ≤ p.column + 1 := by omega
    obtain ⟨q, hq, hqcolumn, hsettle⟩ := settle_blank true ts o hbody hrest hindent
    have hself : (block true q ts i o).settle = .ok (block true q ts i o) :=
      settle_block_self hbody hq (by omega)
    exact ⟨q, hq, by omega, .of_settle (hsettle.trans hself.symm) (hlength q hq)⟩

/-- A dictionary is closed where a line is indented less. -/
theorem leads_blockEnd {q : Cursor} {ts : List Token} {inner : Nat} {i : Int} {o : List Int}
    {s : List Char} (hs : Starts s) (hq : q.rest = s) (hcolumn : q.column < inner) :
    Leads (block true q ts inner (i :: o)) (block true q (.blockEnd :: ts) i o) := by
  refine .of_settle ?_ (Nat.le_refl _)
  rw [settle_block hs hq, settle_block hs hq, unwind_block (Int.ofNat_lt.2 hcolumn)]

/-- The dictionary of entries whose values are read. -/
theorem lexes_mapping {entries : List (String × Tree)} (hentries : ∀ e ∈ entries, LexesEntry e) :
    Lexes (.ofValue (Tree.mapping entries).value) (Tree.mapping entries).tokens
      (Tree.mapping entries).height := by
  cases entries with
  | nil => exact lexes_braces _
  | cons e rest =>
    obtain ⟨k, t⟩ := e
    intro b p ts i column column' o place next hitem hplace hcolumn hcolumn' hnext hmark hwidth hrest
    have hrest : p.rest = Layout.entryStart (i + 2) (place != .key) ++
        (Tree.entryText (i + 2) (.ofText k.toList) (.ofValue t.value) ++
          (Layout.entriesFrom (i + 2) false (Layout.ofEntries (Tree.values rest)) ++
            (newLine column' ++ next))) := by
      have hline : Layout.after i column place (.ofValue (Tree.mapping ((k, t) :: rest)).value) =
          Layout.entriesFrom (i + 2) (place != .key && true)
            (Layout.ofEntries (Tree.values ((k, t) :: rest))) := rfl
      rw [hrest, hline, Bool.and_true, Tree.values, Layout.ofEntries, Tree.entriesFrom_cons,
        List.append_assoc, List.append_assoc]
      rfl
    have hheight : (Tree.mapping ((k, t) :: rest)).height =
        Tree.heightOfEntries ((k, t) :: rest) + 1 := rfl
    obtain ⟨q, hq, hqcolumn, hstart⟩ :=
      leads_entryStart hitem hplace (starts_entryText (i + 2) k.toList _ _).1 hrest
    have hopen : Opens (i + 2) ts (i : Int) o (.blockMappingStart :: ts) (i :: o) :=
      .new (Int.ofNat_lt.2 (by omega))
    obtain ⟨q', hq', hqcolumn', hall⟩ := leads_entries hentries hopen hqcolumn (by omega) hnext hmark
      (by omega) hq
    refine ⟨q', hq', hqcolumn', ?_⟩
    have htokens : (Tree.mapping ((k, t) :: rest)).tokens.reverse ++ ts =
        .blockEnd :: ((Tree.entryTokens ((k, t) :: rest)).reverse ++ (.blockMappingStart :: ts)) := by
      rw [Tree.tokens]
      simp
    rw [htokens]
    exact hstart.trans (hall.trans (leads_blockEnd hnext hq' (by omega)))

mutual

/-- The text of a tree is read as its tokens. -/
theorem lexes_tree (t : Tree) (h : t.WellNamed) : Lexes (.ofValue t.value) t.tokens t.height := by
  match t, h with
  | .text s, _ => exact lexes_text s.toList
  | .mapping entries, h => exact lexes_mapping (lexes_entries entries h.2)

theorem lexes_entries (entries : List (String × Tree)) (h : Tree.EntriesWellNamed entries) :
    ∀ e ∈ entries, LexesEntry e := by
  match entries, h with
  | [], _ => exact nofun
  | (k, t) :: rest, h =>
    exact List.forall_mem_cons.2 ⟨⟨h.1, lexes_tree t h.2.1⟩, lexes_entries rest h.2.2⟩

end

/-! ## Whole texts -/

/-- At the end of the text the outermost dictionary is closed. -/
theorem run_end {q : Cursor} {ts : List Token} (hq : q.rest = []) (hcolumn : q.column = 0)
    (fuel : Nat) :
    run (fuel + 1) (block true q ts 0 [-1]) = .ok (block true q (.blockEnd :: ts) (-1) []) := by
  have hsettle : (block true q ts 0 [-1]).settle = .ok (block true q ts 0 [-1]) :=
    settle_block_self starts_nil hq (by rw [hcolumn]; decide)
  have hrest : (block true q ts 0 [-1]).cursor.rest = [] := hq
  rw [run_succ, hsettle]
  simp only [bind, Except.bind, hrest]
  rw [unwind_block (by decide)]
  rfl

end Lexer

namespace Tree

/-- The lexer reads the tokens of a dictionary from what the printer writes for it. -/
theorem ofText_printEntries {k : String} {t : Tree} {rest : List (String × Tree)}
    (h : (mapping ((k, t) :: rest)).WellNamed)
    (hheight : 2 * heightOfEntries ((k, t) :: rest) + 1 ≤ width) :
    Token.ofText (printEntries (values ((k, t) :: rest))).toList =
      .ok (mapping ((k, t) :: rest)).tokens := by
  have hentries := Lexer.lexes_entries _ h.2
  obtain ⟨body, hbody⟩ : ∃ body, body = entryText 0 (.ofText k.toList) (.ofValue t.value) ++
      (Layout.entriesFrom 0 false (Layout.ofEntries (values rest)) ++ (newLine 0 ++ [])) := ⟨_, rfl⟩
  have hprinted : (printEntries (values ((k, t) :: rest))).toList = body := by
    have hline : Layout.entriesFrom 0 false (Layout.ofEntries (values ((k, t) :: rest))) =
        newLine 0 ++ (entryText 0 (.ofText k.toList) (.ofValue t.value) ++
          Layout.entriesFrom 0 false (Layout.ofEntries (values rest))) := entriesFrom_cons ..
    rw [values, printEntries, String.toList_ofList]
    · rw [← values, hline, hbody]
      simp [newLine]
    · intro hempty
      cases hempty
  have hclean : IsCleanText body := by
    rw [hbody]
    exact isCleanText_append.2 ⟨isCleanText_entryText _ fun _ _ => isCleanText_after t _ _ _,
      isCleanText_append.2 ⟨isCleanText_entriesFrom rest 0 false, isCleanText_newLine 0⟩⟩
  have hallowed : body.all isAllowed = true := List.all_eq_true.2 fun c hc => (hclean c hc).1
  have hopen : Lexer.Opens 0 [] (-1) [] [.blockMappingStart] [-1] := .new (by decide)
  obtain ⟨q, hq, hqcolumn, n, hn, hrun⟩ := Lexer.leads_entries hentries hopen (p := { rest := body })
    rfl (Nat.le_refl 0) starts_nil rfl (by omega) hbody
  have hn : n ≤ body.length := (Nat.le_add_right _ _).trans hn
  have hread : Lexer.run (body.length + 1) { cursor := { rest := body } } = .ok (Lexer.block true q
      (.blockEnd :: ((entryTokens ((k, t) :: rest)).reverse ++ [.blockMappingStart])) (-1) []) := by
    have hfuel : body.length + 1 = body.length - n + 1 + n := by omega
    rw [hfuel]
    exact (hrun _).trans (Lexer.run_end hq hqcolumn _)
  rw [hprinted, Token.ofText, Text.chars?_of_unmarked fun c hc => (hclean c hc).2]
  simp only [hallowed, hread]
  simp [tokens, Lexer.block, pure, Except.pure, bind, Except.bind]

end Tree

end ViewFinder.Yaml
