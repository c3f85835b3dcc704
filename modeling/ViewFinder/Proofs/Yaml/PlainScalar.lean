import ViewFinder.Proofs.Yaml.Runs
import ViewFinder.Yaml.Token.Scalar

/-!
# Plain scalars

A text that the printer leaves without quotes is read back as it was (`Scalar.plain_plainRuns`): it is
made of words with blanks between them (`Words`), none of which reads as structure, and a new line
in the place of a blank reads as that blank. A plain scalar has no mark of its end, it is over before a
colon that ends a key or where a line is indented too little (`Scalar.Ends`).
-/

namespace ViewFinder.Yaml

/-- A character that is neither a blank nor a line break. -/
def Solid (c : Char) : Prop := isBlank c = false ∧ isBreak c = false

section
variable {s : List Char}

theorem lineBreak?_eq_none (h : ∀ c ∈ s.head?, isBreak c = false) : lineBreak? s = none := by
  cases s with
  | nil => rfl
  | cons c rest =>
    have hc : isBreak c = false := h c rfl
    have hreturn : c ≠ '\r' := by rintro rfl; cases hc
    have hline : c ≠ '\u2028' := by rintro rfl; cases hc
    have hparagraph : c ≠ '\u2029' := by rintro rfl; cases hc
    rw [lineBreak?]
    · simp [hline, hparagraph, hc]
    · exact fun rest heq _ => hreturn heq

theorem isGap_eq_false (hne : s ≠ []) (h : ∀ c ∈ s.head?, Solid c) : isGap s = false := by
  obtain ⟨c, rest, rfl⟩ := List.exists_cons_of_ne_nil hne
  obtain ⟨hblank, hbreak⟩ := h c rfl
  rw [isGap, hblank, hbreak]
  rfl

/-- The blanks at the start of a text, up to a character that is none. -/
theorem span_blanks (n : Nat) (h : ∀ c ∈ s.head?, isBlank c = false) :
    (List.replicate n ' ' ++ s).span (· == ' ') = (List.replicate n ' ', s) := by
  have hblanks : ∀ c ∈ List.replicate n ' ', (c == ' ') = true := fun c hc =>
    beq_iff_eq.2 (List.eq_of_mem_replicate hc)
  rw [List.span_eq_takeWhile_dropWhile, List.takeWhile_append_of_pos hblanks,
    List.dropWhile_append_of_pos hblanks]
  cases s with
  | nil => simp
  | cons c rest =>
    have hc : (c == ' ') = false := (Bool.or_eq_false_iff.1 (h c rfl)).1
    simp [hc]

/-- A line with blanks at its start separates no documents. -/
theorem isDocumentMark_blanks {n : Nat} (hn : 0 < n) :
    isDocumentMark (List.replicate n ' ' ++ s) = false := by
  obtain ⟨n, rfl⟩ := Nat.exists_eq_succ_of_ne_zero hn.ne'
  rfl

end

/-! ## Words -/

/-- A word of a plain text. -/
structure IsWord (w : List Char) : Prop where
  ne_nil : w ≠ []
  solid : ∀ c ∈ w, Solid c
  /-- A colon at its end would make it a key. -/
  noColon : w.getLast? ≠ some ':'

/-- The runs of a plain text: words, and blanks between them. A word after blanks does not start a
comment. -/
inductive Words : List Char → List (List Char) → Prop
  | last {w : List Char} (hword : IsWord w) : Words w [w]
  | more {w s : List Char} {rs : List (List Char)} {n : Nat} (hword : IsWord w)
    (hmark : s.head? ≠ some '#') (hrest : Words s rs) :
    Words (w ++ (List.replicate (n + 1) ' ' ++ s)) (w :: List.replicate (n + 1) ' ' :: rs)

namespace IsWord

variable {w : List Char} (h : IsWord w)
include h

theorem ne_blank : w ≠ [' '] := by
  rintro rfl
  cases (h.solid ' ' (List.mem_singleton_self _)).1

theorem head_solid (s : List Char) : ∀ c ∈ (w ++ s).head?, Solid c := by
  intro c hc
  obtain ⟨d, w, rfl⟩ := List.exists_cons_of_ne_nil h.ne_nil
  exact h.solid c (List.mem_of_mem_head? hc)

theorem plainRuns_cons (indent : Nat) (fold : Bool) (column : Nat) (rs : List (List Char)) :
    plainRuns indent fold column (w :: rs) =
      w ++ plainRuns indent fold (column + w.length) rs := by
  rw [plainRuns, beq_eq_false_iff_ne.2 h.ne_blank]
  rfl

end IsWord

namespace Words

variable {s : List Char} {rs : List (List Char)}

/-- The first word. -/
theorem exists_head (h : Words s rs) :
    ∃ w s' rs', s = w ++ s' ∧ rs = w :: rs' ∧ IsWord w := by
  cases h with
  | last hword => exact ⟨_, [], _, (List.append_nil _).symm, rfl, hword⟩
  | more hword => exact ⟨_, _, _, rfl, rfl, hword⟩

/-- What is written starts like the text. -/
theorem head_plainRuns (h : Words s rs) (indent : Nat) (fold : Bool) (column : Nat)
    (tail : List Char) : (plainRuns indent fold column rs ++ tail).head? = s.head? := by
  obtain ⟨w, s', rs', rfl, rfl, hword⟩ := h.exists_head
  obtain ⟨c, w, rfl⟩ := List.exists_cons_of_ne_nil hword.ne_nil
  rw [hword.plainRuns_cons]
  rfl

theorem head_solid (h : Words s rs) : ∀ c ∈ s.head?, Solid c := by
  obtain ⟨w, s', rs', rfl, rfl, hword⟩ := h.exists_head
  exact hword.head_solid s'

theorem ne_nil (h : Words s rs) : s ≠ [] := by
  obtain ⟨w, s', rs', rfl, rfl, hword⟩ := h.exists_head
  exact List.append_ne_nil_of_left_ne_nil hword.ne_nil s'

end Words

/-! ## Reading words -/

namespace Scalar

/-- A colon inside a word is followed by another character of the word. -/
theorem isGap_after_colon {c : Char} {w : List Char} (hsolid : ∀ d ∈ w, Solid d)
    (hcolon : (c :: w).getLast? ≠ some ':') (rest : List Char) :
    (c == ':' && isGap (w ++ rest)) = false := by
  refine Bool.and_eq_false_imp.2 fun hc => ?_
  have hne : w ≠ [] := by
    rintro rfl
    exact hcolon (by rw [beq_iff_eq.1 hc]; rfl)
  obtain ⟨d, w, rfl⟩ := List.exists_cons_of_ne_nil hne
  exact isGap_eq_false (List.cons_ne_nil _ _) fun e he =>
    Option.mem_some_iff.1 he ▸ hsolid d (List.mem_cons_self ..)

theorem plainWord_append {w rest : List Char} (hsolid : ∀ c ∈ w, Solid c)
    (hcolon : w.getLast? ≠ some ':') (hrest : plainWord false rest = ([], rest)) :
    plainWord false (w ++ rest) = (w, rest) := by
  induction w with
  | nil => exact hrest
  | cons c w ih =>
    obtain ⟨⟨hblank, hbreak⟩, hw⟩ := List.forall_mem_cons.1 hsolid
    have hread : plainWord false (w ++ rest) = (w, rest) := by
      refine ih hw fun hlast => hcolon ?_
      rw [List.getLast?_cons, hlast]
      rfl
    simp [plainWord, hblank, hbreak, isGap_after_colon hw hcolon, hread]

theorem plainWord_ne_nil {w : List Char} (hword : IsWord w) (rest : List Char) :
    (plainWord false (w ++ rest)).1 ≠ [] := by
  obtain ⟨c, w, rfl⟩ := List.exists_cons_of_ne_nil hword.ne_nil
  obtain ⟨⟨hblank, hbreak⟩, hw⟩ := List.forall_mem_cons.1 hword.solid
  simp [plainWord, hblank, hbreak, isGap_after_colon hw hword.noColon]

theorem plainBreaks_blanks {s : List Char} (hs : ∀ c ∈ s.head?, Solid c) {n fuel : Nat}
    (hfuel : n < fuel) (column : Nat) :
    plainBreaks column fuel (List.replicate n ' ' ++ s) = (false, [], column + n, s) := by
  induction n generalizing fuel column with
  | zero =>
    obtain ⟨fuel, rfl⟩ := Nat.exists_eq_succ_of_ne_zero (Nat.ne_zero_of_lt hfuel)
    rw [List.replicate_zero, List.nil_append, plainBreaks]
    · rw [lineBreak?_eq_none fun c hc => (hs c hc).2]
      rfl
    · rintro rest rfl
      cases (hs ' ' rfl).1
  | succ n ih =>
    obtain ⟨fuel, rfl⟩ := Nat.exists_eq_succ_of_ne_zero (Nat.ne_zero_of_lt hfuel)
    rw [List.replicate_succ, List.cons_append, plainBreaks, ih (Nat.lt_of_succ_lt_succ hfuel),
      Nat.add_right_comm, Nat.add_assoc]

section
variable {s : List Char} (hs : ∀ c ∈ s.head?, Solid c)
include hs

theorem plainSpace_blanks (n : Nat) :
    plainSpace (List.replicate (n + 1) ' ' ++ s) =
      ⟨some (List.replicate (n + 1) ' '), false, 0, s⟩ := by
  simp only [plainSpace, span_blanks (n + 1) fun c hc => (hs c hc).1,
    lineBreak?_eq_none fun c hc => (hs c hc).2]
  rfl

/-- A new line is one blank. -/
theorem plainSpace_newLine {column : Nat}
    (hmark : isDocumentMark (List.replicate column ' ' ++ s) = false) :
    plainSpace (newLine column ++ s) = ⟨some [' '], true, column, s⟩ := by
  have hspan : (newLine column ++ s).span (· == ' ') = ([], newLine column ++ s) := by
    rw [List.span_eq_takeWhile_dropWhile]
    rfl
  have hbreak : lineBreak? (newLine column ++ s) = some ('\n', List.replicate column ' ' ++ s) := rfl
  have hfuel : column < (List.replicate column ' ' ++ s).length + 1 := by
    rw [List.length_append, List.length_replicate]
    omega
  simp only [plainSpace, hspan, hbreak, hmark, plainBreaks_blanks hs hfuel]
  simp [folded]

end

/-- The ways in which a plain scalar ends in block style, with the rest of the text and whether a line
ended: before a colon that ends a key, and with the line, if the next one is indented less than
the lines of the scalar. -/
inductive Ends (least : Nat) : List Char → Bool → List Char → Prop
  | colon {after : List Char} (hgap : isGap after = true) :
    Ends least (':' :: after) false (':' :: after)
  | line {column : Nat} {next : List Char} (hcolumn : column < least)
    (hmark : isDocumentMark (List.replicate column ' ' ++ next) = false)
    (hnext : ∀ c ∈ next.head?, Solid c) : Ends least (newLine column ++ next) true next

namespace Ends

variable {least : Nat} {tail rest : List Char} {broken : Bool}

theorem plainWord_eq (h : Ends least tail broken rest) : plainWord false tail = ([], tail) := by
  cases h with
  | colon hgap => simp [plainWord, hgap]
  | line => rfl

/-- Nothing after the last word belongs to the scalar. -/
theorem plain_word (h : Ends least tail broken rest) {w : List Char} (hword : IsWord w)
    (fuel : Nat) : plain false least (fuel + 1) (w ++ tail) = (w, broken, rest) := by
  have hread := plainWord_append hword.solid hword.noColon h.plainWord_eq
  cases h with
  | @colon after hgap =>
    have hspace : plainSpace (':' :: after) = ⟨none, false, 0, ':' :: after⟩ := by
      rw [plainSpace, List.span_eq_takeWhile_dropWhile]
      rfl
    simp only [plain, hread, hspace]
  | line hcolumn hmark hnext =>
    simp only [plain, hread, plainSpace_newLine hnext hmark]
    simp [hcolumn]

end Ends

/-- A word, what stands between it and the next one, and the words after that. -/
theorem plain_more {w between s text rest : List Char} {least fuel column : Nat} {broken folded : Bool}
    (hword : IsWord w) (hstop : plainWord false between = ([], between))
    (hspace : plainSpace between = ⟨some text, folded, column, s⟩) (hcolumn : folded → least ≤ column)
    (hmark : s.head? ≠ some '#') (hnext : (plainWord false s).1 ≠ [])
    {more : List Char} (hmore : plain false least fuel s = (more, broken, rest)) :
    plain false least (fuel + 1) (w ++ between) = (w ++ (text ++ more), broken, rest) := by
  have hread := plainWord_append hword.solid hword.noColon hstop
  have hdeep : (folded && decide (column < least)) = false :=
    Bool.and_eq_false_imp.2 fun hfolded => decide_eq_false (Nat.not_lt.2 (hcolumn hfolded))
  simp only [plain, hread, hspace, hmore]
  simp [hmark, hdeep, hnext]

/-- A text that is written plain is read back, wherever a line ended. -/
theorem plain_plainRuns {least indent : Nat} (hleast : least ≤ indent) (hindent : 0 < indent)
    {tail rest : List Char} {broken : Bool} (hends : Ends least tail broken rest) {s : List Char}
    {rs : List (List Char)} (h : Words s rs) {fuel : Nat} (hfuel : rs.length ≤ fuel) (fold : Bool)
    (column : Nat) :
    plain false least fuel (plainRuns indent fold column rs ++ tail) = (s, broken, rest) := by
  induction h generalizing fuel column with
  | last hword =>
    obtain ⟨fuel, rfl⟩ := Nat.exists_eq_add_of_le' hfuel
    rw [hword.plainRuns_cons, plainRuns, List.append_nil]
    exact hends.plain_word hword fuel
  | @more w s rs n hword hmark hrest ih =>
    have hlength : rs.length + 2 ≤ fuel := hfuel
    obtain ⟨fuel, rfl⟩ := Nat.exists_eq_add_of_le' (Nat.le_trans (Nat.le_add_left 1 _) hlength)
    have hfuel : rs.length ≤ fuel := by omega
    have hsolid (column : Nat) :
        ∀ c ∈ (plainRuns indent fold column rs ++ tail).head?, Solid c := by
      rw [hrest.head_plainRuns]
      exact hrest.head_solid
    have hmark (column : Nat) : (plainRuns indent fold column rs ++ tail).head? ≠ some '#' := by
      rwa [hrest.head_plainRuns]
    have hnext (column : Nat) :
        (plainWord false (plainRuns indent fold column rs ++ tail)).1 ≠ [] := by
      obtain ⟨w, s', rs', -, rfl, hword⟩ := hrest.exists_head
      rw [hword.plainRuns_cons, List.append_assoc]
      exact plainWord_ne_nil hword _
    rw [hword.plainRuns_cons, List.append_assoc, plainRuns]
    split
    · next hfold =>
      have hone : List.replicate (n + 1) ' ' = [' '] := by
        simp only [Bool.and_eq_true, beq_iff_eq] at hfold
        exact hfold.1.1
      rw [hone, List.append_assoc]
      exact plain_more hword rfl (plainSpace_newLine (hsolid _) (isDocumentMark_blanks hindent))
        (fun _ => hleast) (hmark _) (hnext _) (ih hfuel _)
    · rw [List.append_assoc]
      exact plain_more hword rfl (plainSpace_blanks (hsolid _) n) (fun h => by cases h) (hmark _)
        (hnext _) (ih hfuel _)

end Scalar

/-! ## Texts without quotes -/

namespace Traits

/-- A character of a run that is neither of blanks nor of line breaks. -/
theorem solid_of_dark {c : Char} (hordinary : isOrdinary c = true) (hkind : kind c = .dark) :
    Solid c := by
  obtain ⟨hblank, hfeed⟩ := kind_eq_dark_iff.1 hkind
  have htab : c ≠ '\t' := by rintro rfl; cases hordinary
  have hreturn : c ≠ '\r' := by rintro rfl; cases hordinary
  simp only [isLineFeed, Bool.or_eq_false_iff, beq_eq_false_iff_ne] at hfeed
  obtain ⟨⟨⟨hline, hnext⟩, hsep⟩, hpar⟩ := hfeed
  simp [Solid, isBlank, isBreak, hblank, htab, hreturn, hline, hnext, hsep, hpar]

theorem innerIndicates_cons (a : Char) {s : List Char} (h : innerIndicates s = true) :
    innerIndicates (a :: s) = true := by
  cases s with
  | nil => cases h
  | cons b rest => rw [innerIndicates, h, Bool.or_true]

theorem innerIndicates_append (u : List Char) {v : List Char} (h : innerIndicates v = true) :
    innerIndicates (u ++ v) = true := by
  induction u with
  | nil => exact h
  | cons a u ih => exact innerIndicates_cons a ih

theorem innerIndicates_of_append {u v : List Char} (h : innerIndicates (u ++ v) = false) :
    innerIndicates v = false := by
  refine Bool.eq_false_iff.2 fun hv => ?_
  rw [innerIndicates_append u hv] at h
  cases h

theorem innerIndicates_colon (a : Char) (u : List Char) {rest : List Char}
    (h : isGap rest = true) : innerIndicates (a :: (u ++ ':' :: rest)) = true := by
  induction u generalizing a with
  | nil =>
    rw [List.nil_append, innerIndicates, h]
    rfl
  | cons b u ih => rw [List.cons_append, innerIndicates, ih b, Bool.or_true]

end Traits

open Traits

/-- A run of neither blanks nor line breaks is a word, with a blank or nothing after it, if it would not
read as structure there. -/
theorem IsWord.of_run {w s : List Char} (hw : w ≠ []) (hordinary : ∀ c ∈ w, isOrdinary c = true)
    (hrun : ∀ c ∈ w, kind c = .dark) (hblank : ∀ c ∈ s.head?, c = ' ')
    (hclear : innerIndicates (' ' :: (w ++ s)) = false) : IsWord w := by
  refine ⟨hw, fun c hc => solid_of_dark (hordinary c hc) (hrun c hc), fun hcolon => ?_⟩
  obtain ⟨u, rfl⟩ := List.getLast?_eq_some_iff.1 hcolon
  have hgap : isGap s = true := by
    cases s with
    | nil => rfl
    | cons c s =>
      rw [hblank c rfl]
      rfl
  rw [List.append_assoc, List.singleton_append, innerIndicates_colon ' ' u hgap] at hclear
  cases hclear

namespace Words

/-- A text is made of words if no line of it ends, it has no blank at an end, and it would not read as
structure after a blank. -/
theorem of_runs {s : List Char} {rs : List (List Char)} (h : Runs s rs) (hne : s ≠ [])
    (hordinary : ∀ c ∈ s, isOrdinary c = true) (hfeed : ∀ c ∈ s, isLineFeed c = false)
    (hhead : s.head? ≠ some ' ') (hlast : s.getLast? ≠ some ' ')
    (hclear : innerIndicates (' ' :: s) = false) : Words s rs := by
  induction hn : rs.length using Nat.strong_induction_on generalizing s rs with
  | _ n ih =>
  cases h with
  | nil => exact absurd rfl hne
  | @cons k w s rs hw hrun hnext hrest =>
    obtain rfl : k = .dark := by
      obtain ⟨c, w, rfl⟩ := List.exists_cons_of_ne_nil hw
      rw [← hrun c (List.mem_cons_self ..), kind_eq_dark_iff]
      exact ⟨fun heq => hhead (congrArg some heq), hfeed c (List.mem_cons_self ..)⟩
    have hblank : ∀ c ∈ s.head?, c = ' ' := by
      intro c hc
      have hkind := mt kind_eq_dark_iff.2 (hnext c hc)
      rw [hfeed c (List.mem_append_right _ (List.mem_of_mem_head? hc))] at hkind
      exact Decidable.not_not.1 fun hne => hkind ⟨hne, rfl⟩
    have hword : IsWord w :=
      .of_run hw (fun c hc => hordinary c (List.mem_append_left _ hc)) hrun hblank hclear
    cases hrest with
    | nil =>
      rw [List.append_nil]
      exact .last hword
    | @cons k' b s rs hb hrun' hnext' hrest =>
      -- What follows a word is a run of blanks, and since the text does not end there another word.
      obtain rfl : k' = .blank := by
        obtain ⟨c, b, rfl⟩ := List.exists_cons_of_ne_nil hb
        rw [← hrun' c (List.mem_cons_self ..), kind_eq_blank_iff]
        exact hblank c rfl
      obtain ⟨m, hm⟩ := Nat.exists_eq_succ_of_ne_zero (mt List.length_eq_zero_iff.1 hb)
      obtain rfl : b = List.replicate (m + 1) ' ' :=
        List.eq_replicate_iff.2 ⟨hm, fun c hc => kind_eq_blank_iff.1 (hrun' c hc)⟩
      have hne' : s ≠ [] := by
        rintro rfl
        refine hlast ?_
        rw [List.append_nil, List.replicate_succ', ← List.append_assoc, List.getLast?_concat]
      have hclear' : innerIndicates (' ' :: s) = false := by
        rw [List.replicate_succ', List.append_assoc, List.singleton_append, ← List.append_assoc,
          ← List.cons_append] at hclear
        exact innerIndicates_of_append hclear
      have hmem {c : Char} (hc : c ∈ s) : c ∈ w ++ (List.replicate (m + 1) ' ' ++ s) :=
        List.mem_append_right _ (List.mem_append_right _ hc)
      refine .more hword ?_ (ih rs.length ?_ hrest hne' (fun c hc => hordinary c (hmem hc))
        (fun c hc => hfeed c (hmem hc)) ?_ ?_ hclear' rfl)
      · intro hmark
        obtain ⟨rest, rfl⟩ := List.head?_eq_some_iff.1 hmark
        cases hclear'
      · rw [← hn, List.length_cons, List.length_cons]
        omega
      · exact fun hhead' => hnext' ' ' hhead' (kind_eq_blank_iff.2 rfl)
      · exact fun hlast' => hlast (by rw [List.getLast?_append, List.getLast?_append, hlast']; rfl)

end Words

/-- What lets the printer leave a text without quotes. -/
structure IsPlain (s : List Char) : Prop where
  noMark : Traits.startsLikeMark s = false
  noStart : Traits.startIndicates s = false
  noInner : Traits.innerIndicates s = false
  oneLine : ∀ c ∈ s, isLineFeed c = false
  ordinary : ∀ c ∈ s, Traits.isOrdinary c = true
  head : s.head? ≠ some ' '
  last : s.getLast? ≠ some ' '

theorem IsPlain.of_allowsPlain {s : List Char} (h : (Traits.of s).allowsPlain = true) :
    IsPlain s := by
  simp only [Traits.allowsPlain, Traits.of, Bool.not_eq_true', Bool.or_eq_false_iff] at h
  obtain ⟨⟨⟨⟨⟨⟨⟨hmark, hstart⟩, hinner⟩, hfeed⟩, hspecial⟩, hhead, hlast⟩, -⟩, -⟩ := h
  refine ⟨hmark, hstart, hinner, fun c hc => Bool.eq_false_iff.2 (List.any_eq_false.1 hfeed c hc),
    List.all_eq_true.1 (by simpa using hspecial), fun heq => ?_, fun heq => ?_⟩
  · rw [heq] at hhead
    cases hhead
  · rw [heq] at hlast
    cases hlast

/-- A text that the printer leaves without quotes is made of words. -/
theorem IsPlain.words {s : List Char} (h : IsPlain s) (hne : s ≠ []) : Words s (runs s.length s) := by
  refine .of_runs (runs_spec (Nat.le_refl _)) hne h.ordinary h.oneLine h.head h.last ?_
  obtain ⟨c, rest, rfl⟩ := List.exists_cons_of_ne_nil hne
  obtain ⟨hmark, hcolon⟩ := Bool.or_eq_false_iff.1 h.noStart
  have hnumber : c ≠ '#' := by rintro rfl; cases hmark
  have hkey : (c == ':' && isGap rest) = false := by
    refine Bool.and_eq_false_imp.2 fun hc => ?_
    rw [beq_iff_eq.1 hc] at hcolon
    exact hcolon
  rw [Traits.innerIndicates, hkey, h.noInner, beq_eq_false_iff_ne.2 hnumber]
  rfl

/-- Each run is written in some characters. -/
theorem Runs.length_le_plainRuns {s : List Char} {rs : List (List Char)} (h : Runs s rs)
    (indent : Nat) (fold : Bool) (column : Nat) :
    rs.length ≤ (plainRuns indent fold column rs).length := by
  induction h generalizing column with
  | nil => exact Nat.le_refl _
  | @cons k run s rs hne _ _ _ ih =>
    rw [plainRuns, List.length_cons]
    split
    · have hrest := ih indent
      rw [List.length_append, newLine, List.length_cons]
      omega
    · have hrest := ih (column + run.length)
      have hrun := List.length_pos_iff.2 hne
      rw [List.length_append]
      omega

/-- What is written starts no structure if the text does not. -/
theorem Words.startIndicates_plainRuns {s : List Char} {rs : List (List Char)} (h : Words s rs)
    (hstart : Traits.startIndicates s = false) (indent : Nat) (fold : Bool) (column : Nat)
    (tail : List Char) :
    Traits.startIndicates (plainRuns indent fold column rs ++ tail) = false := by
  have hfirst (w s : List Char) (hword : IsWord w) (hgap : isGap s = true)
      (hstart : Traits.startIndicates (w ++ s) = false) (rest : List Char) :
      Traits.startIndicates (w ++ rest) = false := by
    obtain ⟨c, w, rfl⟩ := List.exists_cons_of_ne_nil hword.ne_nil
    obtain ⟨hmark, hcolon⟩ := Bool.or_eq_false_iff.1 hstart
    refine Bool.or_eq_false_iff.2 ⟨hmark, ?_⟩
    cases w with
    | nil =>
      have hcolon : ("?:-".toList.contains c && isGap s) = false := hcolon
      rw [hgap, Bool.and_true] at hcolon
      rw [hcolon, Bool.false_and]
    | cons d w =>
      have hd : Solid d := hword.solid d (List.mem_cons_of_mem _ (List.mem_cons_self ..))
      have hsolid : isGap (d :: (w ++ rest)) = false :=
        isGap_eq_false (List.cons_ne_nil _ _) fun _ he => Option.mem_some_iff.1 he ▸ hd
      exact Bool.and_eq_false_imp.2 fun _ => hsolid
  cases h with
  | last hword =>
    rw [hword.plainRuns_cons, List.append_assoc]
    exact hfirst _ [] hword rfl (by rwa [List.append_nil]) _
  | more hword =>
    rw [hword.plainRuns_cons, List.append_assoc]
    exact hfirst _ _ hword rfl hstart _

end ViewFinder.Yaml
