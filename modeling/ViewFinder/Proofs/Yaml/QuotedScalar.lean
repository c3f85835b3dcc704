import ViewFinder.Proofs.Text.Points
import ViewFinder.Proofs.Yaml.PlainScalar

/-!
# Quoted scalars

`Scalar.Reads` says what a text after an opening quote reads as; it has one lemma for each thing that
can stand there. From these, what is written between apostrophes is read back run by run
(`Scalar.reads_singleRuns`). Only a next-line character is lost that way, as it reads as a line feed
(`Scalar.readRun`).
-/

namespace ViewFinder.Yaml

namespace Traits

variable {first second : Char → Bool}

theorem adjacent_cons (a : Char) {s : List Char} (h : adjacent first second s = true) :
    adjacent first second (a :: s) = true := by
  cases s with
  | nil => cases h
  | cons b rest => rw [adjacent, h, Bool.or_true]

theorem adjacent_append (u : List Char) {v : List Char} (h : adjacent first second v = true) :
    adjacent first second (u ++ v) = true := by
  induction u with
  | nil => exact h
  | cons a u ih => exact adjacent_cons a ih

theorem adjacent_of_append {u v : List Char} (h : adjacent first second (u ++ v) = false) :
    adjacent first second v = false := by
  refine Bool.eq_false_iff.2 fun hv => ?_
  rw [adjacent_append u hv] at h
  cases h

/-- The last character of a text and the first of the next one are adjacent. -/
theorem adjacent_boundary {u v : List Char} {a b : Char} (ha : u.getLast? = some a)
    (hb : v.head? = some b) (hfirst : first a = true) (hsecond : second b = true) :
    adjacent first second (u ++ v) = true := by
  obtain ⟨u, rfl⟩ := List.getLast?_eq_some_iff.1 ha
  obtain ⟨v, rfl⟩ := List.head?_eq_some_iff.1 hb
  rw [List.append_assoc]
  refine adjacent_append u ?_
  rw [List.singleton_append, adjacent, hfirst, hsecond]
  rfl

end Traits

/-! ## Texts that allow apostrophes -/

/-- What lets the printer write a text between apostrophes. -/
structure IsSingle (s : List Char) : Prop where
  ordinary : ∀ c ∈ s, Traits.isOrdinary c = true
  notIndented : Traits.adjacent isLineFeed (· == ' ') s = false
  notTrailing : Traits.adjacent (· == ' ') isLineFeed s = false

namespace IsSingle

theorem of_allowsSingle {s : List Char} (h : (Traits.of s).allowsSingle = true) : IsSingle s := by
  simp only [Traits.allowsSingle, Traits.of, Bool.not_eq_true', Bool.or_eq_false_iff] at h
  obtain ⟨⟨hspecial, hindented⟩, htrailing⟩ := h
  exact ⟨List.all_eq_true.1 (by simpa using hspecial), hindented, htrailing⟩

theorem right {u v : List Char} (h : IsSingle (u ++ v)) : IsSingle v :=
  ⟨(List.forall_mem_append.1 h.ordinary).2, Traits.adjacent_of_append h.notIndented,
    Traits.adjacent_of_append h.notTrailing⟩

/-- After a run of blanks or of line breaks another kind of run follows than these two. -/
theorem dark_after {k : Kind} {run s : List Char} (h : IsSingle (run ++ s)) (hne : run ≠ [])
    (hrun : ∀ c ∈ run, kind c = k) (hnext : ∀ c ∈ s.head?, kind c ≠ k) (hk : k ≠ .dark) :
    ∀ c ∈ s.head?, kind c = .dark := by
  intro c hc
  have ha := List.getLast?_eq_some_getLast hne
  have hlast : kind (run.getLast hne) = k := hrun _ (List.getLast_mem hne)
  have hother := hnext c hc
  cases hcase : kind c with
  | dark => rfl
  | blank =>
    cases k with
    | dark => exact absurd rfl hk
    | blank => exact absurd hcase hother
    | feed =>
      have hblank : (c == ' ') = true := beq_iff_eq.2 (kind_eq_blank_iff.1 hcase)
      exact absurd (Traits.adjacent_boundary ha hc (kind_eq_feed_iff.1 hlast) hblank)
        (Bool.eq_false_iff.1 h.notIndented)
  | feed =>
    cases k with
    | dark => exact absurd rfl hk
    | feed => exact absurd hcase hother
    | blank =>
      have hblank : (run.getLast hne == ' ') = true := beq_iff_eq.2 (kind_eq_blank_iff.1 hlast)
      exact absurd (Traits.adjacent_boundary ha hc hblank (kind_eq_feed_iff.1 hcase))
        (Bool.eq_false_iff.1 h.notTrailing)

end IsSingle

namespace Scalar

/-- The text after an opening quote reads as `t`, up to the closing quote; the rest comes after that. -/
def Reads (double : Bool) (s t rest : List Char) : Prop :=
  ∀ fuel, s.length < fuel → quoted double fuel s = .ok (t, rest)

theorem dropWhile_blanks {s : List Char} (hs : ∀ c ∈ s.head?, Solid c) (n : Nat) :
    (List.replicate n ' ' ++ s).dropWhile isBlank = s := by
  have hblanks : ∀ c ∈ List.replicate n ' ', isBlank c = true := fun c hc => by
    rw [List.eq_of_mem_replicate hc]
    rfl
  rw [List.dropWhile_append_of_pos hblanks]
  cases s with
  | nil => rfl
  | cons c s => exact List.dropWhile_cons_of_neg (Bool.eq_false_iff.1 (hs c rfl).1)

/-- Blanks with no line break after them. -/
theorem quoted_blanks {c : Char} (hc : isBlank c = true) {s : List Char}
    (hline : lineBreak? (s.dropWhile isBlank) = none) (double : Bool) (fuel : Nat) :
    quoted double (fuel + 1) (c :: s) =
      prepend (c :: s.takeWhile isBlank) (quoted double fuel (s.dropWhile isBlank)) := by
  have hquote : c ≠ '"' := by rintro rfl; cases hc
  have happostrophe : c ≠ '\'' := by rintro rfl; cases hc
  have hbackslash : c ≠ '\\' := by rintro rfl; cases hc
  have hspan : (c :: s).span isBlank = (c :: s.takeWhile isBlank, s.dropWhile isBlank) := by
    rw [List.span_eq_takeWhile_dropWhile, List.takeWhile_cons_of_pos hc, List.dropWhile_cons_of_pos hc]
  cases double <;> simp only [quoted, hspan, hline] <;> simp [hquote, happostrophe, hbackslash, hc]

namespace Reads

variable {double : Bool} {s t rest : List Char}

/-- The fuel is spent one character at a time. -/
theorem of_cons {c : Char}
    (h : ∀ fuel, s.length < fuel → quoted double (fuel + 1) (c :: s) = .ok (t, rest)) :
    Reads double (c :: s) t rest := by
  intro fuel hfuel
  rw [List.length_cons] at hfuel
  obtain ⟨fuel, rfl⟩ := Nat.exists_eq_succ_of_ne_zero (Nat.ne_zero_of_lt hfuel)
  exact h fuel (Nat.lt_of_succ_lt_succ hfuel)

theorem close_single (h : rest.head? ≠ some '\'') : Reads false ('\'' :: rest) [] rest := by
  refine of_cons fun fuel _ => ?_
  rw [quoted]
  · rfl
  · rintro rest rfl
    exact h rfl

theorem close_double : Reads true ('"' :: rest) [] rest := of_cons fun _ _ => rfl

/-- An apostrophe that is written twice. -/
theorem apostrophe (h : Reads false s t rest) :
    Reads false ('\'' :: '\'' :: s) ('\'' :: t) rest := by
  refine of_cons fun fuel hfuel => ?_
  rw [quoted, h fuel (Nat.lt_of_succ_lt hfuel)]
  rfl

section
variable (h : Reads double s t rest)
include h

/-- A character that stands for itself. -/
theorem char {c : Char} (hsolid : Solid c) (hdouble : double → c ≠ '"' ∧ c ≠ '\\')
    (hsingle : double = false → c ≠ '\'') :
    Reads double (c :: s) (Text.ofPoint c.toNat ++ t) rest := by
  refine of_cons fun fuel hfuel => ?_
  obtain ⟨hblank, hbreak⟩ := hsolid
  cases double with
  | true => simp [quoted, hdouble rfl, hblank, hbreak, h fuel hfuel, prepend, Except.map]
  | false => simp [quoted, hsingle rfl, hblank, hbreak, h fuel hfuel, prepend, Except.map]

/-- A blank, if the line does not end after it. -/
theorem blank (hline : lineBreak? (s.dropWhile isBlank) = none) :
    Reads double (' ' :: s) (' ' :: t) rest := by
  refine of_cons fun fuel hfuel => ?_
  rw [quoted_blanks rfl hline]
  cases s with
  | nil =>
    rw [List.takeWhile_nil, List.dropWhile_nil, h fuel hfuel]
    rfl
  | cons c s =>
    by_cases hc : isBlank c = true
    · -- Blanks are read together: those after the first one have been read already.
      rw [List.dropWhile_cons_of_pos hc] at hline ⊢
      have hread := h (fuel + 1) (Nat.lt_succ_of_lt hfuel)
      rw [quoted_blanks hc hline] at hread
      rw [List.takeWhile_cons_of_pos hc]
      cases hrest : quoted double fuel (s.dropWhile isBlank) with
      | error e =>
        rw [hrest] at hread
        cases hread
      | ok r =>
        rw [hrest] at hread
        cases hread
        rfl
    · rw [List.takeWhile_cons_of_neg hc, List.dropWhile_cons_of_neg hc, h fuel hfuel]
      rfl

/-- Some blanks before a character that is none. -/
theorem blanks (hs : ∀ c ∈ s.head?, Solid c) (n : Nat) :
    Reads double (List.replicate n ' ' ++ s) (List.replicate n ' ' ++ t) rest := by
  induction n with
  | zero => exact h
  | succ n ih =>
    rw [List.replicate_succ, List.cons_append, List.cons_append]
    refine ih.blank ?_
    rw [dropWhile_blanks hs]
    exact lineBreak?_eq_none fun c hc => (hs c hc).2

/-- The end of a line, with those of empty lines after it. -/
theorem line {c first : Char} {after more : List Char} (hc : isBreak c = true)
    (hfirst : lineBreak? (c :: after) = some (first, after))
    (hmore : quotedBreaks (after.length + 1) after = .ok (more, s)) (hlength : s.length ≤ after.length) :
    Reads double (c :: after) (folded first more ++ t) rest := by
  refine of_cons fun fuel hfuel => ?_
  have hspace : c ≠ ' ' := by rintro rfl; cases hc
  have htab : c ≠ '\t' := by rintro rfl; cases hc
  have hblank : isBlank c = false := by simp [isBlank, hspace, htab]
  have hquote : c ≠ '"' := by rintro rfl; cases hc
  have happostrophe : c ≠ '\'' := by rintro rfl; cases hc
  have hbackslash : c ≠ '\\' := by rintro rfl; cases hc
  have hspan : (c :: after).span isBlank = ([], c :: after) := by
    rw [List.span_eq_takeWhile_dropWhile, List.takeWhile_cons_of_neg (by simp [hblank]),
      List.dropWhile_cons_of_neg (by simp [hblank])]
  have hread := h fuel (Nat.lt_of_le_of_lt hlength hfuel)
  cases double <;> simp only [quoted, hspan, hfirst, hmore] <;>
    simp [hquote, happostrophe, hbackslash, hc, hread, prepend, Except.map, bind, Except.bind]

end

/-- An escape. -/
theorem escape {cs after : List Char} (h : Reads true s t rest)
    (hescaped : escaped after.length after = .ok (cs, s)) (hlength : s.length ≤ after.length) :
    Reads true ('\\' :: after) (cs ++ t) rest := by
  refine of_cons fun fuel hfuel => ?_
  have hread := h fuel (Nat.lt_of_le_of_lt hlength hfuel)
  simp [quoted, hescaped, hread, prepend, Except.map, bind, Except.bind]

end Reads

/-! ## Line breaks -/

/-- A line break as it is read. -/
def readFeed (c : Char) : Char := if c == '\x85' then '\n' else c

section
variable {c : Char} (hc : isLineFeed c = true)
include hc

theorem lineFeed_cases : c = '\n' ∨ c = '\x85' ∨ c = '\u2028' ∨ c = '\u2029' := by
  simpa [isLineFeed, or_assoc] using hc

theorem isBreak_of_isLineFeed : isBreak c = true := by
  rcases lineFeed_cases hc with rfl | rfl | rfl | rfl <;> rfl

theorem lineBreak?_of_isLineFeed (s : List Char) :
    lineBreak? (c :: s) = some (readFeed c, s) := by
  rcases lineFeed_cases hc with rfl | rfl | rfl | rfl <;> rfl

end

theorem quotedBreaks_blanks {s : List Char} {indent : Nat} (hindent : 0 < indent)
    (hs : ∀ c ∈ s.head?, Solid c) (fuel : Nat) :
    quotedBreaks (fuel + 1) (List.replicate indent ' ' ++ s) = .ok ([], s) := by
  simp [quotedBreaks, isDocumentMark_blanks hindent, dropWhile_blanks hs,
    lineBreak?_eq_none fun c hc => (hs c hc).2]

/-- The line breaks of a run, before an indented line. -/
theorem quotedBreaks_run {run s : List Char} {indent fuel : Nat}
    (hrun : ∀ c ∈ run, isLineFeed c = true) (hindent : 0 < indent) (hs : ∀ c ∈ s.head?, Solid c)
    (hfuel : run.length < fuel) :
    quotedBreaks fuel (run ++ (List.replicate indent ' ' ++ s)) = .ok (run.map readFeed, s) := by
  induction run generalizing fuel with
  | nil =>
    obtain ⟨fuel, rfl⟩ := Nat.exists_eq_succ_of_ne_zero (Nat.ne_zero_of_lt hfuel)
    exact quotedBreaks_blanks hindent hs fuel
  | cons c run ih =>
    obtain ⟨fuel, rfl⟩ := Nat.exists_eq_succ_of_ne_zero (Nat.ne_zero_of_lt hfuel)
    obtain ⟨hc, hrun⟩ := List.forall_mem_cons.1 hrun
    have hmark : isDocumentMark (c :: (run ++ (List.replicate indent ' ' ++ s))) = false := by
      rcases lineFeed_cases hc with rfl | rfl | rfl | rfl <;> rfl
    have hdrop : (c :: (run ++ (List.replicate indent ' ' ++ s))).dropWhile isBlank =
        c :: (run ++ (List.replicate indent ' ' ++ s)) := by
      rcases lineFeed_cases hc with rfl | rfl | rfl | rfl <;> rfl
    rw [List.cons_append, quotedBreaks]
    simp only [hmark, hdrop, lineBreak?_of_isLineFeed hc, ih hrun (Nat.lt_of_succ_lt_succ hfuel)]
    rfl

/-! ## Between apostrophes -/

/-- What a run is read back as: a next-line character is a line feed, and the first of the line breaks
folds, if the printer did not write another one before it. -/
def readRun (run : List Char) : List Char :=
  match run with
  | '\x85' :: more => folded '\n' (more.map readFeed)
  | run => run.map readFeed

theorem map_readFeed_eq {run : List Char} (h : ∀ c ∈ run, c ≠ '\x85') : run.map readFeed = run := by
  have hsame : ∀ c ∈ run, readFeed c = id c := fun c hc => if_neg (by simpa using h c hc)
  rw [List.map_congr_left hsame, List.map_id]

theorem readRun_eq {run : List Char} (h : ∀ c ∈ run, c ≠ '\x85') : readRun run = run := by
  rw [readRun]
  · exact map_readFeed_eq h
  · rintro more rfl
    exact h _ (List.mem_cons_self ..) rfl

theorem readRun_of_not_feed {run : List Char} (h : ∀ c ∈ run, isLineFeed c = false) :
    readRun run = run :=
  readRun_eq fun c hc heq => by cases heq ▸ h c hc

namespace Reads

variable {s t rest : List Char} (h : Reads false s t rest)
include h

/-- A run of characters that are neither blanks nor line breaks. -/
theorem dark {run : List Char} (hrun : ∀ c ∈ run, Solid c ∧ c ≠ Text.mark) :
    Reads false (doubleApostrophes run ++ s) (run ++ t) rest := by
  induction run with
  | nil => exact h
  | cons c run ih =>
    obtain ⟨⟨hsolid, hmark⟩, hmore⟩ := List.forall_mem_cons.1 hrun
    by_cases hc : c = '\''
    · subst hc
      exact (ih hmore).apostrophe
    · have hread := (ih hmore).char hsolid (fun h => by cases h) fun _ => hc
      rw [Text.ofPoint_toNat hmark] at hread
      rw [doubleApostrophes, List.flatMap_cons, if_neg (by simpa using hc)]
      exact hread

/-- A run of line breaks, before an indented line. -/
theorem feeds {run : List Char} (hrun : ∀ c ∈ run, isLineFeed c = true) (hne : run ≠ [])
    {indent : Nat} (hindent : 0 < indent) (hs : ∀ c ∈ s.head?, Solid c) :
    Reads false (Yaml.quotedBreaks run ++ List.replicate indent ' ' ++ s) (readRun run ++ t) rest := by
  have hline (c : Char) (more : List Char) (hc : isLineFeed c = true)
      (hmore : ∀ d ∈ more, isLineFeed d = true) :
      Reads false (c :: (more ++ (List.replicate indent ' ' ++ s)))
        (folded (readFeed c) (more.map readFeed) ++ t) rest := by
    have hlength : more.length < (more ++ (List.replicate indent ' ' ++ s)).length + 1 := by
      rw [List.length_append]
      omega
    refine h.line (isBreak_of_isLineFeed hc) (lineBreak?_of_isLineFeed hc _)
      (quotedBreaks_run hmore hindent hs hlength) ?_
    rw [List.length_append, List.length_append]
    omega
  obtain ⟨c, more, rfl⟩ := List.exists_cons_of_ne_nil hne
  obtain ⟨hc, hmore⟩ := List.forall_mem_cons.1 hrun
  rw [List.append_assoc]
  rcases lineFeed_cases hc with rfl | rfl | rfl | rfl
  -- A line feed is doubled, and the first of several folds.
  · exact hline '\n' ('\n' :: more) hc hrun
  all_goals exact hline _ more hc hmore

end Reads

section
variable {run : List Char} (hne : run ≠ []) (indent : Nat) (fold first : Bool) (column : Nat)
  (rs : List (List Char))
include hne

theorem singleRuns_dark (hrun : ∀ c ∈ run, kind c = .dark) :
    singleRuns indent fold first column (run :: rs) = doubleApostrophes run ++
      singleRuns indent fold false (column + (doubleApostrophes run).length) rs := by
  obtain ⟨c, run, rfl⟩ := List.exists_cons_of_ne_nil hne
  obtain ⟨hblank, hfeed⟩ := kind_eq_dark_iff.1 (hrun c (List.mem_cons_self ..))
  simp [singleRuns, hblank, hfeed]

theorem singleRuns_feed (hrun : ∀ c ∈ run, kind c = .feed) :
    singleRuns indent fold first column (run :: rs) =
      Yaml.quotedBreaks run ++ List.replicate indent ' ' ++
        singleRuns indent fold false indent rs := by
  obtain ⟨c, run, rfl⟩ := List.exists_cons_of_ne_nil hne
  have hfeed := kind_eq_feed_iff.1 (hrun c (List.mem_cons_self ..))
  have hblank : c ≠ ' ' := by rintro rfl; cases hfeed
  simp [singleRuns, hblank, hfeed]

end

theorem doubleApostrophes_blanks (n : Nat) :
    doubleApostrophes (List.replicate n ' ') = List.replicate n ' ' := by
  induction n with
  | zero => rfl
  | succ n ih =>
    rw [doubleApostrophes] at ih
    rw [List.replicate_succ, doubleApostrophes, List.flatMap_cons, ih]
    rfl

/-- A run of blanks is written as it is, unless a single one becomes a new line. -/
theorem singleRuns_blank (n indent : Nat) (fold first : Bool) (column : Nat)
    (rs : List (List Char)) :
    (∃ column', singleRuns indent fold first column (List.replicate (n + 1) ' ' :: rs) =
      List.replicate (n + 1) ' ' ++ singleRuns indent fold false column' rs) ∨
    n = 0 ∧ singleRuns indent fold first column (List.replicate (n + 1) ' ' :: rs) =
      newLine indent ++ singleRuns indent fold false indent rs := by
  rw [singleRuns]
  split
  · next hfold =>
    refine .inr ⟨?_, rfl⟩
    simp only [Bool.and_eq_true, beq_iff_eq] at hfold
    have hone := congrArg List.length hfold.1.1.1.1
    rw [List.length_replicate] at hone
    exact Nat.succ.inj hone
  · refine .inl ⟨column + (List.replicate (n + 1) ' ').length, ?_⟩
    rw [doubleApostrophes_blanks]
    rfl

theorem head_singleRuns {s : List Char} {rs : List (List Char)} (h : Runs s rs)
    (hordinary : ∀ c ∈ s, Traits.isOrdinary c = true) (hdark : ∀ c ∈ s.head?, kind c = .dark)
    (indent : Nat) (fold first : Bool) (column : Nat) (rest : List Char) :
    ∀ c ∈ (singleRuns indent fold first column rs ++ '\'' :: rest).head?, Solid c := by
  cases h with
  | nil =>
    rintro c ⟨⟩
    exact ⟨rfl, rfl⟩
  | @cons k run s rs hne hrun =>
    obtain ⟨d, run, rfl⟩ := List.exists_cons_of_ne_nil hne
    obtain rfl : k = .dark := (hrun d (List.mem_cons_self ..)).symm.trans (hdark d rfl)
    rw [singleRuns_dark hne indent fold first column rs hrun]
    intro c hc
    have hcd : c = d := by
      by_cases hd : d = '\'' <;> simp [doubleApostrophes, hd] at hc
      · exact hc ▸ hd.symm
      · exact hc.symm
    exact hcd ▸ Traits.solid_of_dark (hordinary d (List.mem_cons_self ..))
      (hrun d (List.mem_cons_self ..))

/-- What is written between apostrophes is read back run by run, if no blank is next to a line
break. -/
theorem reads_singleRuns {s : List Char} {rs : List (List Char)} (h : Runs s rs)
    (hsingle : IsSingle s) {indent : Nat} (hindent : 0 < indent) {rest : List Char}
    (hrest : rest.head? ≠ some '\'') (fold first : Bool) (column : Nat) :
    Reads false (singleRuns indent fold first column rs ++ '\'' :: rest) (rs.flatMap readRun) rest := by
  induction h generalizing first column with
  | nil => exact .close_single hrest
  | @cons k run s rs hne hrun hnext hruns ih =>
    have hordinary := (List.forall_mem_append.1 hsingle.ordinary).1
    have ih := ih hsingle.right
    rw [List.flatMap_cons]
    have hhead (hk : k ≠ .dark) (column : Nat) :
        ∀ c ∈ (singleRuns indent fold false column rs ++ '\'' :: rest).head?, Solid c :=
      head_singleRuns hruns hsingle.right.ordinary (hsingle.dark_after hne hrun hnext hk) indent fold
        false column rest
    cases k with
    | dark =>
      have hsolid : ∀ c ∈ run, Solid c ∧ c ≠ Text.mark := fun c hc =>
        ⟨Traits.solid_of_dark (hordinary c hc) (hrun c hc), by rintro rfl; cases hordinary _ hc⟩
      rw [singleRuns_dark hne indent fold first column rs hrun, List.append_assoc,
        readRun_of_not_feed fun c hc => (kind_eq_dark_iff.1 (hrun c hc)).2]
      exact (ih false _).dark hsolid
    | blank =>
      obtain ⟨n, hn⟩ := Nat.exists_eq_succ_of_ne_zero (mt List.length_eq_zero_iff.1 hne)
      obtain rfl : run = List.replicate (n + 1) ' ' :=
        List.eq_replicate_iff.2 ⟨hn, fun c hc => kind_eq_blank_iff.1 (hrun c hc)⟩
      rw [readRun_of_not_feed fun c hc => by rw [List.eq_of_mem_replicate hc]; rfl]
      rcases singleRuns_blank n indent fold first column rs with ⟨column', heq⟩ | ⟨rfl, heq⟩
      · rw [heq, List.append_assoc]
        exact (ih false _).blanks (hhead (by decide) _) (n + 1)
      · -- A new line folds into the blank that it was written for.
        rw [heq, newLine, List.append_assoc, List.cons_append]
        refine (ih false indent).line (c := '\n') rfl rfl
          (quotedBreaks_blanks hindent (hhead (by decide) indent) _) ?_
        exact (List.suffix_append _ _).length_le
    | feed =>
      rw [singleRuns_feed hne indent fold first column rs hrun, List.append_assoc]
      exact (ih false indent).feeds (fun c hc => kind_eq_feed_iff.1 (hrun c hc)) hne hindent
        (hhead (by decide) indent)

end Scalar

end ViewFinder.Yaml
