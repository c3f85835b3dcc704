import ViewFinder.Proofs.Sorting.Merge

/-!
# Sorting by runs

Where all comparisons are decided, by a strict order that lets elements tie, `byRuns?` is the stable
sort `sort` (`byRuns?_eq`): each run is a part of the list, sorted (`run?_eq`, `extend?_eq`), and the
runs that wait are at all times the list seen so far, cut into parts that are sorted one by one (`Cuts`).
-/

namespace ViewFinder.Sorting

variable {α : Type} {before? : α → α → Option Bool} {before : α → α → Bool} {kind : α → Prop}

/-! ## Sorted lists -/

section
variable (hd : Decides before? before kind) {l m : List α} (hl : ∀ a ∈ l, kind a)
include hd hl

theorem ascending_sort : Ascending before kind (sort before l) :=
  ⟨fun a ha => hl a ((mem_sort before).1 ha), hd.weak.pairwise_sort l⟩

/-- Two lists that are sorted, and then merged as runs, are sorted as one. -/
theorem merge?_sort (hm : ∀ a ∈ m, kind a) (hlne : l ≠ []) (hmne : m ≠ []) (streak : Nat) :
    ∃ streak', merge? before? streak (sort before l).toArray (sort before m).toArray =
      some ((sort before (l ++ m)).toArray, streak') := by
  have hne {l : List α} (h : l ≠ []) : sort before l ≠ [] := fun heq =>
    h (List.Perm.nil_eq (heq ▸ sort_perm before l)).symm
  have heq := merge?_eq hd (ascending_sort hd hl) (ascending_sort hd hm) (hne hlne) (hne hmne) streak
  obtain ⟨⟨_, streak'⟩, hmerge, rfl⟩ := Option.map_eq_some_iff.1 heq
  exact ⟨streak', by rw [hmerge, merged_sort hd.weak]⟩

end

/-! ## Runs -/

section
variable (hd : Decides before? before kind)
include hd

/-- What goes on in a direction after the first element does so after one that comes before that. -/
theorem pairwise_cons_cons {down : Bool} {a b : α} {l : List α} (hba : before b a = down)
    (h : (b :: l).Pairwise fun a b => before b a = down) :
    (a :: b :: l).Pairwise fun a b => before b a = down := by
  refine List.pairwise_cons.2 ⟨List.forall_mem_cons.2 ⟨hba, fun c hc => ?_⟩, h⟩
  have hcb : before c b = down := (List.pairwise_cons.1 h).1 c hc
  cases down with
  | true => exact hd.weak.before_trans hcb hba
  | false => exact hd.weak.trans hba hcb

/-- A run goes on while the elements do. -/
theorem goOn?_eq (down : Bool) {last : α} {l : List α} (hlast : kind last) (hl : ∀ a ∈ l, kind a) :
    ∃ run rest, goOn? before? down last l = some (run, rest) ∧ l = run ++ rest ∧
      (last :: run).Pairwise fun a b => before b a = down := by
  induction l generalizing last with
  | nil => exact ⟨[], [], rfl, rfl, List.pairwise_singleton ..⟩
  | cons a l ih =>
    obtain ⟨ha, hl⟩ := List.forall_mem_cons.1 hl
    rw [goOn?, hd.eq ha hlast]
    simp only [Option.bind_eq_bind, Option.bind_some]
    by_cases h : before a last = down
    · obtain ⟨run, rest, hgo, rfl, hrun⟩ := ih ha hl
      rw [if_pos (beq_iff_eq.2 h), hgo]
      exact ⟨a :: run, rest, rfl, rfl, pairwise_cons_cons hd h hrun⟩
    · rw [if_neg (mt beq_iff_eq.1 h)]
      exact ⟨[], a :: l, rfl, rfl, List.pairwise_singleton ..⟩

/-- The run at the start of a list is a part of it, sorted. -/
theorem run?_eq {l : List α} (hl : ∀ a ∈ l, kind a) (hne : l ≠ []) :
    ∃ run rest, run? before? l = some (sort before run, rest) ∧ l = run ++ rest ∧ run ≠ [] := by
  match l, hne with
  | [a], _ => exact ⟨[a], [], rfl, rfl, List.cons_ne_nil a []⟩
  | a :: b :: l, _ =>
    obtain ⟨ha, hb, hl⟩ : kind a ∧ kind b ∧ ∀ c ∈ l, kind c := by simpa using hl
    obtain ⟨run, rest, hgo, rfl, hrun⟩ := goOn?_eq hd (before b a) hb hl
    have hall := pairwise_cons_cons hd rfl hrun
    refine ⟨a :: b :: run, rest, ?_, rfl, List.cons_ne_nil a _⟩
    rw [run?, hd.eq hb ha]
    simp only [Option.bind_eq_bind, Option.bind_some, hgo]
    cases hdown : before b a with
    | true =>
      rw [hdown] at hall
      rw [sort_eq_of_descending hall]
      rfl
    | false =>
      rw [hdown] at hall
      rw [sort_eq_of_ascending hall]
      rfl

/-- Halving finds the place of an element in a run. -/
theorem place?_eq {a : α} {xs ys : List α} (ha : kind a) (hkind : ∀ b ∈ xs ++ ys, kind b)
    (hxs : ∀ x ∈ xs, before a x = false) (hys : ∀ y ∈ ys, before a y = true) {fuel low high : Nat}
    (hlow : low ≤ xs.length) (hhigh : xs.length ≤ high) (hsize : high ≤ (xs ++ ys).length)
    (hfuel : high - low < fuel) : place? before? a (xs ++ ys) fuel low high = some xs.length := by
  induction fuel generalizing low high with
  | zero => exact absurd hfuel (Nat.not_lt_zero _)
  | succ fuel ih =>
    rw [place?]
    by_cases hlt : low < high
    · have hin : low + (high - low) / 2 < (xs ++ ys).length := by omega
      have hmiddle := (splits_notAfter hd ha hkind hxs hys).test _ hin
      rw [List.getElem?_toArray, List.getElem?_eq_getElem hin] at hmiddle
      obtain ⟨later, hlater, hnot⟩ := Option.map_eq_some_iff.1 hmiddle
      rw [if_pos hlt]
      simp only [Option.bind_eq_bind, List.getElem?_eq_getElem hin, Option.bind_some, hlater]
      by_cases hk : low + (high - low) / 2 < xs.length
      · rw [decide_eq_true hk, Bool.not_eq_true'] at hnot
        rw [hnot, if_neg Bool.false_ne_true]
        exact ih (by omega) hhigh hsize (by omega)
      · rw [decide_eq_false hk, Bool.not_eq_false'] at hnot
        rw [hnot, if_pos rfl]
        exact ih hlow (by omega) (by omega) (by omega)
    · rw [if_neg hlt, show low = xs.length by omega]

/-- Elements are put into a sorted run. -/
theorem extend?_eq {run l : List α} (hrun : ∀ a ∈ run, kind a) (hl : ∀ a ∈ l, kind a) :
    extend? before? (sort before run) l = some (sort before (run ++ l)) := by
  induction l generalizing run with
  | nil => rw [extend?, List.append_nil]
  | cons a l ih =>
    obtain ⟨ha, hl⟩ := List.forall_mem_cons.1 hl
    have hsorted := ascending_sort hd hrun
    obtain ⟨xs, ys, heq, hxs, hys⟩ := hsorted.exists_notAfter hd.weak a
    have hplace : place? before? a (xs ++ ys) ((xs ++ ys).length + 1) 0 (xs ++ ys).length =
        some xs.length :=
      place?_eq hd ha (heq ▸ hsorted.kind) hxs hys (Nat.zero_le _) (by simp) (Nat.le_refl _) (by simp)
    have hput : xs ++ a :: ys = sort before (run ++ [a]) := by
      have hend : ∀ b ∈ [a], ∀ y ∈ ys, before b y = true := List.forall_mem_singleton.2 hys
      have hfirst : ∀ x ∈ xs, ∀ b ∈ [a], before b x = false := fun x hx =>
        List.forall_mem_singleton.2 (hxs x hx)
      rw [← merged_sort hd.weak, heq, sort, sort, insert, merged_append_left hend,
        merged_eq_append hfirst, List.append_assoc]
      rfl
    rw [extend?, heq, hplace]
    simp only [Option.bind_eq_bind, Option.bind_some, List.take_left, List.drop_left]
    have hgrown : ∀ b ∈ run ++ [a], kind b :=
      List.forall_mem_append.2 ⟨hrun, List.forall_mem_singleton.2 ha⟩
    rw [hput, ih hgrown hl, List.append_assoc]
    rfl

end

/-! ## The order of merges -/

/-- The runs that wait, the last one first, are the parts of a list, each of them sorted. -/
inductive Cuts (before : α → α → Bool) : List (Waiting α) → List α → Prop
  | nil : Cuts before [] []
  | cons {waiting : List (Waiting α)} {l part : List α} (rest : Cuts before waiting l) (ne : part ≠ [])
    (start depth : Nat) :
    Cuts before ({ start, items := (sort before part).toArray, depth } :: waiting) (l ++ part)

section
variable (hd : Decides before? before kind)
include hd

/-- Merging some of the waiting runs leaves the list as it was, cut into fewer parts. -/
theorem mergeDeeper?_eq {waiting : List (Waiting α)} {l : List α} (hcuts : Cuts before waiting l)
    (hl : ∀ a ∈ l, kind a) (depth fuel streak : Nat) :
    ∃ merged streak', mergeDeeper? before? depth fuel streak waiting = some (merged, streak') ∧
      Cuts before merged l := by
  induction fuel generalizing streak waiting l with
  | zero =>
    rw [mergeDeeper?]
    · exact ⟨waiting, streak, rfl, hcuts⟩
    · exact fun _ _ _ _ h => Nat.noConfusion h
  | succ fuel ih =>
    cases hcuts with
    | nil => exact ⟨[], streak, rfl, .nil⟩
    | @cons waiting l q rest hq start depth' =>
      cases rest with
      | nil => exact ⟨_, streak, rfl, .cons .nil hq start depth'⟩
      | @cons waiting l p rest hp before' depth'' =>
        rw [mergeDeeper?]
        by_cases hdeeper : depth'' > depth
        · obtain ⟨hlp, hkq⟩ := List.forall_mem_append.1 hl
          obtain ⟨streak', hmerge⟩ := merge?_sort hd (List.forall_mem_append.1 hlp).2 hkq hp hq streak
          rw [if_pos hdeeper, hmerge]
          rw [List.append_assoc] at hl ⊢
          exact ih (.cons rest (List.append_ne_nil_of_left_ne_nil hp q) before' 0) hl streak'
        · rw [if_neg hdeeper]
          exact ⟨_, streak, rfl, .cons (.cons rest hp before' depth'') hq start depth'⟩

/-- Merging all waiting runs sorts the list. -/
theorem mergeAll?_eq {fuel streak : Nat} {waiting : List (Waiting α)} {l : List α}
    (hcuts : Cuts before waiting l) (hl : ∀ a ∈ l, kind a) (hfuel : waiting.length ≤ fuel + 1) :
    mergeAll? before? fuel streak waiting = some (sort before l).toArray := by
  induction fuel generalizing streak waiting l with
  | zero =>
    cases hcuts with
    | nil => rfl
    | cons rest hne start depth =>
      cases rest with
      | nil => rfl
      | cons rest hne' start' depth' => simp at hfuel
  | succ fuel ih =>
    cases hcuts with
    | nil => rfl
    | @cons waiting l r rest hr start depth =>
      cases rest with
      | nil => rfl
      | @cons waiting l q rest hq start' depth' =>
        obtain ⟨hlq, hkr⟩ := List.forall_mem_append.1 hl
        obtain ⟨hkl, hkq⟩ := List.forall_mem_append.1 hlq
        obtain ⟨streak', hmerge⟩ := merge?_sort hd hkq hkr hq hr streak
        have hlast : Cuts before (⟨start', (sort before (q ++ r)).toArray, depth'⟩ :: waiting)
            (l ++ q ++ r) := by
          rw [List.append_assoc]
          exact .cons rest (List.append_ne_nil_of_left_ne_nil hq r) start' depth'
        cases rest with
        | nil =>
          rw [mergeAll?, hmerge]
          exact ih hlast hl (by simp)
        | @cons waiting l p rest hp start'' depth'' =>
          simp only [List.length_cons] at hfuel
          rw [mergeAll?]
          split
          · obtain ⟨streak', hmerge⟩ := merge?_sort hd (List.forall_mem_append.1 hkl).2 hkq hp hq streak
            have hne : p ++ q ≠ [] := List.append_ne_nil_of_left_ne_nil hp q
            rw [hmerge]
            rw [List.append_assoc l p q] at hl ⊢
            exact ih (.cons (.cons rest hne start'' depth'') hr start depth) hl
              (by simp only [List.length_cons]; omega)
          · rw [hmerge]
            exact ih hlast hl (by simp only [List.length_cons]; omega)

/-- Cutting the rest of a list into runs, and merging them, sorts the whole. -/
theorem runs?_eq {size least fuel streak start : Nat} {waiting : List (Waiting α)} {seen l : List α}
    (hcuts : Cuts before waiting seen) (hkind : ∀ a ∈ seen ++ l, kind a) (hfuel : l.length < fuel) :
    runs? before? size least fuel streak waiting start l = some (sort before (seen ++ l)).toArray := by
  induction fuel generalizing streak start waiting seen l with
  | zero => exact absurd hfuel (Nat.not_lt_zero _)
  | succ fuel ih =>
    obtain ⟨hseen, hl⟩ := List.forall_mem_append.1 hkind
    by_cases hne : l = []
    · subst hne
      rw [runs?, List.append_nil]
      · exact mergeAll?_eq hd hcuts hseen (Nat.le_succ _)
      · exact fun h => Nat.noConfusion h
    obtain ⟨run, rest, hrun, rfl, hrunne⟩ := run?_eq hd hl hne
    obtain ⟨hkrun, hkrest⟩ := List.forall_mem_append.1 hl
    have hlength : (sort before run).length = run.length := (sort_perm before run).length_eq
    generalize hmissing : least - run.length = missing
    have hextend := extend?_eq hd hkrun (l := rest.take missing) fun a ha =>
      hkrest a (List.mem_of_mem_take ha)
    have hnext {cut : List (Waiting α)} (hcut : Cuts before cut seen) (streak : Nat) :
        runs? before? size least fuel streak
          ({ start, items := (sort before (run ++ rest.take missing)).toArray } :: cut)
          (start + (sort before (run ++ rest.take missing)).length) (rest.drop missing) =
            some (sort before (seen ++ (run ++ rest))).toArray := by
      have hall : seen ++ (run ++ rest.take missing) ++ rest.drop missing = seen ++ (run ++ rest) := by
        rw [List.append_assoc, List.append_assoc, List.take_append_drop]
      rw [← hall] at hkind ⊢
      refine ih (.cons hcut (List.append_ne_nil_of_left_ne_nil hrunne _) start 0) hkind ?_
      have hrunpos := List.length_pos_of_ne_nil hrunne
      simp only [List.length_append, List.length_drop] at hfuel ⊢
      omega
    rw [runs?]
    · simp only [hrun, hlength, hmissing, hextend, Option.bind_eq_bind, Option.bind_some]
      cases waiting with
      | nil => exact hnext hcuts streak
      | cons last waiting =>
        dsimp only
        generalize depthOf size (size + 64) 0 (2 * last.start + last.items.size)
          (2 * last.start + last.items.size + last.items.size +
            (sort before (run ++ rest.take missing)).length) = depth
        obtain ⟨cut, streak', hmerged, hcut⟩ :=
          mergeDeeper?_eq hd hcuts hseen depth (last :: waiting).length streak
        rw [hmerged]
        cases hcut with
        | nil => exact hnext .nil streak'
        | cons rest hpart start depth => exact hnext (.cons rest hpart start _) streak'
    · exact hne

end

/-- Sorting by runs is sorting, where every comparison that can be made is decided. -/
theorem byRuns?_eq (hw : Weak before) {l : List α}
    (hdecided : ∀ a ∈ l, ∀ b ∈ l, before? a b = some (before a b)) :
    byRuns? before? l = some (sort before l) := by
  have hd : Decides before? before (· ∈ l) := ⟨hw, fun ha hb => hdecided _ ha _ hb⟩
  rw [byRuns?, runs?_eq hd .nil (fun _ ha => ha) (Nat.lt_succ_self _)]
  rfl

end ViewFinder.Sorting
