import Mathlib.Data.List.Nodup
import ViewFinder.Proofs.Entries

/-!
# Dictionaries laid over one another

`Entries.merge` lays one dictionary over another, entry by entry. Two settings of different names
change places once the first name is there (`set_comm`), so a name of its own that is laid over a
dictionary early and set again late is the same as one set late (`merge_set_comm`).

Where each entry of a dictionary stands for entries under other names (`expand`), two dictionaries can
be laid over one another before or after they are expanded. `Overlays` says when both come to the same,
down to the order of the entries: the names that an entry on top stands for are those of the entry that
it replaces, or come in nowhere else on top. `Overlays.merge_flatMap` is the law.
-/

namespace ViewFinder.Entries

/-! ## Setting and merging -/

theorem merge_nil (es : Entries) : merge es [] = es := rfl

theorem merge_cons (es fs : Entries) (e : Value × Value) :
    merge es (e :: fs) = merge (insert es e.1 e.2) fs := rfl

theorem merge_append (es fs gs : Entries) : merge es (fs ++ gs) = merge (merge es fs) gs :=
  List.foldl_append

theorem set_cons_self (n : String) (v w : Value) (es : Entries) :
    set ((.str n, v) :: es) n w = (.str n, w) :: es := by
  simp [set, insert]

theorem set_cons_of_ne {k : Value} {n : String} (h : k ≠ .str n) (v w : Value) (es : Entries) :
    set ((k, v) :: es) n w = (k, v) :: set es n w := by
  rw [set, insert, Value.sameKey_str_of_ne h, if_neg (by decide)]
  rfl

/-- Of two settings of one name the later counts. -/
theorem set_set (es : Entries) (n : String) (v w : Value) : (es.set n v).set n w = es.set n w := by
  induction es with
  | nil => exact set_cons_self n v w []
  | cons e es ih =>
    obtain ⟨k, u⟩ := e
    by_cases hk : k = .str n
    · subst hk
      simp only [set_cons_self]
    · simp only [set_cons_of_ne hk, ih]

/-- Settings of different names change places, if one of the names is there. -/
theorem set_comm {es : Entries} {m n : String} (hne : m ≠ n) (hn : get? es n ≠ none) (v w : Value) :
    (es.set m v).set n w = (es.set n w).set m v := by
  induction es with
  | nil => exact absurd rfl hn
  | cons e es ih =>
    obtain ⟨k, u⟩ := e
    by_cases hkn : k = .str n
    · subst hkn
      have hm : (Value.str n) ≠ .str m := fun h => hne (Value.str.inj h).symm
      simp only [set_cons_self, set_cons_of_ne hm]
    · rw [get?_cons_of_ne hkn] at hn
      by_cases hkm : k = .str m
      · subst hkm
        simp only [set_cons_self, set_cons_of_ne hkn]
      · simp only [set_cons_of_ne hkn, set_cons_of_ne hkm, ih hn]

section
variable {es fs : Entries} {n : String}

/-- A name that is there, and that the dictionary on top says nothing of, is set before or after. -/
theorem merge_set_comm (htexts : ∀ e ∈ fs, ∃ m, e.1 = .str m) (hfs : ∀ e ∈ fs, e.1 ≠ .str n)
    (hn : get? es n ≠ none) (v : Value) : (es.merge fs).set n v = (es.set n v).merge fs := by
  induction fs generalizing es with
  | nil => rfl
  | cons e fs ih =>
    obtain ⟨k, w⟩ := e
    obtain ⟨m, rfl⟩ := htexts (k, w) (List.mem_cons_self ..)
    have hne : m ≠ n := fun h => hfs (.str m, w) (List.mem_cons_self ..) (congrArg Value.str h)
    have hthere : get? (es.set m w) n ≠ none := by rwa [get?_set, if_neg hne]
    have hrest := ih (fun e he => htexts e (List.mem_cons_of_mem _ he))
      (fun e he => hfs e (List.mem_cons_of_mem _ he)) hthere
    simp only [merge_cons]
    exact hrest.trans (congrArg (merge · fs) (set_comm hne hn w v))

/-- Whatever is laid over distinct names keeps them distinct. -/
theorem Named.merge_texts (h : Named es) (hfs : ∀ e ∈ fs, ∃ m, e.1 = .str m) : Named (es.merge fs) := by
  induction fs generalizing es with
  | nil => exact h
  | cons e fs ih =>
    obtain ⟨k, v⟩ := e
    obtain ⟨m, rfl⟩ := hfs (k, v) (List.mem_cons_self ..)
    exact ih (h.set m v) fun e he => hfs e (List.mem_cons_of_mem _ he)

theorem texts_merge (hes : ∀ e ∈ es, ∃ m, e.1 = .str m) (hfs : ∀ e ∈ fs, ∃ m, e.1 = .str m) :
    ∀ e ∈ es.merge fs, ∃ m, e.1 = .str m := by
  induction fs generalizing es with
  | nil => exact hes
  | cons e fs ih =>
    obtain ⟨k, v⟩ := e
    obtain ⟨⟨m, rfl⟩, hrest⟩ := List.forall_mem_cons.1 hfs
    refine ih (fun e he => ?_) hrest
    rcases mem_keys_set.1 (List.mem_map_of_mem he) with hm | hk
    · exact ⟨m, hm⟩
    · obtain ⟨f, hf, hfe⟩ := List.mem_map.1 hk
      exact hfe ▸ hes f hf

/-- What is held in the end was there, or was laid over. -/
theorem mem_or_get?_of_get?_merge (hfs : ∀ e ∈ fs, ∃ m, e.1 = .str m) {v : Value}
    (h : get? (es.merge fs) n = some v) : (.str n, v) ∈ fs ∨ get? es n = some v := by
  induction fs generalizing es with
  | nil => exact .inr h
  | cons e fs ih =>
    obtain ⟨k, w⟩ := e
    obtain ⟨⟨m, rfl⟩, hrest⟩ := List.forall_mem_cons.1 hfs
    rcases ih hrest h with hmem | hset
    · exact .inl (List.mem_cons_of_mem _ hmem)
    · have hset' : get? (set es m w) n = some v := hset
      rw [get?_set] at hset'
      split at hset'
      · next heq =>
        cases hset'
        exact .inl (heq ▸ List.mem_cons_self ..)
      · exact .inr hset'

/-- Names that are new go to the end. -/
theorem merge_of_named (h : Named (es ++ fs)) : es.merge fs = es ++ fs := by
  induction fs generalizing es with
  | nil => exact (List.append_nil es).symm
  | cons e fs ih =>
    obtain ⟨k, v⟩ := e
    obtain ⟨n, rfl⟩ := h.texts (k, v) (List.mem_append_right _ (List.mem_cons_self ..))
    have hnodup := h.nodup
    rw [List.map_append] at hnodup
    have hnone : get? es n = none := get?_eq_none_iff.2 fun e he hkey =>
      (List.nodup_append.1 hnodup).2.2 e.1 (List.mem_map_of_mem he) (.str n) (List.mem_cons_self ..) hkey
    have hset : insert es (.str n) v = es ++ [(.str n, v)] := set_of_get?_eq_none hnone v
    rw [merge_cons]
    rw [List.append_cons, ← hset] at h ⊢
    exact ih h

/-- A dictionary of distinct names is described by its own entries. -/
theorem ofPairs_of_named (h : Named es) : ofPairs es = es :=
  merge_of_named ((List.nil_append es).symm ▸ h)

/-- The entries under some of the keys, after setting a name. -/
theorem filter_set (p : Value → Bool) (es : Entries) (n : String) (v : Value) :
    List.filter (fun e => p e.1) (es.set n v) =
      if p (.str n) then set (List.filter (fun e => p e.1) es) n v
      else List.filter (fun e => p e.1) es := by
  induction es with
  | nil => cases hp : p (.str n) <;> simp [set, insert, hp]
  | cons e es ih =>
    obtain ⟨k, w⟩ := e
    by_cases hk : k = .str n
    · subst hk
      rw [set_cons_self]
      cases hp : p (.str n) <;> simp [hp, set_cons_self]
    · rw [set_cons_of_ne hk, List.filter_cons, List.filter_cons, ih]
      cases p (.str n) <;> cases p k <;> simp [set_cons_of_ne hk]

/-- Among distinct names, what is held under a name is what is an entry. -/
theorem Named.get?_eq_some_iff (h : Named es) {v : Value} : get? es n = some v ↔ (.str n, v) ∈ es := by
  refine ⟨mem_of_get?, fun hmem => ?_⟩
  induction es with
  | nil => cases hmem
  | cons e es ih =>
    obtain ⟨m, hm, hnone, hes⟩ := h.of_cons
    obtain ⟨k, w⟩ := e
    subst hm
    rw [get?_cons_str]
    rcases List.mem_cons.1 hmem with heq | hmem
    · cases heq
      exact if_pos rfl
    · have hsome := ih hes hmem
      have hne : m ≠ n := fun h => by simp [← h, hnone] at hsome
      rw [if_neg hne, hsome]

theorem Named.perm (h : Named es) (hperm : fs.Perm es) : Named fs :=
  ⟨fun e he => h.texts e (hperm.mem_iff.1 he), ((hperm.map (·.1)).nodup_iff).2 h.nodup⟩

/-- An entry of a merged dictionary is one of either. -/
theorem Named.mem_merge (hes : Named es) (hfs : Named fs) {e : Value × Value} (he : e ∈ es.merge fs) :
    e ∈ es ∨ e ∈ fs := by
  have hmerge := hes.merge hfs
  obtain ⟨n, hn⟩ := hmerge.texts e he
  obtain ⟨k, v⟩ := e
  subst hn
  have hget := hmerge.get?_eq_some_iff.2 he
  rcases mem_or_get?_of_get?_merge hfs.texts hget with hmem | hget
  · exact .inr hmem
  · exact .inl (mem_of_get? hget)

/-- The order of distinct names does not matter to what they hold. -/
theorem Named.get?_perm (h : Named es) (hperm : fs.Perm es) (n : String) : get? fs n = get? es n :=
  Option.ext fun v => by rw [(h.perm hperm).get?_eq_some_iff, h.get?_eq_some_iff, hperm.mem_iff]

end

/-! ## Entries that stand for others -/

section
variable {es : Entries} {k : Value}

/-- The entries after putting in one: a key that is the same as the new one is the new one. -/
theorem mem_insert (hkeys : ∀ e ∈ es, e.1.sameKey k = true → e.1 = k) {v : Value} {e : Value × Value}
    (he : e ∈ insert es k v) : e ∈ es ∨ e = (k, v) := by
  induction es with
  | nil => exact .inr (List.mem_singleton.1 he)
  | cons f es ih =>
    obtain ⟨l, w⟩ := f
    rw [insert] at he
    split at he
    · next hsame =>
      obtain rfl : l = k := hkeys (l, w) (List.mem_cons_self ..) hsame
      exact (List.mem_cons.1 he).symm.imp_left (List.mem_cons_of_mem _)
    · rcases List.mem_cons.1 he with rfl | he
      · exact .inl (List.mem_cons_self ..)
      · have := ih (fun e he => hkeys e (List.mem_cons_of_mem _ he)) he
        exact this.imp_left (List.mem_cons_of_mem _)

theorem pairwise_insert {R : Value × Value → Value × Value → Prop} {v : Value}
    (hkeys : ∀ e ∈ es, e.1.sameKey k = true → e.1 = k) (h : es.Pairwise R)
    (hbefore : ∀ e ∈ es, R e (k, v)) (hafter : ∀ e ∈ es, R (k, v) e) :
    (insert es k v).Pairwise R := by
  induction es with
  | nil => exact List.pairwise_singleton ..
  | cons f es ih =>
    obtain ⟨l, w⟩ := f
    obtain ⟨hf, hes⟩ := List.pairwise_cons.1 h
    have hkeys' : ∀ e ∈ es, e.1.sameKey k = true → e.1 = k :=
      fun e he => hkeys e (List.mem_cons_of_mem _ he)
    rw [insert]
    split
    · next hsame =>
      obtain rfl : l = k := hkeys (l, w) (List.mem_cons_self ..) hsame
      exact List.pairwise_cons.2 ⟨fun e he => hafter e (List.mem_cons_of_mem _ he), hes⟩
    · refine List.pairwise_cons.2 ⟨fun e he => ?_, ?_⟩
      · rcases mem_insert hkeys' he with he | rfl
        · exact hf e he
        · exact hbefore (l, w) (List.mem_cons_self ..)
      · exact ih hkeys' hes (fun e he => hbefore e (List.mem_cons_of_mem _ he))
          (fun e he => hafter e (List.mem_cons_of_mem _ he))

end

/-- The entries of two dictionaries, the second laid over the first, stand for entries under names. The
entries of one key stand for the same single name, or for nothing; and a name that two entries below
stand for is no name of those on top. -/
structure Overlays (expand : Value × Value → Entries) (below top : Entries) : Prop where
  keys : ∀ e ∈ below ++ top, ∀ f ∈ top, e.1.sameKey f.1 = true → e.1 = f.1
  distinct : (top.map (·.1)).Nodup
  texts : ∀ e ∈ below ++ top, ∀ p ∈ expand e, ∃ n, p.1 = .str n
  same : ∀ k v w, (k, v) ∈ below → (k, w) ∈ top →
    expand (k, v) = [] ∧ expand (k, w) = [] ∨
      ∃ n v' w', expand (k, v) = [(.str n, v')] ∧ expand (k, w) = [(.str n, w')]
  once : ((top.flatMap expand).map (·.1)).Nodup
  shared : below.Pairwise fun e f => ∀ p ∈ expand e, ∀ q ∈ expand f, p.1 = q.1 →
    ∀ r ∈ top.flatMap expand, r.1 ≠ p.1

section
variable {expand : Value × Value → Entries} {below top : Entries} {k v : Value}

/-- Putting in an entry and expanding comes to expanding and laying over what the entry stands for:
where it replaces one, nothing that comes after stands for the same name. -/
theorem merge_flatMap_insert (base : Entries) (hkeys : ∀ e ∈ below, e.1.sameKey k = true → e.1 = k)
    (htexts : ∀ e ∈ below, ∀ p ∈ expand e, ∃ n, p.1 = .str n)
    (hsame : ∀ w, (k, w) ∈ below → expand (k, w) = [] ∧ expand (k, v) = [] ∨
      ∃ n w' v', expand (k, w) = [(.str n, w')] ∧ expand (k, v) = [(.str n, v')])
    (hafter : below.Pairwise fun e f => e.1 = k → ∀ p ∈ expand (k, v), ∀ q ∈ expand f, q.1 ≠ p.1) :
    base.merge ((below.insert k v).flatMap expand) =
      (base.merge (below.flatMap expand)).merge (expand (k, v)) := by
  induction below generalizing base with
  | nil =>
    rw [insert, List.flatMap_cons, List.flatMap_nil, List.append_nil]
    rfl
  | cons e below ih =>
    obtain ⟨l, w⟩ := e
    obtain ⟨hhead, htail⟩ := List.pairwise_cons.1 hafter
    rw [insert]
    split
    · next hl =>
      obtain rfl : l = k := hkeys (l, w) (List.mem_cons_self ..) hl
      rw [List.flatMap_cons, List.flatMap_cons, merge_append, merge_append]
      rcases hsame w (List.mem_cons_self ..) with ⟨hw, hv⟩ | ⟨n, w', v', hw, hv⟩
      · rw [hw, hv, merge_nil, merge_nil]
      · rw [hw, hv]
        have hrest : ∀ q ∈ below.flatMap expand, q.1 ≠ .str n := fun q hq => by
          obtain ⟨f, hf, hq⟩ := List.mem_flatMap.1 hq
          exact hhead f hf rfl (.str n, v') (hv ▸ List.mem_cons_self ..) q hq
        have hnames : ∀ q ∈ below.flatMap expand, ∃ m, q.1 = .str m := fun q hq => by
          obtain ⟨f, hf, hq⟩ := List.mem_flatMap.1 hq
          exact htexts f (List.mem_cons_of_mem _ hf) q hq
        have hthere : get? (base.set n w') n ≠ none := by simp
        exact ((merge_set_comm hnames hrest hthere v').trans (by rw [set_set]; rfl)).symm
    · rw [List.flatMap_cons, List.flatMap_cons, merge_append, merge_append]
      exact ih (base.merge (expand (l, w))) (fun e he => hkeys e (List.mem_cons_of_mem _ he))
        (fun e he => htexts e (List.mem_cons_of_mem _ he))
        (fun u hu => hsame u (List.mem_cons_of_mem _ hu)) htail

/-- What comes after an entry that is replaced stands for none of its names. -/
theorem Overlays.after (h : Overlays expand below ((k, v) :: top)) :
    below.Pairwise fun e f => e.1 = k → ∀ p ∈ expand (k, v), ∀ q ∈ expand f, q.1 ≠ p.1 := by
  refine h.shared.imp_of_mem fun {e f} he _ hef hk p hp q hq hqp => ?_
  obtain ⟨l, w⟩ := e
  obtain rfl : l = k := hk
  rcases h.same l w v he (List.mem_cons_self ..) with ⟨-, hv⟩ | ⟨n, w', v', hw, hv⟩
  · rw [hv] at hp
    cases hp
  · have hname : p.1 = .str n := by
      rw [hv] at hp
      rw [List.mem_singleton.1 hp]
    exact hef (.str n, w') (hw ▸ List.mem_cons_self ..) q hq (hname.symm.trans hqp.symm) p
      (List.mem_flatMap.2 ⟨(l, v), List.mem_cons_self .., hp⟩) hname

/-- Once an entry is laid over, the others still can be. -/
theorem Overlays.step (h : Overlays expand below ((k, v) :: top)) :
    Overlays expand (below.insert k v) top := by
  obtain ⟨hk, hdistinct⟩ := List.nodup_cons.1 h.distinct
  have hkeys : ∀ e ∈ below, e.1.sameKey k = true → e.1 = k := fun e he =>
    h.keys e (List.mem_append_left _ he) (k, v) (List.mem_cons_self ..)
  have hmem {e : Value × Value} (he : e ∈ below.insert k v ++ top) : e ∈ below ++ (k, v) :: top := by
    rcases List.mem_append.1 he with he | he
    · rcases mem_insert hkeys he with he | rfl
      · exact List.mem_append_left _ he
      · exact List.mem_append_right _ (List.mem_cons_self ..)
    · exact List.mem_append_right _ (List.mem_cons_of_mem _ he)
  have honce := h.once
  rw [List.flatMap_cons, List.map_append, List.nodup_append] at honce
  -- no name of the entry laid over comes again on top
  have hnew : ∀ p ∈ expand (k, v), ∀ r ∈ top.flatMap expand, r.1 ≠ p.1 := fun p hp r hr heq =>
    honce.2.2 p.1 (List.mem_map_of_mem hp) r.1 (List.mem_map_of_mem hr) heq.symm
  constructor
  case keys => exact fun e he f hf => h.keys e (hmem he) f (List.mem_cons_of_mem _ hf)
  case distinct => exact hdistinct
  case texts => exact fun e he => h.texts e (hmem he)
  case same =>
    intro l u w hu hw
    rcases mem_insert hkeys hu with hu | heq
    · exact h.same l u w hu (List.mem_cons_of_mem _ hw)
    · cases heq
      exact absurd (List.mem_map_of_mem hw) hk
  case once => exact honce.2.1
  case shared =>
    refine pairwise_insert hkeys (h.shared.imp fun {e f} hef p hp q hq hpq r hr => ?_) ?_ ?_
    · exact hef p hp q hq hpq r (List.mem_append_right _ hr)
    · intro e _ p _ q hq hpq r hr
      rw [hpq]
      exact hnew q hq r hr
    · exact fun e _ p hp q _ _ r hr => hnew p hp r hr

theorem Overlays.mem_merge (h : Overlays expand below top) {e : Value × Value}
    (he : e ∈ below.merge top) : e ∈ below ∨ e ∈ top := by
  induction top generalizing below with
  | nil => exact .inl he
  | cons f top ih =>
    rcases ih h.step he with he | he
    · have hkeys : ∀ e ∈ below, e.1.sameKey f.1 = true → e.1 = f.1 := fun e he =>
        h.keys e (List.mem_append_left _ he) f (List.mem_cons_self ..)
      rcases mem_insert hkeys he with he | rfl
      · exact .inl he
      · exact .inr (List.mem_cons_self ..)
    · exact .inr (List.mem_cons_of_mem _ he)

/-- **Overlays expand.** A dictionary laid over another one stands for what it stands for, laid over what
the other one stands for. -/
theorem Overlays.merge_flatMap (h : Overlays expand below top) (base : Entries) :
    base.merge ((below.merge top).flatMap expand) =
      (base.merge (below.flatMap expand)).merge (top.flatMap expand) := by
  induction top generalizing below with
  | nil => rfl
  | cons e top ih =>
    obtain ⟨k, v⟩ := e
    have hmem {e : Value × Value} (he : e ∈ below) : e ∈ below ++ (k, v) :: top :=
      List.mem_append_left _ he
    calc base.merge (((below.insert k v).merge top).flatMap expand)
        = (base.merge ((below.insert k v).flatMap expand)).merge (top.flatMap expand) := ih h.step
      _ = ((base.merge (below.flatMap expand)).merge (expand (k, v))).merge (top.flatMap expand) := by
          rw [merge_flatMap_insert base
            (fun e he => h.keys e (hmem he) (k, v) (List.mem_cons_self ..))
            (fun e he => h.texts e (hmem he))
            (fun w hw => h.same k w v hw (List.mem_cons_self ..)) h.after]
      _ = (base.merge (below.flatMap expand)).merge (((k, v) :: top).flatMap expand) := by
          rw [List.flatMap_cons, merge_append]

end

end ViewFinder.Entries
