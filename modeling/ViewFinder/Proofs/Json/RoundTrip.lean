import ViewFinder.Proofs.Json.Scalars
import ViewFinder.Proofs.Overlay

/-!
# JSON values that are printed and read

A text spells a value (`Json.Spells`) if the value is read at its start, whatever ends a number
comes after it. A value of texts that split no pair, integers of not too many digits, lists and
objects of distinct names is spelled by its JSON text (`Json.Faithful.exists_print?`). So it is read
back where nesting may be as deep as it is (`Json.Spells.readWithin_eq`), and no other such value has
the same text (`Json.Spells.eq`).
-/

namespace ViewFinder.Json

open Text

/-! ## What is read back -/

/-- A value that is read back from its JSON text. -/
inductive Faithful : Value → Prop
  | null : Faithful .null
  | bool (b : Bool) : Faithful (.bool b)
  | int {n : Int} (hn : n.natAbs < 10 ^ maxDigits) : Faithful (.int n)
  | str {s : String} (hs : Whole s) : Faithful (.str s)
  | list {vs : List Value} (hvs : ∀ v ∈ vs, Faithful v) : Faithful (.list vs)
  | dict {es : Entries} (hnamed : es.Named) (hkeys : ∀ e ∈ es, ∃ s, e.1 = .str s ∧ Whole s)
    (hvs : ∀ e ∈ es, Faithful e.2) : Faithful (.dict es)

mutual

/-- How deep arrays and objects are nested in a value. -/
def nesting : Value → Nat
  | .list items => nestingOfItems items + 1
  | .dict entries => nestingOfMembers entries + 1
  | _ => 0

/-- How deep they are nested in one of the items. -/
def nestingOfItems : List Value → Nat
  | [] => 0
  | v :: vs => max (nesting v) (nestingOfItems vs)

/-- How deep they are nested in the value of one of the members. -/
def nestingOfMembers : List (Value × Value) → Nat
  | [] => 0
  | (_, v) :: rest => max (nesting v) (nestingOfMembers rest)

end

/-! ## Texts that spell values -/

/-- The text is that of the value: this is read at its start, if there is enough fuel and nesting may be
as deep as it is. -/
structure Spells (text : List Char) (v : Value) : Prop where
  opens : ∃ c rest, text = c :: rest ∧ isSpace c = false ∧ c ≠ ']'
  reads : ∀ fuel depth rest, text.length ≤ fuel → nesting v ≤ depth → Ends rest →
    value fuel depth (text ++ rest) = .ok (v, rest)

theorem skipSpace_cons {c : Char} (h : isSpace c = false) (s : List Char) : skipSpace (c :: s) = c :: s :=
  List.dropWhile_cons_of_neg (Bool.eq_false_iff.1 h)

/-- No blanks are skipped before a text that spells a value. -/
theorem Spells.skipSpace_append {text : List Char} {v : Value} (h : Spells text v) (rest : List Char) :
    skipSpace (text ++ rest) = text ++ rest := by
  obtain ⟨c, tail, rfl, hc, -⟩ := h.opens
  exact skipSpace_cons hc _

/-! ## Joined texts -/

theorem joinWith_cons (text next : List Char) (texts : List (List Char)) :
    joinWith [',', ' '] (text :: next :: texts) =
      text ++ (',' :: ' ' :: joinWith [',', ' '] (next :: texts)) :=
  List.append_assoc ..

/-- The first of joined texts stands at the start. -/
theorem exists_joinWith_eq_append (text : List Char) (texts : List (List Char)) :
    ∃ rest, joinWith [',', ' '] (text :: texts) = text ++ rest := by
  cases texts with
  | nil => exact ⟨[], (List.append_nil text).symm⟩
  | cons next texts => exact ⟨_, joinWith_cons text next texts⟩

theorem skipSpace_joinWith {text : List Char} (h : ∀ rest, skipSpace (text ++ rest) = text ++ rest)
    (texts : List (List Char)) (rest : List Char) :
    skipSpace (joinWith [',', ' '] (text :: texts) ++ rest) =
      joinWith [',', ' '] (text :: texts) ++ rest := by
  obtain ⟨tail, heq⟩ := exists_joinWith_eq_append text texts
  rw [heq, List.append_assoc, h]

/-! ## Lists -/

section
variable {text : List Char} {v : Value} (hv : Spells text v) {fuel depth : Nat}
  (hfuel : text.length ≤ fuel) (hdepth : nesting v ≤ depth) (rest : List Char)
include hv hfuel hdepth

/-- The last item is read up to the closing bracket. -/
theorem array_last : array (fuel + 1) depth (text ++ ']' :: rest) = .ok ([v], rest) := by
  rw [array, hv.reads fuel depth _ hfuel hdepth (ends_cons (by decide) _)]
  rfl

/-- Another item is read up to the next one. -/
theorem array_more {s : List Char} (hs : skipSpace s = s) {vs : List Value}
    (hread : array fuel depth s = .ok (vs, rest)) :
    array (fuel + 1) depth (text ++ (',' :: ' ' :: s)) = .ok (v :: vs, rest) := by
  have hblank : skipSpace (' ' :: s) = s := hs
  rw [array, hv.reads fuel depth _ hfuel hdepth (ends_cons (by decide) _)]
  simp only [bind, Except.bind, skipSpace_cons (by decide : isSpace ',' = false), hblank, hread]
  rfl

end

/-- The items of a list that is not empty are read up to the closing bracket. -/
theorem array_joinWith {texts : List (List Char)} {vs : List Value} (h : List.Forall₂ Spells texts vs)
    (hne : vs ≠ []) {fuel depth : Nat} (hfuel : (joinWith [',', ' '] texts).length < fuel)
    (hdepth : nestingOfItems vs ≤ depth) (rest : List Char) :
    array fuel depth (joinWith [',', ' '] texts ++ ']' :: rest) = .ok (vs, rest) := by
  induction h generalizing fuel with
  | nil => exact absurd rfl hne
  | @cons text v texts vs hv hvs ih =>
    obtain ⟨fuel, rfl⟩ := Nat.exists_eq_add_one_of_ne_zero (Nat.ne_zero_of_lt hfuel)
    rw [nestingOfItems, Nat.max_le] at hdepth
    cases hvs with
    | nil => exact array_last hv (Nat.le_of_lt_succ hfuel) hdepth.1 rest
    | @cons next w texts vs hw hvs =>
      rw [joinWith_cons] at hfuel ⊢
      simp only [List.length_append, List.length_cons] at hfuel
      have hitems := ih (List.cons_ne_nil _ _) (by omega : _ < fuel) hdepth.2
      rw [List.append_assoc]
      exact array_more hv (by omega) hdepth.1 rest (skipSpace_joinWith hw.skipSpace_append _ _) hitems

/-- A list is read back. -/
theorem spells_list {texts : List (List Char)} {vs : List Value} (h : List.Forall₂ Spells texts vs) :
    Spells ('[' :: (joinWith [',', ' '] texts ++ [']'])) (.list vs) := by
  refine ⟨⟨'[', _, rfl, rfl, by decide⟩, fun fuel depth rest hfuel hdepth _ => ?_⟩
  rw [List.length_cons, List.length_append, List.length_singleton] at hfuel
  obtain ⟨fuel, rfl⟩ := Nat.exists_eq_add_one_of_ne_zero (by omega : fuel ≠ 0)
  rw [nesting] at hdepth
  obtain ⟨depth, rfl⟩ := Nat.exists_eq_add_one_of_ne_zero (by omega : depth ≠ 0)
  rw [List.cons_append, List.append_assoc, List.singleton_append, value, inside]
  cases h with
  | nil => rfl
  | @cons text v texts vs hv hvs =>
    have hread := array_joinWith (.cons hv hvs) (List.cons_ne_nil _ _) (by omega : _ < fuel)
      (by omega : _ ≤ depth) rest
    rw [skipSpace_joinWith hv.skipSpace_append]
    split
    · next hclosed =>
      obtain ⟨tail, heq⟩ := exists_joinWith_eq_append text texts
      obtain ⟨c, s, rfl, -, hbracket⟩ := hv.opens
      rw [heq] at hclosed
      exact absurd (List.cons.inj hclosed).1 hbracket
    · rw [hread]
      rfl

/-! ## Objects -/

/-- The text is that of a member of an object. -/
def SpellsMember (text : List Char) (e : Value × Value) : Prop :=
  ∃ s p, e.1 = .str s ∧ Whole s ∧ text = quote s.toList ++ ':' :: ' ' :: p ∧ Spells p e.2

section
variable {text : List Char} {e : Value × Value} (he : SpellsMember text e)
include he

theorem SpellsMember.skipSpace_append (rest : List Char) : skipSpace (text ++ rest) = text ++ rest := by
  obtain ⟨s, p, -, -, rfl, -⟩ := he
  exact skipSpace_cons (by decide) _

variable {fuel depth : Nat} (hfuel : text.length ≤ fuel) (hdepth : nesting e.2 ≤ depth)
  (rest : List Char)
include hfuel hdepth

/-- The last member is read up to the closing brace. -/
theorem object_last : object (fuel + 1) depth (text ++ '\x7d' :: rest) = .ok ([e], rest) := by
  obtain ⟨k, v⟩ := e
  obtain ⟨s, p, rfl, hs, rfl, hv⟩ := he
  obtain ⟨body, hbody, hname⟩ := exists_quote_append s (':' :: ' ' :: (p ++ '\x7d' :: rest))
  rw [List.length_append, List.length_cons, List.length_cons] at hfuel
  have hvalue := hv.reads fuel depth ('\x7d' :: rest) (by omega) hdepth (ends_cons (by decide) _)
  have hblank : skipSpace (' ' :: (p ++ '\x7d' :: rest)) = p ++ '\x7d' :: rest := hv.skipSpace_append _
  rw [List.append_assoc, List.cons_append, List.cons_append, hbody, object, hname]
  simp only [bind, Except.bind, skipSpace_cons (by decide : isSpace ':' = false), hblank, hvalue,
    skipSpace_cons (by decide : isSpace '\x7d' = false), hs.whole_eq, String.ofList_toList]
  rfl

/-- Another member is read up to the next one. -/
theorem object_more {t : List Char} (ht : skipSpace t = t) {es : Entries}
    (hread : object fuel depth t = .ok (es, rest)) :
    object (fuel + 1) depth (text ++ (',' :: ' ' :: t)) = .ok (e :: es, rest) := by
  obtain ⟨k, v⟩ := e
  obtain ⟨s, p, rfl, hs, rfl, hv⟩ := he
  obtain ⟨body, hbody, hname⟩ := exists_quote_append s (':' :: ' ' :: (p ++ ',' :: ' ' :: t))
  rw [List.length_append, List.length_cons, List.length_cons] at hfuel
  have hvalue := hv.reads fuel depth (',' :: ' ' :: t) (by omega) hdepth (ends_cons (by decide) _)
  have hblank : skipSpace (' ' :: (p ++ ',' :: ' ' :: t)) = p ++ ',' :: ' ' :: t := hv.skipSpace_append _
  have hnext : skipSpace (' ' :: t) = t := ht
  rw [List.append_assoc, List.cons_append, List.cons_append, hbody, object, hname]
  simp only [bind, Except.bind, skipSpace_cons (by decide : isSpace ':' = false), hblank, hvalue,
    skipSpace_cons (by decide : isSpace ',' = false), hnext, hread, hs.whole_eq, String.ofList_toList]
  rfl

end

/-- The members of an object that is not empty are read up to the closing brace. -/
theorem object_joinWith {texts : List (List Char)} {es : Entries}
    (h : List.Forall₂ SpellsMember texts es) (hne : es ≠ []) {fuel depth : Nat}
    (hfuel : (joinWith [',', ' '] texts).length < fuel) (hdepth : nestingOfMembers es ≤ depth)
    (rest : List Char) :
    object fuel depth (joinWith [',', ' '] texts ++ '\x7d' :: rest) = .ok (es, rest) := by
  induction h generalizing fuel with
  | nil => exact absurd rfl hne
  | @cons text e texts es he hes ih =>
    obtain ⟨fuel, rfl⟩ := Nat.exists_eq_add_one_of_ne_zero (Nat.ne_zero_of_lt hfuel)
    rw [nestingOfMembers, Nat.max_le] at hdepth
    cases hes with
    | nil => exact object_last he (Nat.le_of_lt_succ hfuel) hdepth.1 rest
    | @cons next f texts es hf hes =>
      rw [joinWith_cons] at hfuel ⊢
      simp only [List.length_append, List.length_cons] at hfuel
      have hmembers := ih (List.cons_ne_nil _ _) (by omega : _ < fuel) hdepth.2
      rw [List.append_assoc]
      exact object_more he (by omega) hdepth.1 rest (skipSpace_joinWith hf.skipSpace_append _ _) hmembers

/-- An object is read back. -/
theorem spells_dict {texts : List (List Char)} {es : Entries} (h : List.Forall₂ SpellsMember texts es)
    (hnamed : es.Named) : Spells ('\x7b' :: (joinWith [',', ' '] texts ++ ['\x7d'])) (.dict es) := by
  refine ⟨⟨'\x7b', _, rfl, rfl, by decide⟩, fun fuel depth rest hfuel hdepth _ => ?_⟩
  rw [List.length_cons, List.length_append, List.length_singleton] at hfuel
  obtain ⟨fuel, rfl⟩ := Nat.exists_eq_add_one_of_ne_zero (by omega : fuel ≠ 0)
  rw [nesting] at hdepth
  obtain ⟨depth, rfl⟩ := Nat.exists_eq_add_one_of_ne_zero (by omega : depth ≠ 0)
  rw [List.cons_append, List.append_assoc, List.singleton_append, value, inside]
  cases h with
  | nil => rfl
  | @cons text e texts es he hes =>
    have hread := object_joinWith (.cons he hes) (List.cons_ne_nil _ _) (by omega : _ < fuel)
      (by omega : _ ≤ depth) rest
    rw [skipSpace_joinWith he.skipSpace_append]
    split
    · next hclosed =>
      obtain ⟨tail, heq⟩ := exists_joinWith_eq_append text texts
      obtain ⟨s, p, -, -, rfl, -⟩ := he
      rw [heq] at hclosed
      exact absurd (List.cons.inj hclosed).1 (by decide)
    · rw [hread]
      exact congrArg (fun es => Except.ok (Value.dict es, rest)) (Entries.ofPairs_of_named hnamed)

/-! ## Values -/

/-- A text spells what is read at its start with any fuel, in any depth. -/
theorem spells_of_reads {c : Char} {tail : List Char} {v : Value} (hc : isSpace c = false)
    (hbracket : c ≠ ']') (h : ∀ fuel depth rest, Ends rest →
      value (fuel + 1) depth (c :: tail ++ rest) = .ok (v, rest)) : Spells (c :: tail) v := by
  refine ⟨⟨c, tail, rfl, hc, hbracket⟩, fun fuel depth rest hfuel _ hrest => ?_⟩
  obtain ⟨fuel, rfl⟩ := Nat.exists_eq_add_one_of_ne_zero (Nat.ne_zero_of_lt hfuel)
  exact h fuel depth rest hrest

theorem spells_int {n : Int} (hn : n.natAbs < 10 ^ maxDigits) : Spells (decimalInt n) (.int n) := by
  obtain ⟨c, tail, hcons, hc⟩ := exists_decimalInt_eq_cons n
  have hspace : isSpace c = false := by
    by_contra hspace
    simp only [isSpace, Bool.not_eq_false, Bool.or_eq_true, beq_iff_eq] at hspace
    rcases hspace with ((rfl | rfl) | rfl) | rfl <;> exact absurd hc (by decide)
  have hbracket : c ≠ ']' := by
    rintro rfl
    exact absurd hc (by decide)
  rw [hcons]
  refine spells_of_reads hspace hbracket fun fuel depth rest hrest => ?_
  rw [← hcons]
  exact value_decimalInt hn hrest fuel depth

theorem spells_str {s : String} (hs : Whole s) : Spells (quote s.toList) (.str s) := by
  refine spells_of_reads rfl (by decide) fun fuel depth rest _ => ?_
  rw [← quote, value_quote, hs.whole_eq]

theorem spells_null : Spells "null".toList .null :=
  spells_of_reads (by decide) (by decide) fun _ _ _ _ => rfl

theorem spells_bool (b : Bool) : Spells (if b then "true".toList else "false".toList) (.bool b) := by
  cases b with
  | true => exact spells_of_reads (by decide) (by decide) fun _ _ _ _ => rfl
  | false => exact spells_of_reads (by decide) (by decide) fun _ _ _ _ => rfl

/-- A value that is read back has a JSON text, which spells it. -/
theorem Faithful.exists_print? {v : Value} (h : Faithful v) :
    ∃ text, print? v = some text ∧ Spells text v := by
  induction h with
  | null => exact ⟨_, rfl, spells_null⟩
  | bool b => exact ⟨_, by cases b <;> rfl, spells_bool b⟩
  | int hn => exact ⟨_, rfl, spells_int hn⟩
  | str hs => exact ⟨_, rfl, spells_str hs⟩
  | @list vs hvs ih =>
    have hitems : ∃ texts, printItems? vs = some texts ∧ List.Forall₂ Spells texts vs := by
      clear hvs
      induction vs with
      | nil => exact ⟨[], rfl, .nil⟩
      | cons v vs ih' =>
        obtain ⟨⟨text, htext, hv⟩, ih⟩ := List.forall_mem_cons.1 ih
        obtain ⟨texts, htexts, hvs⟩ := ih' ih
        exact ⟨text :: texts, by rw [printItems?, htext, htexts]; rfl, .cons hv hvs⟩
    obtain ⟨texts, htexts, hvs⟩ := hitems
    exact ⟨_, by rw [print?, htexts]; rfl, spells_list hvs⟩
  | @dict es hnamed hkeys hvs ih =>
    have hmembers : ∃ texts, printEntries? es = some texts ∧ List.Forall₂ SpellsMember texts es := by
      clear hvs hnamed
      induction es with
      | nil => exact ⟨[], rfl, .nil⟩
      | cons e es ih' =>
        obtain ⟨k, v⟩ := e
        obtain ⟨⟨text, htext, hv⟩, hvalues⟩ := List.forall_mem_cons.1 ih
        obtain ⟨⟨s, rfl, hs⟩, hnames⟩ := List.forall_mem_cons.1 hkeys
        obtain ⟨texts, htexts, hes⟩ := ih' hnames hvalues
        exact ⟨_ :: texts, by rw [printEntries?, keyText?, htext, htexts]; rfl,
          .cons ⟨s, text, rfl, hs, rfl, hv⟩ hes⟩
    obtain ⟨texts, htexts, hes⟩ := hmembers
    exact ⟨_, by rw [print?, htexts]; rfl, spells_dict hes hnamed⟩

/-! ## Whole texts -/

/-- The value that a text holds, in which arrays and objects may be nested as deep as is said. -/
def readWithin (depth : Nat) (s : List Char) : Except Unreadable Value := do
  let (v, rest) ← value (2 * s.length + 2) depth (skipSpace s)
  match skipSpace rest with
  | [] => return v
  | _ => throw .json

theorem readChars_eq_readWithin (s : List Char) : readChars s = readWithin deepest s := rfl

/-- A value is read back from a text that spells it. -/
theorem Spells.readWithin_eq {text : List Char} {v : Value} (h : Spells text v) {depth : Nat}
    (hdepth : nesting v ≤ depth) : readWithin depth text = .ok v := by
  have hread := h.reads (2 * text.length + 2) depth [] (by omega) hdepth ends_nil
  have hspace := h.skipSpace_append []
  rw [List.append_nil] at hread hspace
  rw [readWithin, hspace, hread]
  rfl

/-- A string is read back with the halves of each pair joined. -/
theorem readWithin_quote (s : String) (depth : Nat) :
    readWithin depth (quote s.toList) = .ok (.str (whole s)) := by
  have hread := value_quote s (2 * (quote s.toList).length + 1) depth []
  have hspace : skipSpace (quote s.toList) = quote s.toList := skipSpace_cons (by decide) _
  rw [List.append_nil] at hread
  rw [readWithin, hspace, hread]
  rfl

/-- A value is the only one that is spelled by a text. -/
theorem Spells.eq {text : List Char} {v w : Value} (hv : Spells text v) (hw : Spells text w) : v = w := by
  have hreadv := hv.readWithin_eq (Nat.le_max_left (nesting v) (nesting w))
  have hreadw := hw.readWithin_eq (Nat.le_max_right (nesting v) (nesting w))
  exact Except.ok.inj (hreadv.symm.trans hreadw)

end ViewFinder.Json
